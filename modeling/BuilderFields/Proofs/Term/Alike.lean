import BuilderFields.Proofs.Outcome
import BuilderFields.Proofs.Term.Descent

/-!
# Terms that are alike

Two terms are alike if they differ in their atoms and unknowns alone, and these correspond one to one. The solver looks
at an atom or an unknown only to compare it with another one, so alike terms are solved alike: both with alike
bindings, or both with alike clashes, or neither within the depth. The two terms may well belong to different
registries, since nothing is said of where an atom or an unknown comes from.
-/

namespace BuilderFields

open Substitution

/-! ### Tables -/

namespace Entries

variable {α α' β β' : Type} [DecidableEq α] [DecidableEq α'] {R : α → α' → Prop}
  {V : β → β' → Prop} {entries later : Entries α β} {entries' later' : Entries α' β'}

def Alike (R : α → α' → Prop) (V : β → β' → Prop) (entries : Entries α β)
    (entries' : Entries α' β') : Prop :=
  List.Forall₂ (fun entry entry' => R entry.1 entry'.1 ∧ V entry.2 entry'.2) entries entries'

/-- Alike entries say alike things of corresponding keys. -/
theorem Alike.get? (hR : Relator.BiUnique R) (h : Alike R V entries entries') {key : α} {key' : α'}
    (hkey : R key key') : Option.Rel V (entries.get? key) (entries'.get? key') := by
  induction h with
  | nil => exact .none
  | @cons entry entry' rest rest' hentry hrest ih =>
      have hiff : key = entry.1 ↔ key' = entry'.1 := Relator.rel_eq hR hkey hentry.1
      rw [get?_cons, get?_cons]
      by_cases hfound : key = entry.1
      · rw [if_pos hfound, if_pos (hiff.mp hfound)]
        exact .some hentry.2
      · rw [if_neg hfound, if_neg (mt hiff.mpr hfound)]
        exact ih

theorem Alike.put (hR : Relator.BiUnique R) (h : Alike R V entries entries') {key : α} {key' : α'}
    (hkey : R key key') {value : β} {value' : β'} (hvalue : V value value') :
    Alike R V (entries.put key value) (entries'.put key' value') := by
  induction h with
  | nil => exact .cons ⟨hkey, hvalue⟩ .nil
  | @cons entry entry' rest rest' hentry hrest ih =>
      have hiff : entry.1 = key ↔ entry'.1 = key' := Relator.rel_eq hR hentry.1 hkey
      unfold Entries.put
      by_cases hfound : entry.1 = key
      · rw [if_pos hfound, if_pos (hiff.mp hfound)]
        exact .cons ⟨hkey, hvalue⟩ hrest
      · rw [if_neg hfound, if_neg (mt hiff.mpr hfound)]
        exact .cons hentry ih

theorem Alike.putAll (hR : Relator.BiUnique R) (h : Alike R V entries entries')
    (hlater : Alike R V later later') :
    Alike R V (entries.putAll later) (entries'.putAll later') := by
  induction hlater generalizing entries entries' with
  | nil => exact h
  | cons hentry _ ih => exact ih (h.put hR hentry.1 hentry.2)

end Entries

/-! ### Correspondences -/

structure Correspondence where
  atoms : Atom → Atom → Prop
  unknowns : Unknown → Unknown → Prop
  biUnique_atoms : Relator.BiUnique atoms
  biUnique_unknowns : Relator.BiUnique unknowns

def Correspondence.symm (c : Correspondence) : Correspondence where
  atoms := fun a b => c.atoms b a
  unknowns := fun u v => c.unknowns v u
  biUnique_atoms := ⟨fun _ _ _ h h' => c.biUnique_atoms.2 h h', fun _ _ _ h h' => c.biUnique_atoms.1 h h'⟩
  biUnique_unknowns :=
    ⟨fun _ _ _ h h' => c.biUnique_unknowns.2 h h', fun _ _ _ h h' => c.biUnique_unknowns.1 h h'⟩

namespace Term

inductive Alike (c : Correspondence) : Term → Term → Prop
  | atom {a b} (h : c.atoms a b) : Alike c (.atom a) (.atom b)
  | unknown {u v} (h : c.unknowns u v) : Alike c (.unknown u) (.unknown v)
  | seq {as bs} (h : List.Forall₂ (Alike c) as bs) : Alike c (.seq as) (.seq bs)

variable {c : Correspondence} {term term' left left' right right' : Term}

/-- Induction over two terms that are alike, and the items of their sequences. -/
@[elab_as_elim]
theorem Alike.inductionOn {motive : Term → Term → Prop} (h : term.Alike c term')
    (atom : ∀ {a b}, c.atoms a b → motive (.atom a) (.atom b))
    (unknown : ∀ {u v}, c.unknowns u v → motive (.unknown u) (.unknown v))
    (seq : ∀ {as bs}, List.Forall₂ (Alike c) as bs → List.Forall₂ motive as bs →
      motive (.seq as) (.seq bs)) : motive term term' :=
  Alike.rec (motive_1 := fun term term' _ => motive term term')
    (motive_2 := fun as bs _ => List.Forall₂ motive as bs)
    atom unknown (fun hitems ih => seq hitems ih) .nil (fun _ _ ih ihRest => .cons ih ihRest) h

theorem Alike.symm (h : term.Alike c term') : term'.Alike c.symm term := by
  refine Alike.inductionOn h ?_ ?_ ?_
  · exact fun h => .atom h
  · exact fun h => .unknown h
  · exact fun _ ih => .seq ih.flip

theorem leftUnique_alike (c : Correspondence) : Relator.LeftUnique (Alike c) := by
  intro left right term hleft
  revert right
  refine Alike.inductionOn hleft ?_ ?_ ?_
  · intro a b hab right hright
    cases hright with
    | atom h => rw [c.biUnique_atoms.1 hab h]
  · intro u v huv right hright
    cases hright with
    | unknown h => rw [c.biUnique_unknowns.1 huv h]
  · intro as bs hitems ih right hright
    clear hleft hitems
    cases hright with
    | @seq others _ hothers =>
        refine congrArg Term.seq ?_
        induction ih generalizing others with
        | nil => rw [List.forall₂_nil_right_iff.mp hothers]
        | cons hfirst _ ihRest =>
            cases hothers with
            | cons hother hrest => rw [hfirst hother, ihRest hrest]

/-- A term has at most one like it on either side. -/
theorem biUnique_alike (c : Correspondence) : Relator.BiUnique (Alike c) :=
  ⟨leftUnique_alike c, fun _ _ _ h h' => leftUnique_alike c.symm h.symm h'.symm⟩

theorem Alike.eq_iff (hleft : left.Alike c left') (hright : right.Alike c right') :
    left = right ↔ left' = right' :=
  Relator.rel_eq (biUnique_alike c) hleft hright

theorem Alike.size_eq (h : term.Alike c term') : term.size = term'.size := by
  refine Alike.inductionOn h ?_ ?_ ?_
  · exact fun _ => rfl
  · exact fun _ => rfl
  · intro as bs _ ih
    have hsizes : as.map size = bs.map size := by
      rwa [← List.forall₂_eq_eq_eq, List.forall₂_map_left_iff, List.forall₂_map_right_iff]
    rw [size_seq, size_seq, hsizes]

theorem Alike.isGround_eq (h : term.Alike c term') : term.isGround = term'.isGround := by
  rw [Bool.eq_iff_iff]
  refine Alike.inductionOn h ?_ ?_ ?_
  · simp [isGround_iff]
  · simp [isGround_iff]
  · intro as bs hitems ih
    clear hitems
    rw [isGround_seq_iff, isGround_seq_iff]
    induction ih with
    | nil => simp
    | cons hfirst _ ihRest => rw [List.forall_mem_cons, List.forall_mem_cons, hfirst, ihRest]

end Term

/-! ### Substitutions -/

namespace Substitution

def Alike (c : Correspondence) (s s' : Substitution) : Prop :=
  s.bindings.Alike c.unknowns (Term.Alike c) s'.bindings

variable {c : Correspondence} {s s' later later' : Substitution} {term term' : Term}

theorem alike_empty (c : Correspondence) : Substitution.empty.Alike c .empty :=
  List.Forall₂.nil

theorem alike_single {u v : Unknown} (hu : c.unknowns u v) (hterm : term.Alike c term') :
    (single u term).Alike c (single v term') :=
  .cons ⟨hu, hterm⟩ .nil

theorem Alike.union (h : s.Alike c s') (hlater : later.Alike c later') :
    (s.union later).Alike c (s'.union later') :=
  Entries.Alike.putAll c.biUnique_unknowns h hlater

/-- Alike substitutions take alike terms to alike terms. -/
theorem Alike.apply (h : s.Alike c s') (hterm : term.Alike c term') :
    (s.apply term).Alike c (s'.apply term') := by
  refine Term.Alike.inductionOn hterm ?_ ?_ ?_
  · intro a b hab
    rw [apply_atom, apply_atom]
    exact .atom hab
  · intro u v huv
    have hbound : Option.Rel (Term.Alike c) (s.get? u) (s'.get? v) :=
      Entries.Alike.get? c.biUnique_unknowns h huv
    cases hu : s.get? u with
    | none =>
        rw [hu] at hbound
        cases hv : s'.get? v with
        | none =>
            rw [apply_unknown_of_get?_eq_none hu, apply_unknown_of_get?_eq_none hv]
            exact .unknown huv
        | some bound =>
            rw [hv] at hbound
            cases hbound
    | some bound =>
        rw [hu] at hbound
        cases hv : s'.get? v with
        | none =>
            rw [hv] at hbound
            cases hbound
        | some bound' =>
            rw [hv] at hbound
            cases hbound with
            | some hsame =>
                rwa [apply_unknown_of_get?_eq_some hu, apply_unknown_of_get?_eq_some hv]
  · intro as bs _ ih
    rw [apply_seq, apply_seq]
    exact .seq (by rwa [List.forall₂_map_left_iff, List.forall₂_map_right_iff])

end Substitution

/-! ### The search -/

structure Clash.Alike (c : Correspondence) (clash clash' : Clash) : Prop where
  left : clash.left.Alike c clash'.left
  right : clash.right.Alike c clash'.right
  reason : clash.reason = clash'.reason

inductive Unsolved.Alike (c : Correspondence) : Unsolved → Unsolved → Prop
  | clash {clash clash'} (h : clash.Alike c clash') : Alike c (.clash clash) (.clash clash')
  | tooDeep : Alike c .tooDeep .tooDeep

namespace Term

variable {c : Correspondence} {left left' right right' : Term}

def AlikePairs (c : Correspondence) (pairs pairs' : List (Term × Term)) : Prop :=
  List.Forall₂ (fun pair pair' => pair.1.Alike c pair'.1 ∧ pair.2.Alike c pair'.2) pairs pairs'

theorem alikePairs_zip {as as' bs bs' : List Term} (has : List.Forall₂ (Alike c) as as')
    (hbs : List.Forall₂ (Alike c) bs bs') : AlikePairs c (as.zip bs) (as'.zip bs') := by
  induction has generalizing bs bs' with
  | nil => exact .nil
  | cons hfirst _ ih =>
      cases hbs with
      | nil => exact .nil
      | cons hother hrest => exact .cons ⟨hfirst, hother⟩ (ih hrest)

theorem AlikePairs.applyPairs {pairs pairs' : List (Term × Term)} (h : AlikePairs c pairs pairs')
    {s s' : Substitution} (hs : s.Alike c s') :
    AlikePairs c (s.applyPairs pairs) (s'.applyPairs pairs') := by
  unfold AlikePairs Substitution.applyPairs
  rw [List.forall₂_map_left_iff, List.forall₂_map_right_iff]
  exact h.imp fun pair pair' hpair => ⟨hs.apply hpair.1, hs.apply hpair.2⟩

/-- Alike lists of pairs are solved alike, as far as single pairs are. -/
theorem unifyPairs_alike {solve : Term → Term → Except Unsolved Substitution}
    (hsolve : ∀ {left left' right right'}, left.Alike c left' → right.Alike c right' →
      Parallel (Unsolved.Alike c) (Substitution.Alike c) (solve left right) (solve left' right'))
    {found found' : Substitution} (hfound : found.Alike c found')
    {pairs pairs' : List (Term × Term)} (hpairs : AlikePairs c pairs pairs') :
    Parallel (Unsolved.Alike c) (Substitution.Alike c) (unifyPairs solve found pairs)
      (unifyPairs solve found' pairs') := by
  -- On the number of pairs: each step rewrites those that are left.
  induction hlength : pairs.length generalizing pairs pairs' found found' with
  | zero =>
      obtain rfl := List.eq_nil_of_length_eq_zero hlength
      cases hpairs with
      | nil =>
          rw [unifyPairs_nil, unifyPairs_nil]
          exact .ok hfound
  | succ length ih =>
      cases hpairs with
      | nil => cases hlength
      | @cons pair pair' rest rest' hpair hrest =>
          obtain ⟨left, right⟩ := pair
          obtain ⟨left', right'⟩ := pair'
          have hstep := hsolve hpair.1 hpair.2
          cases hsolved : solve left right with
          | error unsolved =>
              rw [hsolved] at hstep
              cases hsolved' : solve left' right' with
              | ok step' =>
                  rw [hsolved'] at hstep
                  cases hstep
              | error unsolved' =>
                  rw [hsolved'] at hstep
                  rw [unifyPairs_cons_of_error hsolved, unifyPairs_cons_of_error hsolved']
                  cases hstep with
                  | error hsame => exact .error hsame
          | ok step =>
              rw [hsolved] at hstep
              cases hsolved' : solve left' right' with
              | error unsolved' =>
                  rw [hsolved'] at hstep
                  cases hstep
              | ok step' =>
                  rw [hsolved'] at hstep
                  rw [unifyPairs_cons_of_ok hsolved, unifyPairs_cons_of_ok hsolved']
                  cases hstep with
                  | ok hsame =>
                      refine ih (hfound.union hsame) (AlikePairs.applyPairs hrest hsame) ?_
                      simpa [Substitution.applyPairs] using hlength

/-- The search cannot tell alike pairs apart: it finds alike bindings, fails alike, or is cut off on both sides. -/
theorem unifyWithin_alike (depth : Nat) (hleft : left.Alike c left')
    (hright : right.Alike c right') :
    Parallel (Unsolved.Alike c) (Substitution.Alike c) (unifyWithin depth left right)
      (unifyWithin depth left' right') := by
  induction depth generalizing left left' right right' with
  | zero => exact .error .tooDeep
  | succ depth ih =>
      cases hleft with
      | @unknown u u' hu =>
          have hiff := Alike.eq_iff hright (.unknown hu)
          by_cases hsame : right = .unknown u
          · obtain rfl := hiff.mp hsame
            rw [hsame, unifyWithin_unknown_self, unifyWithin_unknown_self]
            exact .ok (alike_empty c)
          · rw [unifyWithin_unknown_left hsame, unifyWithin_unknown_left (mt hiff.mpr hsame)]
            exact .ok (alike_single hu hright)
      | @atom a a' ha =>
          cases hright with
          | unknown hv =>
              rw [unifyWithin_unknown_right (by simp), unifyWithin_unknown_right (by simp)]
              exact .ok (alike_single hv (.atom ha))
          | @atom b b' hb =>
              have hiff : a = b ↔ a' = b' := Relator.rel_eq c.biUnique_atoms ha hb
              rw [unifyWithin_atom_atom, unifyWithin_atom_atom]
              by_cases hsame : a = b
              · rw [if_pos hsame, if_pos (hiff.mp hsame)]
                exact .ok (alike_empty c)
              · rw [if_neg hsame, if_neg (mt hiff.mpr hsame)]
                exact .error (.clash ⟨.atom ha, .atom hb, rfl⟩)
          | seq hbs =>
              rw [unifyWithin_atom_seq, unifyWithin_atom_seq]
              exact .error (.clash ⟨.atom ha, .seq hbs, rfl⟩)
      | @seq as as' has =>
          cases hright with
          | unknown hv =>
              rw [unifyWithin_unknown_right (by simp), unifyWithin_unknown_right (by simp)]
              exact .ok (alike_single hv (.seq has))
          | atom hb =>
              rw [unifyWithin_seq_atom, unifyWithin_seq_atom]
              exact .error (.clash ⟨.seq has, .atom hb, rfl⟩)
          | @seq bs bs' hbs =>
              rw [unifyWithin_seq_seq, unifyWithin_seq_seq, has.length_eq, hbs.length_eq]
              by_cases hlength : as'.length = bs'.length
              · rw [if_pos hlength, if_pos hlength]
                exact unifyPairs_alike ih (alike_empty c) (alikePairs_zip has hbs)
              · rw [if_neg hlength, if_neg hlength]
                exact .error (.clash ⟨.seq has, .seq hbs, rfl⟩)

/-- **Alike terms are solved alike.** -/
theorem unify_alike (hleft : left.Alike c left') (hright : right.Alike c right') :
    Parallel (Unsolved.Alike c) (Substitution.Alike c) (left.unify right)
      (left'.unify right') := by
  unfold unify searchDepth
  rw [hleft.size_eq, hright.size_eq]
  exact unifyWithin_alike _ hleft hright

end Term

end BuilderFields
