import BuilderFields.Proofs.Term.Assignment
import BuilderFields.Term.Unify

/-!
# Runs of the unifier

A run is a successful search with the depth taken out: pairs are dealt with from left to right, and `made` lists
every binding in the order it was made. The substitution that the search returns is the table of these writes, so
it holds the last binding of each unknown and has forgotten the others; the list has not. That is what makes the
list the right thing to reason about: an assignment unifies the pairs exactly when it meets every binding made on
the way (`Run.meets_iff`), while it may meet the returned table and unify nothing.
-/

namespace BuilderFields

open Substitution

def Substitution.applyPairs (s : Substitution) (pairs : List (Term × Term)) : List (Term × Term) :=
  pairs.map fun pair => (s.apply pair.1, s.apply pair.2)

/-- The search succeeds on the pairs and makes these bindings. -/
inductive Run : List (Term × Term) → List Binding → Prop
  | nil : Run [] []
  | sameUnknown {u rest made} (later : Run rest made) :
      Run ((.unknown u, .unknown u) :: rest) made
  | bindLeft {u right rest made} (hne : right ≠ .unknown u)
      (later : Run ((ofList [(u, right)]).applyPairs rest) made) :
      Run ((.unknown u, right) :: rest) ((u, right) :: made)
  | bindRight {left u rest made} (hleft : ∀ v, left ≠ .unknown v)
      (later : Run ((ofList [(u, left)]).applyPairs rest) made) :
      Run ((left, .unknown u) :: rest) ((u, left) :: made)
  | sameAtom {a rest made} (later : Run rest made) :
      Run ((.atom a, .atom a) :: rest) made
  | descend {as bs inner rest outer} (hlength : as.length = bs.length)
      (within : Run (as.zip bs) inner) (later : Run ((ofList inner).applyPairs rest) outer) :
      Run ((.seq as, .seq bs) :: rest) (inner ++ outer)

@[simp]
theorem Substitution.applyPairs_nil (s : Substitution) : s.applyPairs [] = [] := rfl

@[simp]
theorem Substitution.applyPairs_empty (pairs : List (Term × Term)) :
    Substitution.empty.applyPairs pairs = pairs := by
  simp [applyPairs]

theorem Substitution.empty_eq_ofList : Substitution.empty = ofList [] := rfl

/-- Unions of tables are tables of writes, whatever was found before. -/
theorem Substitution.union_ofList_append (found : Substitution) (first second : List Binding) :
    (found.union (ofList first)).union (ofList second) = found.union (ofList (first ++ second)) := by
  simp only [union, ofList, Entries.putAll_ofList, Entries.putAll_append]

theorem Substitution.empty_union_ofList (made : List Binding) :
    Substitution.empty.union (ofList made) = ofList made := by
  simp only [union, ofList, empty, Entries.putAll_ofList]
  rfl

namespace Run

theorem eq_nil {made : List Binding} (run : Run [] made) : made = [] := by
  cases run
  rfl

/-- A run of one pair, continued on the others after a pass of what it found. -/
theorem cons {left right : Term} {rest : List (Term × Term)} {first later : List Binding}
    (head : Run [(left, right)] first) (tail : Run ((ofList first).applyPairs rest) later) :
    Run ((left, right) :: rest) (first ++ later) := by
  cases head with
  | sameUnknown ends =>
      obtain rfl := ends.eq_nil
      rw [← empty_eq_ofList, applyPairs_empty] at tail
      exact .sameUnknown tail
  | bindLeft hne ends =>
      obtain rfl := ends.eq_nil
      exact .bindLeft hne tail
  | bindRight hleft ends =>
      obtain rfl := ends.eq_nil
      exact .bindRight hleft tail
  | sameAtom ends =>
      obtain rfl := ends.eq_nil
      rw [← empty_eq_ofList, applyPairs_empty] at tail
      exact .sameAtom tail
  | descend hlength within ends =>
      obtain rfl := ends.eq_nil
      rw [List.append_nil] at tail ⊢
      exact .descend hlength within tail

end Run

/-- An assignment that meets the bindings cannot tell whether they have been applied. -/
theorem Assignment.unifies_applyPairs_iff {θ : Assignment} {made : List Binding}
    (hmeets : θ.Meets made) (pairs : List (Term × Term)) :
    (∀ pair ∈ (ofList made).applyPairs pairs, θ.Unifies pair.1 pair.2) ↔
      ∀ pair ∈ pairs, θ.Unifies pair.1 pair.2 := by
  simp only [applyPairs, List.forall_mem_map, Assignment.Unifies, value_apply_of_meets hmeets]

namespace Run

variable {pairs : List (Term × Term)} {made : List Binding}

/-- **What a run knows.** The assignments that unify the pairs are those that meet every binding made. -/
theorem meets_iff (run : Run pairs made) (θ : Assignment) :
    θ.Meets made ↔ ∀ pair ∈ pairs, θ.Unifies pair.1 pair.2 := by
  induction run with
  | nil => simp
  | sameUnknown later ih => simpa [Assignment.Unifies] using ih
  | sameAtom later ih => simpa [Assignment.Unifies] using ih
  | @bindLeft u right rest made hne later ih =>
      rw [Assignment.meets_cons_iff, List.forall_mem_cons, ih]
      refine and_congr_right fun hbound => ?_
      exact Assignment.unifies_applyPairs_iff (by simpa using hbound) rest
  | @bindRight left u rest made hleft later ih =>
      rw [Assignment.meets_cons_iff, List.forall_mem_cons, ih]
      refine (and_congr_right fun hbound => ?_).trans (and_congr_left' eq_comm)
      exact Assignment.unifies_applyPairs_iff (by simpa using hbound) rest
  | @descend as bs inner rest outer hlength within later ihWithin ihLater =>
      rw [Assignment.meets_append_iff, List.forall_mem_cons, ihLater,
        Assignment.unifies_seq_iff hlength, ← ihWithin]
      exact and_congr_right fun hinner => Assignment.unifies_applyPairs_iff hinner rest

/-- There is only one run, so what is made is a matter of the pairs alone. -/
theorem unique (run : Run pairs made) {other : List Binding} (run' : Run pairs other) :
    made = other := by
  induction run generalizing other with
  | nil => exact run'.eq_nil.symm
  | sameUnknown later ih =>
      cases run' with
      | sameUnknown later' => exact ih later'
      | bindLeft hne _ => exact absurd rfl hne
      | bindRight hleft _ => exact absurd rfl (hleft _)
  | sameAtom later ih =>
      cases run' with
      | sameAtom later' => exact ih later'
  | bindLeft hne later ih =>
      cases run' with
      | sameUnknown _ => exact absurd rfl hne
      | bindLeft _ later' => rw [ih later']
      | bindRight hleft _ => exact absurd rfl (hleft _)
  | bindRight hleft later ih =>
      cases run' with
      | sameUnknown _ => exact absurd rfl (hleft _)
      | bindLeft _ _ => exact absurd rfl (hleft _)
      | bindRight _ later' => rw [ih later']
  | descend hlength within later ihWithin ihLater =>
      cases run' with
      | descend _ within' later' =>
          obtain rfl := ihWithin within'
          rw [ihLater later']

/-- The bindings of a run say neither more nor less than the equation they come from. -/
theorem meets_pair_iff {left right : Term} (run : Run [(left, right)] made) (θ : Assignment) :
    θ.Meets made ↔ θ.Unifies left right := by
  simpa using run.meets_iff θ

end Run

-- A property that the items of a sequence have as well, and that is kept when they are exchanged one for
-- one. It holds of whatever a search takes apart and puts together again.
structure Closed (C : Term → Prop) : Prop where
  item : ∀ {items item}, C (.seq items) → item ∈ items → C item
  exchange : ∀ {items others : List Term}, others.length = items.length → C (.seq items) →
    (∀ other ∈ others, C other) → C (.seq others)

namespace Closed

variable {C : Term → Prop} {pairs : List (Term × Term)} {made : List Binding}

theorem apply (hC : Closed C) (hmade : ∀ binding ∈ made, C binding.2) {term : Term}
    (hterm : C term) : C ((ofList made).apply term) := by
  induction term using Term.inductionOn with
  | atom a => simpa using hterm
  | unknown u =>
      cases hu : (ofList made).get? u with
      | none => rwa [apply_unknown_of_get?_eq_none hu]
      | some bound =>
          rw [apply_unknown_of_get?_eq_some hu]
          exact hmade (u, bound) (mem_of_get?_eq_some hu)
  | seq items ih =>
      rw [apply_seq]
      refine hC.exchange (List.length_map _) hterm fun other hother => ?_
      obtain ⟨item, hitem, rfl⟩ := List.mem_map.mp hother
      exact ih item hitem (hC.item hterm hitem)

theorem applyPairs (hC : Closed C) (hmade : ∀ binding ∈ made, C binding.2)
    (hpairs : ∀ pair ∈ pairs, C pair.1 ∧ C pair.2) :
    ∀ pair ∈ (ofList made).applyPairs pairs, C pair.1 ∧ C pair.2 := by
  intro pair hpair
  obtain ⟨origin, horigin, rfl⟩ := List.mem_map.mp hpair
  exact ⟨hC.apply hmade (hpairs origin horigin).1, hC.apply hmade (hpairs origin horigin).2⟩

/-- A run binds nothing that was not in the pairs already. -/
theorem bindings (hC : Closed C) (run : Run pairs made)
    (hpairs : ∀ pair ∈ pairs, C pair.1 ∧ C pair.2) :
    ∀ binding ∈ made, C (.unknown binding.1) ∧ C binding.2 := by
  induction run with
  | nil => simp
  | sameUnknown later ih => exact ih fun pair hpair => hpairs pair (List.mem_cons_of_mem _ hpair)
  | sameAtom later ih => exact ih fun pair hpair => hpairs pair (List.mem_cons_of_mem _ hpair)
  | @bindLeft u right rest made hne later ih =>
      rw [List.forall_mem_cons] at hpairs ⊢
      refine ⟨hpairs.1, ih (hC.applyPairs ?_ hpairs.2)⟩
      simpa using hpairs.1.2
  | @bindRight left u rest made hleft later ih =>
      rw [List.forall_mem_cons] at hpairs ⊢
      refine ⟨hpairs.1.symm, ih (hC.applyPairs ?_ hpairs.2)⟩
      simpa using hpairs.1.1
  | @descend as bs inner rest outer hlength within later ihWithin ihLater =>
      rw [List.forall_mem_cons] at hpairs
      obtain ⟨⟨has, hbs⟩, hrest⟩ := hpairs
      have hinner := ihWithin fun pair hpair =>
        ⟨hC.item has (List.of_mem_zip hpair).1, hC.item hbs (List.of_mem_zip hpair).2⟩
      have houter := ihLater (hC.applyPairs (fun binding hmem => (hinner binding hmem).2) hrest)
      exact List.forall_mem_append.mpr ⟨hinner, houter⟩

end Closed

namespace Term

/-- A list of pairs that is solved has a run, if every single pair has one. -/
theorem run_of_unifyPairs {solve : Term → Term → Except Unsolved Substitution}
    (hsolve : ∀ left right s, solve left right = .ok s →
      ∃ made, Run [(left, right)] made ∧ s = ofList made)
    {found s : Substitution} {pairs : List (Term × Term)}
    (h : unifyPairs solve found pairs = .ok s) :
    ∃ made, Run pairs made ∧ s = found.union (ofList made) := by
  induction hlen : pairs.length generalizing pairs found with
  | zero =>
      obtain rfl := List.eq_nil_of_length_eq_zero hlen
      rw [unifyPairs] at h
      cases h
      exact ⟨[], .nil, rfl⟩
  | succ count ih =>
      obtain ⟨⟨left, right⟩, rest, rfl⟩ := List.exists_cons_of_length_eq_add_one hlen
      rw [unifyPairs] at h
      cases hstep : solve left right with
      | error unsolved => simp [hstep] at h
      | ok step =>
          rw [hstep] at h
          obtain ⟨first, head, rfl⟩ := hsolve left right step hstep
          obtain ⟨later, tail, rfl⟩ := ih h (by simpa using hlen)
          exact ⟨first ++ later, head.cons tail, union_ofList_append found first later⟩

/-! ### The search, case by case -/

section Cases

variable {depth : Nat}

theorem unifyWithin_unknown_self (u : Unknown) :
    unifyWithin (depth + 1) (.unknown u) (.unknown u) = .ok .empty :=
  if_pos rfl

theorem unifyWithin_unknown_left {u : Unknown} {right : Term} (hne : right ≠ .unknown u) :
    unifyWithin (depth + 1) (.unknown u) right = .ok (.single u right) := by
  cases right with
  | unknown v =>
      have huv : u ≠ v := by
        rintro rfl
        exact hne rfl
      exact if_neg huv
  | atom b => rfl
  | seq bs => rfl

theorem unifyWithin_unknown_right {left : Term} (hleft : ∀ v, left ≠ .unknown v) (u : Unknown) :
    unifyWithin (depth + 1) left (.unknown u) = .ok (.single u left) := by
  cases left with
  | unknown v => exact absurd rfl (hleft v)
  | atom a => rfl
  | seq as => rfl

theorem unifyWithin_atom_atom (a b : Atom) :
    unifyWithin (depth + 1) (.atom a) (.atom b) =
      if a = b then .ok .empty else .error (.clash ⟨.atom a, .atom b, .distinctAtoms⟩) := rfl

theorem unifyWithin_atom_seq (a : Atom) (bs : List Term) :
    unifyWithin (depth + 1) (.atom a) (.seq bs) =
      .error (.clash ⟨.atom a, .seq bs, .atomAndSequence⟩) := rfl

theorem unifyWithin_seq_atom (as : List Term) (b : Atom) :
    unifyWithin (depth + 1) (.seq as) (.atom b) =
      .error (.clash ⟨.seq as, .atom b, .atomAndSequence⟩) := rfl

theorem unifyWithin_seq_seq (as bs : List Term) :
    unifyWithin (depth + 1) (.seq as) (.seq bs) =
      if as.length = bs.length then unifyPairs (unifyWithin depth) .empty (as.zip bs)
      else .error (.clash ⟨.seq as, .seq bs, .lengths as.length bs.length⟩) := rfl

end Cases

/-- What the search returns is the table of the bindings that a run makes. -/
theorem run_of_unifyWithin {depth : Nat} {left right : Term} {s : Substitution}
    (h : unifyWithin depth left right = .ok s) :
    ∃ made, Run [(left, right)] made ∧ s = ofList made := by
  induction depth generalizing left right s with
  | zero => simp [unifyWithin] at h
  | succ depth ih =>
      by_cases hleft : ∃ u, left = .unknown u
      · obtain ⟨u, rfl⟩ := hleft
        by_cases hright : right = .unknown u
        · subst hright
          rw [unifyWithin_unknown_self] at h
          cases h
          exact ⟨[], .sameUnknown .nil, rfl⟩
        · rw [unifyWithin_unknown_left hright] at h
          cases h
          exact ⟨[(u, right)], .bindLeft hright .nil, rfl⟩
      have hleft' : ∀ v, left ≠ .unknown v := fun v heq => hleft ⟨v, heq⟩
      cases right with
      | unknown u =>
          rw [unifyWithin_unknown_right hleft'] at h
          cases h
          exact ⟨[(u, left)], .bindRight hleft' .nil, rfl⟩
      | atom b =>
          cases left with
          | unknown u => exact absurd rfl (hleft' u)
          | seq as => simp [unifyWithin_seq_atom] at h
          | atom a =>
              rw [unifyWithin_atom_atom] at h
              split at h
              · rename_i heq
                subst heq
                cases h
                exact ⟨[], .sameAtom .nil, rfl⟩
              · cases h
      | seq bs =>
          cases left with
          | unknown u => exact absurd rfl (hleft' u)
          | atom a => simp [unifyWithin_atom_seq] at h
          | seq as =>
              rw [unifyWithin_seq_seq] at h
              split at h
              · rename_i hlength
                obtain ⟨inner, within, rfl⟩ := run_of_unifyPairs (fun _ _ _ => ih) h
                have run : Run [(.seq as, .seq bs)] (inner ++ []) := .descend hlength within .nil
                rw [List.append_nil] at run
                exact ⟨inner, run, empty_union_ofList inner⟩
              · cases h

/-- Bindings that are found are those of a run, with later ones in the place of earlier ones. -/
theorem run_of_unify {left right : Term} {s : Substitution} (h : left.unify right = .ok s) :
    ∃ made, Run [(left, right)] made ∧ s = ofList made :=
  run_of_unifyWithin h

end Term

end BuilderFields
