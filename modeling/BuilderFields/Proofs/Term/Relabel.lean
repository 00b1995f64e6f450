import BuilderFields.Proofs.Term.Alike
import BuilderFields.Term.Equation
import Mathlib.Logic.Equiv.Defs

/-!
# Relabelling

Nothing in the solver depends on which unknowns it works with. Terms, substitutions and the outcomes of a search may
be relabelled at any time, as long as different unknowns stay different: what is relabelled is alike, and only the
relabelled outcome is alike to the outcome.
-/

namespace BuilderFields

variable (f : Equiv.Perm Unknown)

def Correspondence.ofPerm : Correspondence where
  atoms := Eq
  unknowns := fun u v => f u = v
  biUnique_atoms := ⟨fun _ _ _ h h' => h.trans h'.symm, fun _ _ _ h h' => h.symm.trans h'⟩
  biUnique_unknowns :=
    ⟨fun _ _ _ h h' => f.injective (h.trans h'.symm), fun _ _ _ h h' => h.symm.trans h'⟩

namespace Term

def relabel (term : Term) : Term :=
  Assignment.value (fun u => .unknown (f u)) term

@[simp]
theorem relabel_atom (a : Atom) : (Term.atom a).relabel f = .atom a :=
  Assignment.value_atom _ a

@[simp]
theorem relabel_unknown (u : Unknown) : (Term.unknown u).relabel f = .unknown (f u) :=
  Assignment.value_unknown _ u

@[simp]
theorem relabel_seq (items : List Term) :
    (Term.seq items).relabel f = .seq (items.map (relabel f)) :=
  Assignment.value_seq _ items

theorem alike_relabel (term : Term) : term.Alike (.ofPerm f) (term.relabel f) := by
  induction term using Term.inductionOn with
  | atom a =>
      rw [relabel_atom]
      exact .atom rfl
  | unknown u =>
      rw [relabel_unknown]
      exact .unknown rfl
  | seq items ih =>
      rw [relabel_seq]
      exact .seq (List.forall₂_map_right_iff.mpr (List.forall₂_same.mpr ih))

variable {f} in
theorem Alike.eq_relabel {term term' : Term} (h : term.Alike (.ofPerm f) term') :
    term' = term.relabel f :=
  (biUnique_alike _).2 h (alike_relabel f term)

/-- Distinct terms stay distinct under new labels. -/
theorem relabel_injective : Function.Injective (relabel f) := fun left right h =>
  (biUnique_alike _).1 (alike_relabel f left) (h ▸ alike_relabel f right)

theorem relabel_of_isGround {term : Term} (h : term.isGround) : term.relabel f = term :=
  Assignment.value_eq_self_of_isGround _ h

theorem isGround_relabel (term : Term) : (term.relabel f).isGround = term.isGround :=
  (alike_relabel f term).isGround_eq.symm

end Term

namespace Substitution

def relabel (s : Substitution) : Substitution where
  bindings := s.bindings.map (Prod.map f (Term.relabel f))
  nodup := by
    have hkeys : Entries.keys (s.bindings.map (Prod.map f (Term.relabel f))) =
        s.bindings.keys.map f := by
      simp [Entries.keys]
    rw [hkeys]
    exact s.nodup.map f.injective

@[simp]
theorem size_relabel (s : Substitution) : (s.relabel f).size = s.size := by
  simp [size, relabel]

theorem alike_relabel (s : Substitution) : s.Alike (.ofPerm f) (s.relabel f) := by
  refine List.forall₂_map_right_iff.mpr (List.forall₂_same.mpr fun binding _ => ?_)
  exact ⟨rfl, Term.alike_relabel f binding.2⟩

variable {f} in
theorem Alike.eq_relabel {s s' : Substitution} (h : s.Alike (.ofPerm f) s') : s' = s.relabel f := by
  have hbindings : List.Forall₂ (fun binding binding' =>
      Prod.map f (Term.relabel f) binding = binding') s.bindings s'.bindings :=
    List.Forall₂.imp (fun _ _ hbinding => Prod.ext hbinding.1 hbinding.2.eq_relabel.symm) h
  rw [← List.forall₂_map_left_iff (R := Eq), List.forall₂_eq_eq_eq] at hbindings
  simp only [relabel, hbindings]

/-- A pass commutes with relabelling. -/
theorem apply_relabel (s : Substitution) (term : Term) :
    (s.relabel f).apply (term.relabel f) = (s.apply term).relabel f :=
  ((alike_relabel f s).apply (Term.alike_relabel f term)).eq_relabel

theorem settle_relabel (s : Substitution) (passes : Nat) (term : Term) :
    (s.relabel f).settle passes (term.relabel f) =
      (s.settle passes term).map (Term.relabel f) := by
  induction passes generalizing term with
  | zero => rfl
  | succ passes ih =>
      simp only [settle, apply_relabel, (Term.relabel_injective f).eq_iff]
      by_cases hrest : s.apply term = term
      · rw [if_pos hrest, if_pos hrest, Option.map_some]
      · rw [if_neg hrest, if_neg hrest, ih]

/-- A term that is resolved is resolved to the relabelled result under new labels. -/
theorem resolve_relabel_of_ok {s : Substitution} {term settled : Term}
    (h : s.resolve term = .ok settled) :
    (s.relabel f).resolve (term.relabel f) = .ok (settled.relabel f) := by
  unfold resolve passLimit at h ⊢
  rw [settle_relabel, size_relabel]
  cases hsettle : s.settle (s.size + 1) term with
  | none => simp [hsettle] at h
  | some found =>
      obtain rfl : found = settled := by simpa [hsettle] using h
      rfl

theorem resolve_relabel_of_error {s : Substitution} {term : Term} {cycle : Cycle}
    (h : s.resolve term = .error cycle) :
    ∃ other, (s.relabel f).resolve (term.relabel f) = .error other := by
  unfold resolve passLimit at h ⊢
  rw [settle_relabel, size_relabel]
  cases hsettle : s.settle (s.size + 1) term with
  | none => exact ⟨_, rfl⟩
  | some found => simp [hsettle] at h

end Substitution

def Unsolved.relabel : Unsolved → Unsolved
  | .clash ⟨left, right, reason⟩ => .clash ⟨left.relabel f, right.relabel f, reason⟩
  | .tooDeep => .tooDeep

def relabelFound : Except Unsolved Substitution → Except Unsolved Substitution
  | .ok s => .ok (s.relabel f)
  | .error unsolved => .error (unsolved.relabel f)

theorem Unsolved.Alike.eq_relabel {f : Equiv.Perm Unknown} {unsolved unsolved' : Unsolved}
    (h : unsolved.Alike (.ofPerm f) unsolved') : unsolved' = unsolved.relabel f := by
  cases h with
  | tooDeep => rfl
  | @clash clash clash' h =>
      obtain ⟨left, right, reason⟩ := clash
      obtain ⟨left', right', reason'⟩ := clash'
      obtain rfl := h.left.eq_relabel
      obtain rfl := h.right.eq_relabel
      obtain rfl := h.reason
      rfl

/-- Unifying commutes with relabelling, in what is found and in how it fails. -/
theorem Term.unify_relabel (left right : Term) :
    (left.relabel f).unify (right.relabel f) = relabelFound f (left.unify right) := by
  have halike := unify_alike (alike_relabel f left) (alike_relabel f right)
  generalize left.unify right = outcome at halike ⊢
  generalize (left.relabel f).unify (right.relabel f) = outcome' at halike ⊢
  cases halike with
  | error h => rw [h.eq_relabel, relabelFound]
  | ok h => rw [h.eq_relabel, relabelFound]

def Equation.relabel (equation : Equation) : Equation where
  left := equation.left.relabel f
  right := equation.right.relabel f
  reason := equation.reason

/-- Solving a system commutes with relabelling. -/
theorem Equation.solve_relabel (equations : List Equation) :
    Equation.solve (equations.map (Equation.relabel f)) =
      relabelFound f (Equation.solve equations) := by
  have hleft : leftSides (equations.map (Equation.relabel f)) =
      (leftSides equations).relabel f := by
    simp [leftSides, Equation.relabel, Function.comp_def]
  have hright : rightSides (equations.map (Equation.relabel f)) =
      (rightSides equations).relabel f := by
    simp [rightSides, Equation.relabel, Function.comp_def]
  rw [solve, hleft, hright, Term.unify_relabel, solve]

end BuilderFields
