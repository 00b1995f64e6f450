import BuilderFields.Proofs.Entries
import BuilderFields.Term.Substitution

/-!
# Assignments

An assignment gives every unknown a term, all at once, and the value of a term under it is what solving an
equation is about: two terms are unified when their values agree. One pass of a substitution is such an
assignment as well, so the laws of `value` are the laws of `Substitution.apply`. The law everything rests on is
`value_eq_value_iff`: a value is determined by the unknowns that occur, and determines what they are given.
-/

namespace BuilderFields

/-- Induction over a term and the items of its sequences. -/
@[elab_as_elim]
theorem Term.inductionOn {motive : Term → Prop} (term : Term) (atom : ∀ a, motive (.atom a))
    (unknown : ∀ u, motive (.unknown u))
    (seq : ∀ items, (∀ item ∈ items, motive item) → motive (.seq items)) : motive term := by
  refine Term.rec (motive_1 := motive) (motive_2 := fun items => ∀ item ∈ items, motive item)
    atom unknown seq ?_ ?_ term
  · intro item hitem
    exact absurd hitem List.not_mem_nil
  · intro first rest hfirst hrest item hitem
    rcases List.mem_cons.mp hitem with rfl | hmem
    · exact hfirst
    · exact hrest item hmem

namespace Term

@[simp]
theorem occurrences_atom (a : Atom) : (Term.atom a).occurrences = [] := by
  simp [occurrences]

@[simp]
theorem occurrences_unknown (u : Unknown) : (Term.unknown u).occurrences = [u] := by
  simp [occurrences]

@[simp]
theorem occurrences_seq (items : List Term) :
    (Term.seq items).occurrences = items.flatMap occurrences := by
  rw [occurrences, occurrencesAll_eq_flatMap]

theorem isGround_iff {term : Term} : term.isGround ↔ term.occurrences = [] :=
  List.isEmpty_iff

theorem isGround_seq_iff {items : List Term} :
    (Term.seq items).isGround ↔ ∀ item ∈ items, item.isGround := by
  simp [isGround_iff, List.flatMap_eq_nil_iff]

end Term

abbrev Assignment := Unknown → Term

abbrev Binding := Unknown × Term

namespace Assignment

mutual

def value (θ : Assignment) : Term → Term
  | .atom a => .atom a
  | .unknown u => θ u
  | .seq items => .seq (valueAll θ items)

def valueAll (θ : Assignment) : List Term → List Term
  | [] => []
  | first :: rest => value θ first :: valueAll θ rest

end

theorem valueAll_eq_map (θ : Assignment) (terms : List Term) :
    θ.valueAll terms = terms.map θ.value := by
  induction terms with
  | nil => rfl
  | cons first rest ih => simp [valueAll, ih]

@[simp]
theorem value_atom (θ : Assignment) (a : Atom) : θ.value (.atom a) = .atom a := by
  simp [value]

@[simp]
theorem value_unknown (θ : Assignment) (u : Unknown) : θ.value (.unknown u) = θ u := by
  simp [value]

@[simp]
theorem value_seq (θ : Assignment) (items : List Term) :
    θ.value (.seq items) = .seq (items.map θ.value) := by
  rw [value, valueAll_eq_map]

/-- The value of a term depends on the unknowns that occur in it, and on each of them. -/
theorem value_eq_value_iff {θ θ' : Assignment} {term : Term} :
    θ.value term = θ'.value term ↔ ∀ u ∈ term.occurrences, θ u = θ' u := by
  induction term using Term.inductionOn with
  | atom a => simp
  | unknown u => simp
  | seq items ih =>
      simp only [value_seq, Term.seq.injEq, List.map_inj_left, Term.occurrences_seq,
        List.mem_flatMap]
      constructor
      · rintro h u ⟨item, hitem, hu⟩
        exact (ih item hitem).mp (h item hitem) u hu
      · intro h item hitem
        exact (ih item hitem).mpr fun u hu => h u ⟨item, hitem, hu⟩

theorem value_id (term : Term) : value (fun u => .unknown u) term = term := by
  induction term using Term.inductionOn with
  | atom a => simp
  | unknown u => simp
  | seq items ih => rw [value_seq, List.map_congr_left ih, List.map_id']

theorem value_eq_self_of_isGround (θ : Assignment) {term : Term} (h : term.isGround) :
    θ.value term = term := by
  have hocc := Term.isGround_iff.mp h
  calc θ.value term = value (fun u => .unknown u) term :=
        value_eq_value_iff.mpr fun u hu => by simp [hocc] at hu
    _ = term := value_id term

/-- What occurs in a value is what occurs in the values of the unknowns, in order. -/
theorem occurrences_value (θ : Assignment) (term : Term) :
    (θ.value term).occurrences = term.occurrences.flatMap fun u => (θ u).occurrences := by
  induction term using Term.inductionOn with
  | atom a => simp
  | unknown u => simp
  | seq items ih =>
      simp only [value_seq, Term.occurrences_seq, List.flatMap_map, List.flatMap_assoc]
      exact List.flatMap_congr fun item hitem => ih item hitem

def comp (θ θ' : Assignment) : Assignment := fun u => θ.value (θ' u)

theorem value_comp (θ θ' : Assignment) (term : Term) :
    (θ.comp θ').value term = θ.value (θ'.value term) := by
  induction term using Term.inductionOn with
  | atom a => simp
  | unknown u => simp [comp]
  | seq items ih => simpa using ih

def IsGround (θ : Assignment) : Prop :=
  ∀ u, (θ u).isGround

/-- A ground assignment leaves no unknown in any value. -/
theorem isGround_value {θ : Assignment} (h : θ.IsGround) (term : Term) :
    (θ.value term).isGround := by
  induction term using Term.inductionOn with
  | atom a => simp [Term.isGround_iff]
  | unknown u => simpa using h u
  | seq items ih =>
      rw [value_seq, Term.isGround_seq_iff]
      intro item hitem
      obtain ⟨origin, horigin, rfl⟩ := List.mem_map.mp hitem
      exact ih origin horigin

def Unifies (θ : Assignment) (left right : Term) : Prop :=
  θ.value left = θ.value right

/-- Sequences of one length are made equal exactly by making their items equal one by one. -/
theorem unifies_seq_iff {θ : Assignment} {as bs : List Term} (hlength : as.length = bs.length) :
    θ.Unifies (.seq as) (.seq bs) ↔ ∀ pair ∈ as.zip bs, θ.Unifies pair.1 pair.2 := by
  simp only [Unifies, value_seq, Term.seq.injEq]
  induction as generalizing bs with
  | nil =>
      cases bs with
      | nil => simp
      | cons b bs => simp at hlength
  | cons a as ih =>
      cases bs with
      | nil => simp at hlength
      | cons b bs => simpa using fun _ => ih (by simpa using hlength)

theorem length_eq_of_unifies_seq {θ : Assignment} {as bs : List Term}
    (h : θ.Unifies (.seq as) (.seq bs)) : as.length = bs.length := by
  simp only [Unifies, value_seq, Term.seq.injEq] at h
  simpa using congrArg List.length h

/-- Every bound unknown is given the value of what it is bound to. -/
def Meets (θ : Assignment) (bindings : List Binding) : Prop :=
  ∀ binding ∈ bindings, θ binding.1 = θ.value binding.2

@[simp]
theorem meets_nil (θ : Assignment) : θ.Meets [] := by
  simp [Meets]

@[simp]
theorem meets_cons_iff {θ : Assignment} {binding : Binding} {bindings : List Binding} :
    θ.Meets (binding :: bindings) ↔ θ binding.1 = θ.value binding.2 ∧ θ.Meets bindings :=
  List.forall_mem_cons

theorem meets_append_iff {θ : Assignment} {first second : List Binding} :
    θ.Meets (first ++ second) ↔ θ.Meets first ∧ θ.Meets second :=
  List.forall_mem_append

end Assignment

namespace Substitution

def toAssignment (s : Substitution) : Assignment :=
  fun u => (s.get? u).getD (.unknown u)

/-- One pass of a substitution takes each unknown to its binding, or else to itself. -/
theorem apply_eq_value (s : Substitution) (term : Term) :
    s.apply term = s.toAssignment.value term := by
  induction term using Term.inductionOn with
  | atom a => simp [apply]
  | unknown u => simp [apply, toAssignment]
  | seq items ih => simpa [apply, applyAll_eq_map] using ih

@[simp]
theorem apply_atom (s : Substitution) (a : Atom) : s.apply (.atom a) = .atom a := by
  simp [apply]

@[simp]
theorem apply_seq (s : Substitution) (items : List Term) :
    s.apply (.seq items) = .seq (items.map s.apply) := by
  rw [apply, applyAll_eq_map]

theorem apply_unknown_of_get?_eq_some {s : Substitution} {u : Unknown} {term : Term}
    (h : s.get? u = some term) : s.apply (.unknown u) = term := by
  simp [apply, h]

theorem apply_unknown_of_get?_eq_none {s : Substitution} {u : Unknown} (h : s.get? u = none) :
    s.apply (.unknown u) = .unknown u := by
  simp [apply, h]

@[simp]
theorem apply_empty (term : Term) : Substitution.empty.apply term = term := by
  rw [apply_eq_value]
  exact Assignment.value_id term

theorem apply_eq_self {s : Substitution} {term : Term}
    (h : ∀ u ∈ term.occurrences, s.get? u = none) : s.apply term = term := by
  rw [apply_eq_value]
  refine (Assignment.value_eq_value_iff.mpr fun u hu => ?_).trans (Assignment.value_id term)
  simp [toAssignment, h u hu]

theorem mem_of_get?_eq_some {made : List Binding} {u : Unknown} {term : Term}
    (h : (ofList made).get? u = some term) : (u, term) ∈ made :=
  Entries.mem_of_mem_ofList (Entries.mem_of_get?_eq_some h)

/-- An assignment that meets the bindings sees no difference between a term and the term after a pass. -/
theorem value_apply_of_meets {θ : Assignment} {made : List Binding} (h : θ.Meets made)
    (term : Term) : θ.value ((ofList made).apply term) = θ.value term := by
  rw [apply_eq_value, ← Assignment.value_comp, Assignment.value_eq_value_iff]
  intro u _
  unfold Assignment.comp toAssignment
  cases hu : (ofList made).get? u with
  | none => simp
  | some bound => exact (h (u, bound) (mem_of_get?_eq_some hu)).symm

end Substitution

end BuilderFields
