import BuilderFields.Proofs.Term.Resolve
import BuilderFields.Proofs.Term.Run

/-!
# When resolving unifies

The search returns the last binding of every unknown. An earlier one is overwritten when a pass of chained
bindings leaves a bound unknown in a later pair, and nothing afterwards checks what was overwritten: both sides
may then resolve, to different terms. The exact condition is that every overwritten binding still holds in what is
returned. The bindings that are kept always do.
-/

namespace BuilderFields

open Substitution

/-- Resolving keeps what a pass keeps. -/
theorem Closed.resolve {C : Term → Prop} {made : List Binding} {term settled : Term}
    (hC : Closed C) (hmade : ∀ binding ∈ made, C binding.2) (hterm : C term)
    (h : (ofList made).resolve term = .ok settled) : C settled := by
  obtain ⟨rfl, -⟩ := resolve_eq_ok_iff.mp h
  have hpasses : ∀ passes, C ((ofList made).apply^[passes] term) := by
    intro passes
    induction passes with
    | zero => exact hterm
    | succ passes ih =>
        rw [Function.iterate_succ_apply']
        exact hC.apply hmade ih
  exact hpasses _

/-- The bindings that the table of all of them no longer holds. -/
def overwritten (made : List Binding) : List Binding :=
  made.filter fun binding => (ofList made).get? binding.1 ≠ some binding.2

/-- The overwritten bindings are the ones that a look-up no longer gives. -/
theorem mem_overwritten {made : List Binding} {binding : Binding} :
    binding ∈ overwritten made ↔
      binding ∈ made ∧ (ofList made).get? binding.1 ≠ some binding.2 := by
  simp [overwritten]

namespace Substitution

variable {s : Substitution} {bindings made : List Binding}

/-- Both sides of each binding resolve, and to the same term. -/
def Honours (s : Substitution) (bindings : List Binding) : Prop :=
  ∀ binding ∈ bindings, ∃ settled,
    s.resolve (.unknown binding.1) = .ok settled ∧ s.resolve binding.2 = .ok settled

theorem closed_resolves (s : Substitution) : Closed s.Resolves where
  item := by
    intro items item hitems hitem
    rw [resolves_iff_forall_occurrences] at hitems ⊢
    intro u hu
    rw [Term.occurrences_seq] at hitems
    exact hitems u (List.mem_flatMap.mpr ⟨item, hitem, hu⟩)
  exchange := by
    intro items others _ _ hothers
    rw [resolves_iff_forall_occurrences, Term.occurrences_seq]
    intro u hu
    obtain ⟨other, hother, hu⟩ := List.mem_flatMap.mp hu
    exact resolves_iff_forall_occurrences.mp (hothers other hother) u hu

/-- A substitution that honours the bindings meets them in the limit. -/
theorem Honours.limit_meets (h : s.Honours bindings) : s.limit.Meets bindings := by
  intro binding hbinding
  obtain ⟨settled, hleft, hright⟩ := h binding hbinding
  rw [limit_value_of_resolve hright, ← limit_value_of_resolve hleft, Assignment.value_unknown]

def filled (s : Substitution) (filler : Term) : Assignment :=
  Assignment.comp (fun _ => filler) s.limit

theorem isGround_filled {filler : Term} (h : filler.isGround) : (s.filled filler).IsGround :=
  fun u => Assignment.isGround_value (fun _ => h) (s.limit u)

theorem Honours.filled_meets (h : s.Honours bindings) (filler : Term) :
    (s.filled filler).Meets bindings := by
  intro binding hbinding
  have hlimit := h.limit_meets binding hbinding
  rw [filled, Assignment.value_comp, Assignment.comp, hlimit]

/-- A run whose bindings are honoured leaves no unknown on a cycle. -/
theorem Honours.resolves (h : (ofList made).Honours made) (u : Unknown) :
    (ofList made).Resolves (.unknown u) := by
  cases hu : (ofList made).get? u with
  | none => exact ⟨_, resolve_unknown_of_get?_eq_none hu⟩
  | some bound =>
      obtain ⟨settled, hsettled, -⟩ := h (u, bound) (mem_of_get?_eq_some hu)
      exact ⟨settled, hsettled⟩

theorem filled_of_mem_occurrences {term settled : Term} (h : s.resolve term = .ok settled)
    {u : Unknown} (hu : u ∈ settled.occurrences) (filler : Term) : s.filled filler u = filler := by
  rw [filled, Assignment.comp, limit_of_mem_occurrences h hu, Assignment.value_unknown]

/-- Where the bindings resolve, honouring them is meeting them in the limit. -/
theorem honours_iff_limit_meets
    (hresolves : ∀ binding ∈ bindings, s.Resolves (.unknown binding.1) ∧ s.Resolves binding.2) :
    s.Honours bindings ↔ s.limit.Meets bindings := by
  refine ⟨Honours.limit_meets, fun hmeets binding hbinding => ?_⟩
  obtain ⟨⟨left, hleft⟩, ⟨right, hright⟩⟩ := hresolves binding hbinding
  have hvalue := hmeets binding hbinding
  rw [← Assignment.value_unknown s.limit, limit_value_of_resolve hleft,
    limit_value_of_resolve hright] at hvalue
  exact ⟨left, hleft, hvalue ▸ hright⟩

/-- A binding that is still there holds, once the unknown resolves. -/
theorem resolve_eq_of_get?_eq_some {u : Unknown} {term settled : Term} (h : s.get? u = some term)
    (hu : s.resolve (.unknown u) = .ok settled) : s.resolve term = .ok settled := by
  obtain ⟨hiterate, hrest⟩ := resolve_eq_ok_iff.mp hu
  refine resolve_eq_ok_iff.mpr ⟨?_, hrest⟩
  rw [← apply_unknown_of_get?_eq_some h, ← Function.iterate_succ_apply,
    Function.iterate_succ_apply', hiterate, hrest]

/-- It is enough to honour what was overwritten: the bindings that were kept are honoured anyway. -/
theorem honours_overwritten_iff
    (hresolves : ∀ binding ∈ made, (ofList made).Resolves (.unknown binding.1)) :
    (ofList made).Honours (overwritten made) ↔ (ofList made).Honours made := by
  constructor
  · intro h binding hbinding
    by_cases hkept : (ofList made).get? binding.1 = some binding.2
    · obtain ⟨settled, hsettled⟩ := hresolves binding hbinding
      exact ⟨settled, hsettled, resolve_eq_of_get?_eq_some hkept hsettled⟩
    · exact h binding (mem_overwritten.mpr ⟨hbinding, hkept⟩)
  · intro h binding hbinding
    exact h binding (mem_overwritten.mp hbinding).1

end Substitution

namespace Term

variable {left right : Term} {s : Substitution} {made : List Binding}

/-- If both sides resolve, so does everything that was bound on the way. -/
theorem resolves_bindings (run : Run [(left, right)] made) (hleft : s.Resolves left)
    (hright : s.Resolves right) :
    ∀ binding ∈ made, s.Resolves (.unknown binding.1) ∧ s.Resolves binding.2 :=
  s.closed_resolves.bindings run (by simpa using ⟨hleft, hright⟩)

/-- **When resolving unifies.** However deep the search may go, the two sides resolve to one term exactly when every
binding that was overwritten on the way holds in the substitution returned. -/
theorem resolve_eq_iff_honours_overwritten {depth : Nat} {settled settled' : Term}
    (hunify : unifyWithin depth left right = .ok s) (hleft : s.resolve left = .ok settled)
    (hright : s.resolve right = .ok settled') :
    ∃ made, Run [(left, right)] made ∧ s = ofList made ∧
      (settled = settled' ↔ s.Honours (overwritten made)) := by
  obtain ⟨made, run, rfl⟩ := run_of_unifyWithin hunify
  have hresolves := resolves_bindings run ⟨settled, hleft⟩ ⟨settled', hright⟩
  refine ⟨made, run, rfl, ?_⟩
  calc settled = settled' ↔ (ofList made).limit.Unifies left right := by
        rw [Assignment.Unifies, limit_value_of_resolve hleft, limit_value_of_resolve hright]
    _ ↔ (ofList made).limit.Meets made := (run.meets_pair_iff _).symm
    _ ↔ (ofList made).Honours made := (honours_iff_limit_meets hresolves).symm
    _ ↔ (ofList made).Honours (overwritten made) :=
        (honours_overwritten_iff fun binding hbinding => (hresolves binding hbinding).1).symm

end Term

/-! ### A binding that is lost, and one that is made good

On `[[x, y], x]` and `[[y, a], b]` the inner sequences bind `x` to `y` and then `y` to `a`. A single pass turns the
outer `x` into `y`, so `y` is bound once more, to `b`, and `a` is forgotten. On `[[x, y], x, z]` and `[[y, z], a, a]`
the binding of `y` to `z` is overwritten just so, but `z` comes to be `a` as well. -/

namespace Overwriting

def x : Unknown := ⟨0, 0, "x"⟩

def y : Unknown := ⟨0, 1, "y"⟩

def z : Unknown := ⟨0, 2, "z"⟩

def a : Term := .atom ⟨1, 0, "a"⟩

def b : Term := .atom ⟨1, 1, "b"⟩

def lostLeft : Term := .seq [.seq [.unknown x, .unknown y], .unknown x]

def lostRight : Term := .seq [.seq [.unknown y, a], b]

def lost : Substitution := ofList [(x, .unknown y), (y, a), (y, b)]

theorem resolve_sides_ne :
    lostLeft.unify lostRight = .ok lost ∧
      lost.resolve lostLeft = .ok (.seq [.seq [b, b], b]) ∧
      lost.resolve lostRight = .ok (.seq [.seq [b, a], b]) ∧
      Term.seq [.seq [b, b], b] ≠ .seq [.seq [b, a], b] := by
  refine ⟨?_, rfl, rfl, by decide⟩
  with_unfolding_all rfl

def keptLeft : Term := .seq [.seq [.unknown x, .unknown y], .unknown x, .unknown z]

def keptRight : Term := .seq [.seq [.unknown y, .unknown z], a, a]

def kept : Substitution := ofList [(x, .unknown y), (y, .unknown z), (y, a), (z, a)]

theorem honours_overwritten_kept :
    keptLeft.unify keptRight = .ok kept ∧
      kept.resolve keptLeft = .ok (.seq [.seq [a, a], a, a]) ∧
      kept.resolve keptRight = .ok (.seq [.seq [a, a], a, a]) ∧
      ∃ made, Run [(keptLeft, keptRight)] made ∧ kept = ofList made ∧
        kept.Honours (overwritten made) := by
  have hunify : keptLeft.unify keptRight = .ok kept := by
    with_unfolding_all rfl
  have hleft : kept.resolve keptLeft = .ok (.seq [.seq [a, a], a, a]) := rfl
  have hright : kept.resolve keptRight = .ok (.seq [.seq [a, a], a, a]) := rfl
  obtain ⟨made, run, hmade, hiff⟩ := Term.resolve_eq_iff_honours_overwritten hunify hleft hright
  exact ⟨hunify, hleft, hright, made, run, hmade, hiff.mp rfl⟩

end Overwriting

end BuilderFields
