import BuilderFields.Proofs.Term.Completeness
import BuilderFields.Proofs.Term.Cycle

/-!
# What keeps a term from coming to rest

A substitution resolves every term exactly when no unknown is mentioned, through its bindings, by itself: a way
through the bindings that never comes back to an unknown is no longer than there are bindings, and a way that does
come back goes on for ever. In what the search returns for a pair with a common instance, a way back cannot lead
into a sequence, since the value of a sequence is larger than the value of any part of it. So the only cycles that
such a pair can be given are rings of unknowns, each bound to the next. They are spurious: what is on a ring has
one value in every common instance.
-/

namespace BuilderFields

open Relation Substitution

/-- No unknown is bound to itself. -/
theorem Run.ne_self {pairs : List (Term × Term)} {made : List Binding} (run : Run pairs made) :
    ∀ binding ∈ made, binding.2 ≠ .unknown binding.1 := by
  induction run with
  | nil => simp
  | sameUnknown later ih => exact ih
  | sameAtom later ih => exact ih
  | bindLeft hne later ih => exact List.forall_mem_cons.mpr ⟨hne, ih⟩
  | bindRight hleft later ih => exact List.forall_mem_cons.mpr ⟨hleft _, ih⟩
  | descend hlength within later ihWithin ihLater =>
      exact List.forall_mem_append.mpr ⟨ihWithin, ihLater⟩

namespace Assignment

variable {θ : Assignment} {u : Unknown} {term : Term}

/-- The value of an unknown is no larger than that of a term it occurs in. -/
theorem size_le_of_mem_occurrences (hu : u ∈ term.occurrences) :
    (θ u).size ≤ (θ.value term).size := by
  induction term using Term.inductionOn with
  | atom a => simp at hu
  | unknown v => simp_all
  | seq items ih =>
      rw [Term.occurrences_seq] at hu
      obtain ⟨item, hitem, hu⟩ := List.mem_flatMap.mp hu
      have hlt := Term.size_lt_of_mem (List.mem_map_of_mem (f := θ.value) hitem)
      rw [value_seq]
      exact (ih item hitem hu).trans hlt.le

/-- Only a term that is the unknown itself can have the size of its value. -/
theorem eq_unknown_of_size_le (hu : u ∈ term.occurrences)
    (hsize : (θ.value term).size ≤ (θ u).size) : term = .unknown u := by
  cases term with
  | atom a => simp at hu
  | unknown v => simp_all
  | seq items =>
      rw [Term.occurrences_seq] at hu
      obtain ⟨item, hitem, hu⟩ := List.mem_flatMap.mp hu
      have hle : (θ u).size ≤ (θ.value item).size := size_le_of_mem_occurrences hu
      have hlt := Term.size_lt_of_mem (List.mem_map_of_mem (f := θ.value) hitem)
      rw [value_seq] at hsize
      omega

end Assignment

namespace Substitution

variable {s : Substitution} {u v : Unknown} {term : Term}

def Mentions (s : Substitution) (u v : Unknown) : Prop :=
  ∃ term, s.get? u = some term ∧ v ∈ term.occurrences

def Leads (s : Substitution) (u v : Unknown) : Prop :=
  s.get? u = some (.unknown v)

def Acyclic (s : Substitution) : Prop :=
  ∀ u, ¬ TransGen s.Mentions u u

/-- Some unknown leads back to itself over unknowns only. -/
def HasRing (s : Substitution) : Prop :=
  ∃ u, TransGen s.Leads u u

theorem Leads.mentions (h : s.Leads u v) : s.Mentions u v :=
  ⟨.unknown v, h, by simp⟩

theorem Moves.mentions (h : s.Moves u v) : s.Mentions u v := by
  obtain ⟨term, hterm, -, hv⟩ := h
  exact ⟨term, hterm, hv⟩

/-- Without cycles every term is resolved. -/
theorem Acyclic.resolves (h : s.Acyclic) (term : Term) : s.Resolves term := by
  refine resolves_iff_not_leadsToCycle.mpr ?_
  rintro ⟨_, -, v, -, hback⟩
  exact h v (TransGen.mono (fun _ _ => Moves.mentions) v v hback)

/-- If every term is resolved and no unknown is bound to itself, there are no cycles. -/
theorem acyclic_of_resolves (hself : ∀ u, s.get? u ≠ some (.unknown u))
    (h : ∀ term, s.Resolves term) : s.Acyclic := by
  have hmoves : ∀ u v, s.Mentions u v → s.Moves u v := by
    rintro u v ⟨term, hterm, hv⟩
    exact ⟨term, hterm, fun heq => hself u (heq ▸ hterm), hv⟩
  intro u hback
  refine resolves_iff_not_leadsToCycle.mp (h (.unknown u)) ?_
  exact ⟨u, by simp, u, .refl, TransGen.mono hmoves u u hback⟩

/-! ### Where a common instance leaves room for a cycle -/

section Instance

variable {θ : Assignment}

/-- A way through the bindings leads to smaller values, and to one of the same size only over unknowns. -/
theorem size_le_of_transGen_mentions (hθ : ∀ u term, s.get? u = some term → θ u = θ.value term)
    (h : TransGen s.Mentions u v) :
    (θ v).size ≤ (θ u).size ∧ ((θ u).size ≤ (θ v).size → TransGen s.Leads u v) := by
  have hstep : ∀ {u v}, s.Mentions u v →
      (θ v).size ≤ (θ u).size ∧ ((θ u).size ≤ (θ v).size → s.Leads u v) := by
    rintro u v ⟨term, hterm, hv⟩
    rw [hθ u term hterm]
    refine ⟨Assignment.size_le_of_mem_occurrences hv, fun hsize => ?_⟩
    rw [Leads, hterm, Assignment.eq_unknown_of_size_le hv hsize]
  induction h with
  | single hmentions => exact ⟨(hstep hmentions).1, fun hsize => .single ((hstep hmentions).2 hsize)⟩
  | tail _ hmentions ih =>
      obtain ⟨hle, hleads⟩ := hstep hmentions
      refine ⟨hle.trans ih.1, fun hsize => .tail (ih.2 (hsize.trans hle)) (hleads ?_)⟩
      exact ih.1.trans hsize

/-- Where the bindings have a common instance, the only cycles are rings of unknowns. -/
theorem acyclic_iff_not_hasRing
    (hθ : ∀ u term, s.get? u = some term → θ u = θ.value term) : s.Acyclic ↔ ¬ s.HasRing := by
  constructor
  · rintro h ⟨u, hring⟩
    exact h u (TransGen.mono (fun _ _ => Leads.mentions) u u hring)
  · intro h u hback
    exact h ⟨u, (size_le_of_transGen_mentions hθ hback).2 (Nat.le_refl _)⟩

/-- Along a way over unknowns the value stays the same. -/
theorem eq_of_transGen_leads (hθ : ∀ u term, s.get? u = some term → θ u = θ.value term)
    (h : TransGen s.Leads u v) : θ u = θ v := by
  induction h with
  | single hleads => simpa using hθ _ _ hleads
  | tail _ hleads ih => exact ih.trans (by simpa using hθ _ _ hleads)

end Instance

end Substitution

namespace Term

/-- **What keeps a term from coming to rest.** The substitution that a pair with a common instance gets resolves
every term exactly when it has no ring, and a ring only joins what is the same in every common instance. -/
theorem forall_resolves_iff_not_hasRing {left right : Term}
    (h : ∃ θ : Assignment, θ.Unifies left right) :
    ∃ s, left.unify right = .ok s ∧ ((∀ term, s.Resolves term) ↔ ¬ s.HasRing) ∧
      ∀ θ : Assignment, θ.Unifies left right → ∀ u v, TransGen s.Leads u v → θ u = θ v := by
  obtain ⟨θ, hθ⟩ := h
  obtain ⟨s, hs⟩ := exists_unify_eq_ok hθ
  have hagrees : ∀ θ : Assignment, θ.Unifies left right →
      ∀ u term, s.get? u = some term → θ u = θ.value term :=
    fun θ hθ u term hu => value_eq_of_get?_eq_some hs hu hθ
  have hself : ∀ u, s.get? u ≠ some (.unknown u) := by
    obtain ⟨made, run, rfl⟩ := run_of_unify hs
    exact fun u hu => run.ne_self _ (mem_of_get?_eq_some hu) rfl
  refine ⟨s, hs, ?_, fun θ hθ u v => eq_of_transGen_leads (hagrees θ hθ)⟩
  rw [← acyclic_iff_not_hasRing (hagrees θ hθ)]
  exact ⟨acyclic_of_resolves hself, fun hacyclic => hacyclic.resolves⟩

end Term

/-! ### `[[x, y], z]` and `[[y, z], x]`, and the same with `[y, z]` and `a`

The inner sequences bind `x` to `y` and `y` to `z` on both pairs. On the first one a single pass turns the outer `x`
into `y`, and `z` is bound to it: the ring of `y` and `z` is closed. On the second one `z` is bound to `a`. -/

namespace Circling

def x : Unknown := ⟨0, 0, "x"⟩

def y : Unknown := ⟨0, 1, "y"⟩

def z : Unknown := ⟨0, 2, "z"⟩

def a : Term := .atom ⟨0, 0, "a"⟩

def chain : Term := .seq [.unknown x, .unknown y]

def shifted : Term := .seq [.unknown y, .unknown z]

def closed : Substitution := ofList [(x, .unknown y), (y, .unknown z), (z, .unknown y)]

def ended : Substitution := ofList [(x, .unknown y), (y, .unknown z), (z, a)]

theorem unify_closed :
    (Term.seq [chain, .unknown z]).unify (.seq [shifted, .unknown x]) = .ok closed := by
  with_unfolding_all rfl

theorem unify_ended : (Term.seq [chain, .unknown z]).unify (.seq [shifted, a]) = .ok ended := by
  with_unfolding_all rfl

theorem not_resolves_closed :
    (∃ θ : Assignment, θ.Unifies (.seq [chain, .unknown z]) (.seq [shifted, .unknown x])) ∧
      (Term.seq [chain, .unknown z]).unify (.seq [shifted, .unknown x]) = .ok closed ∧
      closed.resolve (.unknown x) = .error ⟨.unknown x, 4⟩ :=
  ⟨⟨fun _ => a, rfl⟩, unify_closed, rfl⟩

/-- Each unknown leads to a later one only. -/
theorem not_hasRing_ended : ¬ ended.HasRing := by
  have hstep : ∀ u v, ended.Leads u v → u.handle < v.handle := by
    intro u v hleads
    have hmem := mem_of_get?_eq_some hleads
    simp only [List.mem_cons, Prod.mk.injEq, List.not_mem_nil, or_false, a, reduceCtorEq, and_false,
      Term.unknown.injEq] at hmem
    rcases hmem with ⟨rfl, rfl⟩ | ⟨rfl, rfl⟩ <;> decide
  rintro ⟨u, hring⟩
  have hlt : TransGen (· < ·) u.handle u.handle := TransGen.lift _ hstep u u hring
  rw [transGen_eq_self] at hlt
  exact Int.lt_irrefl _ hlt

theorem forall_resolves_ended :
    (∃ θ : Assignment, θ.Unifies (.seq [chain, .unknown z]) (.seq [shifted, a])) ∧
      (Term.seq [chain, .unknown z]).unify (.seq [shifted, a]) = .ok ended ∧
      ∀ term, ended.Resolves term := by
  have hunifies : ∃ θ : Assignment, θ.Unifies (.seq [chain, .unknown z]) (.seq [shifted, a]) :=
    ⟨fun _ => a, rfl⟩
  obtain ⟨s, hs, hresolves, -⟩ := Term.forall_resolves_iff_not_hasRing hunifies
  obtain rfl : s = ended := Except.ok.inj (hs.symm.trans unify_ended)
  exact ⟨hunifies, unify_ended, hresolves.mpr not_hasRing_ended⟩

end Circling

end BuilderFields
