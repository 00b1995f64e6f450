import BuilderFields.Proofs.Term.Resolve
import Mathlib.Data.List.Chain
import Mathlib.Data.List.Perm.Subperm
import Mathlib.Logic.Relation

/-!
# The limit of passes

A term is at rest when each of its unknowns is bound to nothing or to itself. A way through the bindings that never
comes back to an unknown is no longer than there are bindings, and one that does come back goes on for ever. So a term
comes to rest at all exactly when it does so within as many passes as there are bindings, and exactly when no way from
one of its unknowns leads into a cycle; the one pass more that resolving makes is there to notice it. The limit cannot
be lowered: a chain of bindings needs all its passes.
-/

namespace BuilderFields

open Relation

namespace Substitution

variable {s : Substitution} {u v : Unknown} {term settled : Term}

def Rests (s : Substitution) (u : Unknown) : Prop :=
  s.get? u = none ∨ s.get? u = some (.unknown u)

/-- The first unknown is bound to a term other than itself, in which the second one occurs. -/
def Moves (s : Substitution) (u v : Unknown) : Prop :=
  ∃ term, s.get? u = some term ∧ term ≠ .unknown u ∧ v ∈ term.occurrences

/-- From an unknown of the term the bindings lead to one that they lead back to. -/
def LeadsToCycle (s : Substitution) (term : Term) : Prop :=
  ∃ u ∈ term.occurrences, ∃ v, ReflTransGen s.Moves u v ∧ TransGen s.Moves v v

/-- An unknown rests exactly if a pass leaves it alone. -/
theorem rests_iff_apply : s.Rests u ↔ s.apply (.unknown u) = .unknown u := by
  unfold Rests
  cases hu : s.get? u with
  | none => simp [apply_unknown_of_get?_eq_none hu]
  | some term => simp [apply_unknown_of_get?_eq_some hu]

/-- A pass leaves a term as it is when all its unknowns rest. -/
theorem apply_eq_self_iff : s.apply term = term ↔ ∀ u ∈ term.occurrences, s.Rests u := by
  calc s.apply term = term
      ↔ s.toAssignment.value term = Assignment.value (fun u => .unknown u) term := by
        rw [apply_eq_value, Assignment.value_id]
    _ ↔ ∀ u ∈ term.occurrences, s.Rests u := by
        rw [Assignment.value_eq_value_iff]
        simp only [rests_iff_apply, apply_eq_value, Assignment.value_unknown]

theorem exists_of_not_rests (h : ¬ s.Rests u) :
    ∃ term, s.get? u = some term ∧ term ≠ .unknown u := by
  obtain ⟨hbound, hself⟩ := not_or.mp h
  obtain ⟨term, hterm⟩ := Option.ne_none_iff_exists'.mp hbound
  exact ⟨term, hterm, fun heq => hself (heq ▸ hterm)⟩

theorem Moves.not_rests (h : s.Moves u v) : ¬ s.Rests u := by
  obtain ⟨term, hterm, hne, -⟩ := h
  rintro (hnone | hself)
  · simp [hterm] at hnone
  · exact hne (Option.some.inj (hterm.symm.trans hself))

theorem mem_keys_of_get?_eq_some (h : s.get? u = some term) : u ∈ s.bindings.keys :=
  List.mem_map_of_mem (f := Prod.fst) (Entries.mem_of_get?_eq_some h)

/-- What occurs after some passes comes from an unknown that occurred before them. -/
theorem mem_occurrences_iterate {passes : Nat} :
    v ∈ (s.apply^[passes] term).occurrences ↔
      ∃ u ∈ term.occurrences, v ∈ (s.apply^[passes] (.unknown u)).occurrences := by
  rw [iterate_apply_eq_value, Assignment.occurrences_value, List.mem_flatMap]

/-! ### A way that does not come back ends -/

/-- What still moves after so many passes is at the end of a way of that length. -/
theorem exists_isChain {passes : Nat} (hv : v ∈ (s.apply^[passes] (.unknown u)).occurrences)
    (hmoves : ¬ s.Rests v) :
    ∃ way : List Unknown, way.length = passes ∧ (u :: way).IsChain s.Moves ∧
      ∀ w ∈ u :: way, w ∈ s.bindings.keys := by
  induction passes generalizing u with
  | zero =>
      obtain rfl : v = u := by simpa using hv
      obtain ⟨term, hterm, -⟩ := exists_of_not_rests hmoves
      exact ⟨[], rfl, .singleton _, by simpa using mem_keys_of_get?_eq_some hterm⟩
  | succ passes ih =>
      rw [Function.iterate_succ_apply] at hv
      by_cases hu : s.Rests u
      · have hrest := rests_iff_apply.mp hu
        rw [hrest, Function.iterate_fixed hrest] at hv
        obtain rfl : v = u := by simpa using hv
        exact absurd hu hmoves
      · obtain ⟨term, hterm, hne⟩ := exists_of_not_rests hu
        rw [apply_unknown_of_get?_eq_some hterm, mem_occurrences_iterate] at hv
        obtain ⟨w, hw, hv⟩ := hv
        obtain ⟨way, hlength, hchain, hkeys⟩ := ih hv
        refine ⟨w :: way, by simp [hlength], .cons_cons ⟨term, hterm, hne, hw⟩ hchain, ?_⟩
        exact List.forall_mem_cons.mpr ⟨mem_keys_of_get?_eq_some hterm, hkeys⟩

/-- A way on which an unknown is met twice leads into a cycle. -/
theorem nodup_of_not_leadsToCycle (h : ¬ s.LeadsToCycle (.unknown u)) {way : List Unknown}
    (hway : (u :: way).IsChain s.Moves) : (u :: way).Nodup := by
  have hpairwise : (u :: way).Pairwise (TransGen s.Moves) :=
    List.isChain_iff_pairwise.mp (hway.imp fun _ _ => TransGen.single)
  have hreached : ∀ v ∈ u :: way, ReflTransGen s.Moves u v := by
    intro v hv
    rcases List.mem_cons.mp hv with rfl | hv
    · exact .refl
    · exact (List.rel_of_pairwise_cons hpairwise hv).to_reflTransGen
  refine hpairwise.imp_of_mem fun {v w} hv _ hvw => ?_
  rintro rfl
  exact h ⟨u, by simp, v, hreached v hv, hvw⟩

/-- Off the cycles, one pass for each binding is enough: another one changes nothing. -/
theorem apply_iterate_size (h : ¬ s.LeadsToCycle term) :
    s.apply (s.apply^[s.size] term) = s.apply^[s.size] term := by
  refine apply_eq_self_iff.mpr fun v hv => ?_
  obtain ⟨u, hu, hv⟩ := mem_occurrences_iterate.mp hv
  by_contra hmoves
  obtain ⟨way, hlength, hchain, hkeys⟩ := exists_isChain hv hmoves
  have hcycle : ¬ s.LeadsToCycle (.unknown u) := by
    rintro ⟨w, hw, hrest⟩
    obtain rfl : w = u := by simpa using hw
    exact h ⟨w, hu, hrest⟩
  -- All on the way are bound, and there are more of them than bindings.
  have hle : (u :: way).length ≤ s.bindings.keys.length :=
    (List.subperm_of_subset (nodup_of_not_leadsToCycle hcycle hchain) hkeys).length_le
  rw [List.length_cons, hlength, Entries.keys, List.length_map] at hle
  exact Nat.not_succ_le_self _ hle

/-! ### A way that comes back does not -/

/-- A term that leads to a cycle is changed by every pass. -/
theorem LeadsToCycle.apply_ne_self (h : s.LeadsToCycle term) : s.apply term ≠ term := by
  obtain ⟨u, hu, v, huv, hv⟩ := h
  obtain ⟨w, hstep, -⟩ := TransGen.head'_iff.mp (TransGen.trans_right huv hv)
  exact fun hrest => hstep.not_rests (apply_eq_self_iff.mp hrest u hu)

/-- A pass does not lead away from a cycle. -/
theorem LeadsToCycle.apply (h : s.LeadsToCycle term) : s.LeadsToCycle (s.apply term) := by
  obtain ⟨u, hu, v, huv, hv⟩ := h
  obtain ⟨w, ⟨bound, hbound, -, hw⟩, hwv⟩ := TransGen.head'_iff.mp (TransGen.trans_right huv hv)
  refine ⟨w, ?_, v, hwv, hv⟩
  rw [apply_eq_value, Assignment.occurrences_value]
  refine List.mem_flatMap.mpr ⟨u, hu, ?_⟩
  simpa [toAssignment, hbound] using hw

theorem LeadsToCycle.iterate (h : s.LeadsToCycle term) (passes : Nat) :
    s.LeadsToCycle (s.apply^[passes] term) := by
  induction passes with
  | zero => exact h
  | succ passes ih =>
      rw [Function.iterate_succ_apply']
      exact ih.apply

/-! ### The limit is exact -/

/-- Exactly the terms that lead to no cycle are resolved. -/
theorem resolves_iff_not_leadsToCycle : s.Resolves term ↔ ¬ s.LeadsToCycle term := by
  constructor
  · rintro ⟨settled, h⟩ hcycle
    obtain ⟨rfl, hrest⟩ := resolve_eq_ok_iff.mp h
    exact (hcycle.iterate _).apply_ne_self hrest
  · intro h
    exact ⟨_, resolve_eq_ok_iff.mpr ⟨rfl, apply_iterate_size h⟩⟩

/-- All passes from a fixed point on give that fixed point. -/
theorem eq_of_apply_eq_self {passes more : Nat} (h : s.apply^[passes] term = settled)
    (hrest : s.apply settled = settled) (hmore : s.apply (s.apply^[more] term) = s.apply^[more] term) :
    s.apply^[more] term = settled := by
  calc s.apply^[more] term
      = s.apply^[passes + more] term := by
        rw [Function.iterate_add_apply, Function.iterate_fixed hmore]
    _ = settled := by
        rw [Nat.add_comm, Function.iterate_add_apply, h, Function.iterate_fixed hrest]

/-- A term resolves to the fixed point that any number of passes comes to. -/
theorem resolve_eq_ok_iff_exists :
    s.resolve term = .ok settled ↔
      ∃ passes, s.apply^[passes] term = settled ∧ s.apply settled = settled := by
  constructor
  · intro h
    exact ⟨s.size, resolve_eq_ok_iff.mp h⟩
  · rintro ⟨passes, h, hrest⟩
    have hcycle : ¬ s.LeadsToCycle term := by
      intro hcycle
      subst h
      exact (hcycle.iterate passes).apply_ne_self hrest
    have hsize := eq_of_apply_eq_self h hrest (apply_iterate_size hcycle)
    exact resolve_eq_ok_iff.mpr ⟨hsize, hrest⟩

theorem resolve_eq_error_iff_not_resolves :
    s.resolve term = .error ⟨term, s.size + 1⟩ ↔ ¬ s.Resolves term := by
  unfold Resolves resolve passLimit
  cases s.settle (s.size + 1) term <;> simp

/-- **The limit of passes is exact.** A term resolves to the fixed point that some number of passes comes to, in which
every unknown rests and which resolves to itself. If no number of passes comes to one the limit is reported, and that
is when the bindings lead from the term into a cycle. -/
theorem resolve_stops_iff_exists_fixed (s : Substitution) (term : Term) :
    (∀ settled, s.resolve term = .ok settled ↔
      ∃ passes, s.apply^[passes] term = settled ∧ s.apply settled = settled) ∧
    (∀ settled, s.resolve term = .ok settled →
      (∀ u ∈ settled.occurrences, s.get? u = none ∨ s.get? u = some (.unknown u)) ∧
        s.resolve settled = .ok settled) ∧
    (s.resolve term = .error ⟨term, s.size + 1⟩ ↔
      ¬ ∃ passes, s.apply (s.apply^[passes] term) = s.apply^[passes] term) ∧
    (s.resolve term = .error ⟨term, s.size + 1⟩ ↔ s.LeadsToCycle term) := by
  refine ⟨fun settled => resolve_eq_ok_iff_exists, ?_, ?_, ?_⟩
  · intro settled h
    have hrest := (resolve_eq_ok_iff.mp h).2
    exact ⟨apply_eq_self_iff.mp hrest, resolve_eq_ok_iff_exists.mpr ⟨0, rfl, hrest⟩⟩
  · rw [resolve_eq_error_iff_not_resolves]
    simp [Resolves, resolve_eq_ok_iff_exists]
  · rw [resolve_eq_error_iff_not_resolves, resolves_iff_not_leadsToCycle, not_not]

/-! ### An unknown bound to itself, behind another one, and one bound to a sequence that holds it -/

namespace Looping

def x : Unknown := ⟨0, 0, "x"⟩

def y : Unknown := ⟨0, 1, "y"⟩

def z : Unknown := ⟨0, 2, "z"⟩

def looping : Substitution :=
  ofList [(x, .unknown y), (y, .unknown y), (z, .seq [.unknown z, .unknown x])]

theorem resolve_stops_looping :
    looping.resolve (.seq [.unknown x]) = .ok (.seq [.unknown y]) ∧
      looping.resolve (.seq [.unknown y]) = .ok (.seq [.unknown y]) ∧
      looping.LeadsToCycle (.unknown z) ∧
      looping.resolve (.unknown z) = .error ⟨.unknown z, 4⟩ := by
  obtain ⟨hfixed, hagain, -, -⟩ := resolve_stops_iff_exists_fixed looping (.seq [.unknown x])
  obtain ⟨-, -, -, hcycle⟩ := resolve_stops_iff_exists_fixed looping (.unknown z)
  have hresolve := (hfixed (.seq [.unknown y])).mpr ⟨1, rfl, rfl⟩
  exact ⟨hresolve, (hagain _ hresolve).2, hcycle.mp rfl, rfl⟩

end Looping

/-! ### A chain, which needs all its passes -/

def numbered (n : Nat) : Unknown := ⟨0, n, ""⟩

theorem numbered_injective : Function.Injective numbered := by
  intro n m h
  have hhandle : (n : Int) = m := congrArg Unknown.handle h
  exact Int.ofNat_inj.mp hhandle

def chain (length : Nat) : Substitution where
  bindings := (List.range length).map fun n => (numbered n, .unknown (numbered (n + 1)))
  nodup := by
    rw [Entries.keys, List.map_map]
    exact List.nodup_range.map numbered_injective

theorem size_chain (length : Nat) : (chain length).size = length := by
  simp [size, chain]

theorem get?_chain_of_lt {length n : Nat} (h : n < length) :
    (chain length).get? (numbered n) = some (.unknown (numbered (n + 1))) := by
  have hnodup := (chain length).nodup
  have hmem : (numbered n, Term.unknown (numbered (n + 1))) ∈ (chain length).bindings :=
    List.mem_map_of_mem (List.mem_range.mpr h)
  have hfound := Entries.get?_ofList_of_mem hnodup hmem
  rwa [Entries.ofList_eq_self hnodup] at hfound

/-- Each pass moves one link along the chain. -/
theorem iterate_chain {length passes : Nat} (h : passes ≤ length) :
    (chain length).apply^[passes] (.unknown (numbered 0)) = .unknown (numbered passes) := by
  induction passes with
  | zero => rfl
  | succ passes ih =>
      rw [Function.iterate_succ_apply', ih (Nat.le_of_succ_le h)]
      exact apply_unknown_of_get?_eq_some (get?_chain_of_lt h)

theorem get?_chain_self (length : Nat) : (chain length).get? (numbered length) = none := by
  refine Entries.get?_eq_none_iff.mpr fun hmem => ?_
  obtain ⟨_, hbinding, heq⟩ := List.mem_map.mp hmem
  obtain ⟨n, hn, rfl⟩ := List.mem_map.mp hbinding
  obtain rfl := numbered_injective heq
  simp at hn

/-- With one pass less than the limit allows a term would be given up that comes to rest. -/
theorem settle_chain_eq_none (length : Nat) :
    (chain length).settle length (.unknown (numbered 0)) = none ∧
      (chain length).resolve (.unknown (numbered 0)) = .ok (.unknown (numbered length)) := by
  constructor
  · cases length with
    | zero => rfl
    | succ length =>
        refine Option.eq_none_iff_forall_ne_some.mpr fun settled h => ?_
        obtain ⟨hsettled, hrest⟩ := settle_succ_eq_some_iff.mp h
        rw [iterate_chain (Nat.le_succ length)] at hsettled
        subst hsettled
        rw [apply_unknown_of_get?_eq_some (get?_chain_of_lt (Nat.lt_succ_self length)),
          Term.unknown.injEq] at hrest
        exact Nat.succ_ne_self length (numbered_injective hrest)
  · rw [resolve_eq_ok_iff, size_chain]
    exact ⟨iterate_chain (Nat.le_refl length),
      apply_unknown_of_get?_eq_none (get?_chain_self length)⟩

end Substitution

end BuilderFields
