import BuilderFields.Proofs.Outcome
import BuilderFields.Proofs.Term.Soundness

/-!
# What a search merges

A search merges the solutions of the pairs of a sequence into one, and what two of them bind is overwritten. Here it
leaves a trail: every binding that it makes and every two substitutions that it merges, at whatever depth. If no two of
these have a bound unknown in common, nothing is overwritten, so the bindings made are those of the result. An assignment
that meets them all unifies the two terms, and so does resolving, however often the remaining pairs were rewritten.
-/

namespace BuilderFields

open Substitution

def Substitution.Apart (s other : Substitution) : Prop :=
  ∀ u ∈ s.bindings.keys, u ∉ other.bindings.keys

/-- A union of substitutions that bind apart overwrites nothing. -/
theorem Substitution.bindings_union_of_apart {s other : Substitution} (h : s.Apart other) :
    (s.union other).bindings = s.bindings ++ other.bindings :=
  Entries.putAll_of_notMem other.nodup h

structure Trail where
  found : Substitution
  bindings : List Binding
  unions : List (Substitution × Substitution)

namespace Trail

def empty : Trail where
  found := .empty
  bindings := []
  unions := []

def ofSolution (s : Substitution) : Trail where
  found := s
  bindings := s.bindings
  unions := []

def merge (before step : Trail) : Trail where
  found := before.found.union step.found
  bindings := before.bindings ++ step.bindings
  unions := before.unions ++ step.unions ++ [(before.found, step.found)]

def Apart (trail : Trail) : Prop :=
  ∀ union ∈ trail.unions, union.1.Apart union.2

/-- Unless two of the substitutions merged have an unknown in common, all bindings are still there. -/
def Keeps (trail : Trail) : Prop :=
  trail.Apart → trail.found.bindings = trail.bindings

theorem keeps_empty : empty.Keeps := fun _ => rfl

theorem keeps_ofSolution (s : Substitution) : (ofSolution s).Keeps := fun _ => rfl

/-- A merge keeps its bindings if both trails keep theirs. -/
theorem Keeps.merge {before step : Trail} (hbefore : before.Keeps) (hstep : step.Keeps) :
    (before.merge step).Keeps := by
  intro hapart
  obtain ⟨hunions, hlast⟩ := List.forall_mem_append.mp hapart
  obtain ⟨hbefore', hstep'⟩ := List.forall_mem_append.mp hunions
  have hunion : before.found.Apart step.found := hlast _ List.mem_cons_self
  calc (before.merge step).found.bindings
      = before.found.bindings ++ step.found.bindings := bindings_union_of_apart hunion
    _ = before.bindings ++ step.bindings := by rw [hbefore hbefore', hstep hstep']

end Trail

namespace Term

def trailPairs (solve : Term → Term → Except Unsolved Trail) (before : Trail)
    (pairs : List (Term × Term)) : Except Unsolved Trail :=
  match pairs with
  | [] => .ok before
  | (left, right) :: rest =>
    match solve left right with
    | .error unsolved => .error unsolved
    | .ok step => trailPairs solve (before.merge step) (step.found.applyPairs rest)
termination_by pairs.length
decreasing_by simp [applyPairs]

/-- `unifyWithin`, leaving a trail. Nothing is merged but the solutions of the items of sequences. -/
def trailWithin : Nat → Term → Term → Except Unsolved Trail
  | 0, _, _ => .error .tooDeep
  | depth + 1, left, right =>
    match left, right with
    | .seq as, .seq bs =>
      if as.length = bs.length then
        trailPairs (trailWithin depth) .empty (as.zip bs)
      else
        .error (.clash ⟨.seq as, .seq bs, .lengths as.length bs.length⟩)
    | left, right => (unifyWithin (depth + 1) left right).map .ofSolution

def BothSeq (left right : Term) : Prop :=
  ∃ as bs, left = .seq as ∧ right = .seq bs

theorem trailWithin_of_not_bothSeq {left right : Term} (h : ¬ BothSeq left right) (depth : Nat) :
    trailWithin (depth + 1) left right =
      (unifyWithin (depth + 1) left right).map .ofSolution := by
  cases left with
  | atom a => rfl
  | unknown u => rfl
  | seq as =>
      cases right with
      | atom b => rfl
      | unknown u => rfl
      | seq bs => exact absurd ⟨as, bs, rfl, rfl⟩ h

/-! ### A trail changes nothing about a search -/

theorem found_trailPairs {solve : Term → Term → Except Unsolved Trail}
    {solve' : Term → Term → Except Unsolved Substitution}
    (hsolve : ∀ left right, (solve left right).map Trail.found = solve' left right)
    (before : Trail) (pairs : List (Term × Term)) :
    (trailPairs solve before pairs).map Trail.found = unifyPairs solve' before.found pairs := by
  induction before, pairs using trailPairs.induct solve with
  | case1 before =>
      rw [trailPairs, unifyPairs]
      rfl
  | case2 before left right rest unsolved hstep =>
      rw [trailPairs, unifyPairs, ← hsolve, hstep]
      rfl
  | case3 before left right rest step hstep ih =>
      rw [trailPairs, unifyPairs, ← hsolve, hstep]
      exact ih

/-- Keeping a trail does not change what is found. -/
theorem found_trailWithin (depth : Nat) (left right : Term) :
    (trailWithin depth left right).map Trail.found = unifyWithin depth left right := by
  induction depth generalizing left right with
  | zero => rfl
  | succ depth ih =>
      by_cases hseq : BothSeq left right
      · obtain ⟨as, bs, rfl, rfl⟩ := hseq
        rw [unifyWithin_seq_seq, trailWithin]
        split
        · exact found_trailPairs ih .empty _
        · rfl
      · rw [trailWithin_of_not_bothSeq hseq]
        cases unifyWithin (depth + 1) left right <;> rfl

theorem exists_trailWithin {depth : Nat} {left right : Term} {s : Substitution}
    (h : unifyWithin depth left right = .ok s) :
    ∃ trail, trailWithin depth left right = .ok trail ∧ trail.found = s := by
  rw [← found_trailWithin] at h
  exact map_eq_ok_iff.mp h

/-! ### What holds of every trail -/

/-- What merging keeps holds of the trail of a list of pairs if it holds of the trails of the pairs. -/
theorem trailPairs_induction {P : Trail → Prop} {solve : Term → Term → Except Unsolved Trail}
    (hmerge : ∀ before step, P before → P step → P (before.merge step))
    (hsolve : ∀ left right step, solve left right = .ok step → P step)
    {before trail : Trail} {pairs : List (Term × Term)} (hbefore : P before)
    (h : trailPairs solve before pairs = .ok trail) : P trail := by
  induction before, pairs using trailPairs.induct solve with
  | case1 before =>
      rw [trailPairs] at h
      cases h
      exact hbefore
  | case2 before left right rest unsolved hstep =>
      rw [trailPairs, hstep] at h
      cases h
  | case3 before left right rest step hstep ih =>
      rw [trailPairs, hstep] at h
      exact ih (hmerge before step hbefore (hsolve left right step hstep)) h

theorem keeps_of_trailWithin {depth : Nat} {left right : Term} {trail : Trail}
    (h : trailWithin depth left right = .ok trail) : trail.Keeps := by
  induction depth generalizing left right trail with
  | zero => cases h
  | succ depth ih =>
      by_cases hseq : BothSeq left right
      · obtain ⟨as, bs, rfl, rfl⟩ := hseq
        rw [trailWithin] at h
        split at h
        · exact trailPairs_induction (fun _ _ => Trail.Keeps.merge) (fun _ _ _ => ih)
            Trail.keeps_empty h
        · cases h
      · rw [trailWithin_of_not_bothSeq hseq] at h
        obtain ⟨s, -, rfl⟩ := map_eq_ok_iff.mp h
        exact Trail.keeps_ofSolution s

structure Tells (left right : Term) (trail : Trail) : Prop where
  run : Run [(left, right)] trail.bindings
  found_eq : trail.found = ofList trail.bindings

theorem run_of_trailPairs {solve : Term → Term → Except Unsolved Trail}
    (hsolve : ∀ left right step, solve left right = .ok step → Tells left right step)
    {before trail : Trail} {pairs : List (Term × Term)}
    (h : trailPairs solve before pairs = .ok trail) :
    ∃ made, Run pairs made ∧ trail.bindings = before.bindings ++ made := by
  induction before, pairs using trailPairs.induct solve with
  | case1 before =>
      rw [trailPairs] at h
      cases h
      exact ⟨[], .nil, (List.append_nil _).symm⟩
  | case2 before left right rest unsolved hstep =>
      rw [trailPairs, hstep] at h
      cases h
  | case3 before left right rest step hstep ih =>
      rw [trailPairs, hstep] at h
      have htells := hsolve left right step hstep
      obtain ⟨later, tail, hbindings⟩ := ih h
      rw [htells.found_eq] at tail
      refine ⟨step.bindings ++ later, htells.run.cons tail, ?_⟩
      rw [hbindings, Trail.merge, List.append_assoc]

/-- A pair that is solved at once makes one binding at most, so none is overwritten. -/
theorem bindings_ofList_of_not_bothSeq {left right : Term} {made : List Binding}
    (run : Run [(left, right)] made) (h : ¬ BothSeq left right) : (ofList made).bindings = made := by
  cases run with
  | sameUnknown later =>
      obtain rfl := later.eq_nil
      rfl
  | bindLeft _ later =>
      obtain rfl := later.eq_nil
      rfl
  | bindRight _ later =>
      obtain rfl := later.eq_nil
      rfl
  | sameAtom later =>
      obtain rfl := later.eq_nil
      rfl
  | descend _ _ _ => exact absurd ⟨_, _, rfl, rfl⟩ h

/-- The bindings of a trail are those of a run, each in its place. -/
theorem tells_of_trailWithin {depth : Nat} {left right : Term} {trail : Trail}
    (h : trailWithin depth left right = .ok trail) : Tells left right trail := by
  induction depth generalizing left right trail with
  | zero => cases h
  | succ depth ih =>
      -- There is one run only, and its table is what the search returns.
      have hfound : unifyWithin (depth + 1) left right = .ok trail.found := by
        rw [← found_trailWithin, h]
        rfl
      obtain ⟨made, run, hmade⟩ := run_of_unifyWithin hfound
      have hbindings : trail.bindings = made := by
        by_cases hseq : BothSeq left right
        · obtain ⟨as, bs, rfl, rfl⟩ := hseq
          rw [trailWithin] at h
          split at h
          · rename_i hlength
            obtain ⟨inner, within, hinner⟩ := run_of_trailPairs (fun _ _ _ => ih) h
            have whole : Run [(.seq as, .seq bs)] (inner ++ []) := .descend hlength within .nil
            rw [hinner, run.unique whole, List.append_nil]
            rfl
          · cases h
        · rw [trailWithin_of_not_bothSeq hseq] at h
          obtain ⟨s, -, rfl⟩ := map_eq_ok_iff.mp h
          rw [← bindings_ofList_of_not_bothSeq run hseq, ← hmade]
          rfl
      exact ⟨hbindings ▸ run, hbindings ▸ hmade⟩

/-! ### Nothing overwritten -/

namespace Tells

variable {left right : Term} {trail : Trail}

/-- A trail that keeps its bindings can be asked for each of them. -/
theorem get?_eq_some (h : Tells left right trail) (hkept : trail.found.bindings = trail.bindings) :
    ∀ binding ∈ trail.bindings, trail.found.get? binding.1 = some binding.2 := by
  intro binding hbinding
  have hnodup : (trail.bindings.map Prod.fst).Nodup := hkept ▸ trail.found.nodup
  rw [h.found_eq]
  exact Entries.get?_ofList_of_mem hnodup hbinding

theorem resolve_eq (h : Tells left right trail) (hkept : trail.found.bindings = trail.bindings)
    {settled settled' : Term} (hleft : trail.found.resolve left = .ok settled)
    (hright : trail.found.resolve right = .ok settled') : settled = settled' := by
  have hresolves := resolves_bindings h.run ⟨settled, hleft⟩ ⟨settled', hright⟩
  have hhonours : trail.found.Honours trail.bindings := by
    intro binding hbinding
    obtain ⟨bound, hbound⟩ := (hresolves binding hbinding).1
    exact ⟨bound, hbound, resolve_eq_of_get?_eq_some (h.get?_eq_some hkept binding hbinding) hbound⟩
  calc settled = trail.found.limit.value left := (limit_value_of_resolve hleft).symm
    _ = trail.found.limit.value right := (h.run.meets_pair_iff _).mp hhonours.limit_meets
    _ = settled' := limit_value_of_resolve hright

end Tells

/-- **Overwriting is the only source of wrong solutions.** If no two substitutions that a search merges, at any depth,
have a bound unknown in common, then its result holds every binding made on the way, and two terms that both resolve
resolve to the same term. -/
theorem unifies_of_unions_apart {depth : Nat} {left right : Term} {s : Substitution}
    (hunify : unifyWithin depth left right = .ok s) :
    ∃ trail, trailWithin depth left right = .ok trail ∧ trail.found = s ∧
      (trail.Apart → (∀ binding ∈ trail.bindings, s.get? binding.1 = some binding.2) ∧
        ∀ settled settled', s.resolve left = .ok settled → s.resolve right = .ok settled' →
          settled = settled') := by
  obtain ⟨trail, htrail, rfl⟩ := exists_trailWithin hunify
  refine ⟨trail, htrail, rfl, fun hapart => ?_⟩
  have hkept := keeps_of_trailWithin htrail hapart
  have htells := tells_of_trailWithin htrail
  exact ⟨htells.get?_eq_some hkept, fun _ _ => htells.resolve_eq hkept⟩

end Term

/-! ### Bindings that are chained, and none lost

On `[x, [y, x]]` and `[y, [z, a]]` the second items are rewritten to `[y, y]` and, inside, the last ones to `z`: `x` is
bound to `y`, `y` to `z` and `z` to `a`. -/

namespace Chained

open Overwriting

def left : Term := .seq [.unknown x, .seq [.unknown y, .unknown x]]

def right : Term := .seq [.unknown y, .seq [.unknown z, a]]

def made : List Binding := [(x, .unknown y), (y, .unknown z), (z, a)]

def trail : Trail where
  found := ofList made
  bindings := made
  unions := [(.empty, ofList [(x, .unknown y)]), (.empty, ofList [(y, .unknown z)]),
    (ofList [(y, .unknown z)], ofList [(z, a)]),
    (ofList [(x, .unknown y)], ofList [(y, .unknown z), (z, a)])]

theorem apart_trail : trail.Apart := by
  unfold Trail.Apart Substitution.Apart
  decide

theorem unifies_of_unions_apart_chained :
    left.unify right = .ok (ofList made) ∧ Term.trailWithin (left.searchDepth right) left right = .ok trail ∧
      trail.Apart ∧ (∀ binding ∈ made, (ofList made).get? binding.1 = some binding.2) ∧
      ∃ settled, (ofList made).resolve left = .ok settled ∧ (ofList made).resolve right = .ok settled := by
  have hunify : left.unify right = .ok (ofList made) := by
    with_unfolding_all rfl
  have htrail : Term.trailWithin (left.searchDepth right) left right = .ok trail := by
    with_unfolding_all rfl
  have hleft : (ofList made).resolve left = .ok (.seq [a, .seq [a, a]]) := rfl
  obtain ⟨found, hfound, -, h⟩ := Term.unifies_of_unions_apart hunify
  obtain rfl := Except.ok.inj (htrail.symm.trans hfound)
  obtain ⟨hkept, hsame⟩ := h apart_trail
  obtain ⟨settled, hright⟩ : ∃ settled, (ofList made).resolve right = .ok settled := ⟨_, rfl⟩
  exact ⟨hunify, htrail, apart_trail, hkept, settled, hsame _ _ hleft hright ▸ hleft, hright⟩

end Chained

end BuilderFields
