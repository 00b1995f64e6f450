import BuilderFields.Proofs.Term.Descent
import BuilderFields.Term.Equation

/-!
# The equation at which a system clashes

The two sides of a system are unified from left to right, and what comes of an equation depends on those before it
alone. A system that is solved therefore has all its beginnings solved. A system that clashes does so at one of its
equations: the beginnings that stop short of it are solved, and those that take it in clash as the whole system does.
So the first beginning that clashes ends in the equation at which the system did.

How deep the search may go decides only whether there is an answer, not which one it is. `Equation.Ends` says how a
system ends without a depth.
-/

namespace BuilderFields

open Substitution

namespace Term

section Beginnings

variable {solve : Term → Term → Except Unsolved Substitution} {found s : Substitution}
  {pairs : List (Term × Term)} {unsolved : Unsolved}

theorem applyPairs_take (s : Substitution) (pairs : List (Term × Term)) (count : Nat) :
    s.applyPairs (pairs.take count) = (s.applyPairs pairs).take count :=
  List.map_take

/-- What fails has a first pair that fails: up to it all is solved, and whatever takes it in fails in the same way. -/
theorem exists_first_of_unifyPairs_eq_error (h : unifyPairs solve found pairs = .error unsolved) :
    ∃ place < pairs.length,
      (∀ count ≤ place, ∃ s, unifyPairs solve found (pairs.take count) = .ok s) ∧
      ∀ count, place < count → unifyPairs solve found (pairs.take count) = .error unsolved := by
  -- On the number of pairs, since a pass changes those that are left.
  induction hlen : pairs.length generalizing pairs found with
  | zero =>
      obtain rfl := List.eq_nil_of_length_eq_zero hlen
      simp [unifyPairs_nil] at h
  | succ length ih =>
      obtain ⟨⟨left, right⟩, rest, rfl⟩ := List.exists_cons_of_length_eq_add_one hlen
      cases hstep : solve left right with
      | error here =>
          rw [unifyPairs_cons_of_error hstep] at h
          refine ⟨0, Nat.succ_pos _, fun count hcount => ?_, fun count hcount => ?_⟩
          · obtain rfl := Nat.le_zero.mp hcount
            exact ⟨found, unifyPairs_nil _ _⟩
          · obtain ⟨count, rfl⟩ := Nat.exists_eq_add_one.mpr hcount
            rw [List.take_succ_cons, unifyPairs_cons_of_error hstep, h]
      | ok step =>
          rw [unifyPairs_cons_of_ok hstep] at h
          obtain ⟨place, hplace, hbefore, hbeyond⟩ := ih h (by simpa [applyPairs] using hlen)
          refine ⟨place + 1, by omega, fun count hcount => ?_, fun count hcount => ?_⟩
          · cases count with
            | zero => exact ⟨found, unifyPairs_nil _ _⟩
            | succ count =>
                rw [List.take_succ_cons, unifyPairs_cons_of_ok hstep, applyPairs_take]
                exact hbefore count (Nat.le_of_succ_le_succ hcount)
          · obtain ⟨count, rfl⟩ := Nat.exists_eq_add_one.mpr (Nat.zero_lt_of_lt hcount)
            rw [List.take_succ_cons, unifyPairs_cons_of_ok hstep, applyPairs_take]
            exact hbeyond count (Nat.lt_of_succ_lt_succ hcount)

/-- Of what is solved, every beginning is solved. -/
theorem exists_unifyPairs_take_eq_ok (h : unifyPairs solve found pairs = .ok s) (count : Nat) :
    ∃ s', unifyPairs solve found (pairs.take count) = .ok s' := by
  induction hlen : pairs.length generalizing pairs found count with
  | zero =>
      obtain rfl := List.eq_nil_of_length_eq_zero hlen
      exact ⟨s, by rw [List.take_nil, h]⟩
  | succ length ih =>
      obtain ⟨⟨left, right⟩, rest, rfl⟩ := List.exists_cons_of_length_eq_add_one hlen
      cases count with
      | zero => exact ⟨found, unifyPairs_nil _ _⟩
      | succ count =>
          cases hstep : solve left right with
          | error unsolved => simp [unifyPairs_cons_of_error hstep] at h
          | ok step =>
              rw [unifyPairs_cons_of_ok hstep] at h
              rw [List.take_succ_cons, unifyPairs_cons_of_ok hstep, applyPairs_take]
              exact ih h count (by simpa [applyPairs] using hlen)

end Beginnings

/-! ### Deeper searches -/

/-- Pairs that are answered are answered the same by a search that answers as much of each pair. -/
theorem unifyPairs_eq_of_ne_tooDeep {solve deeper : Term → Term → Except Unsolved Substitution}
    (hdeeper : ∀ left right, solve left right ≠ .error .tooDeep →
      deeper left right = solve left right)
    {found : Substitution} {pairs : List (Term × Term)}
    (h : unifyPairs solve found pairs ≠ .error .tooDeep) :
    unifyPairs deeper found pairs = unifyPairs solve found pairs := by
  induction hlen : pairs.length generalizing pairs found with
  | zero =>
      obtain rfl := List.eq_nil_of_length_eq_zero hlen
      rw [unifyPairs_nil, unifyPairs_nil]
  | succ length ih =>
      obtain ⟨⟨left, right⟩, rest, rfl⟩ := List.exists_cons_of_length_eq_add_one hlen
      cases hstep : solve left right with
      | error unsolved =>
          rw [unifyPairs_cons_of_error hstep] at h ⊢
          have hsame := hdeeper left right (hstep ▸ h)
          rw [unifyPairs_cons_of_error (hsame.trans hstep)]
      | ok step =>
          rw [unifyPairs_cons_of_ok hstep] at h ⊢
          have hsame := hdeeper left right (by simp [hstep])
          rw [unifyPairs_cons_of_ok (hsame.trans hstep)]
          exact ih h (by simpa [applyPairs] using hlen)

/-- A search that is not cut off gives the same answer one level deeper. -/
theorem unifyWithin_succ_eq {depth : Nat} {left right : Term}
    (h : unifyWithin depth left right ≠ .error .tooDeep) :
    unifyWithin (depth + 1) left right = unifyWithin depth left right := by
  induction depth generalizing left right with
  | zero => exact absurd rfl h
  | succ depth ih =>
      -- Only a pair of sequences looks at the depth that is left.
      cases left with
      | unknown u => cases right <;> rfl
      | atom a => cases right <;> rfl
      | seq as =>
          cases right with
          | unknown u => rfl
          | atom b => rfl
          | seq bs =>
              rw [unifyWithin_seq_seq, unifyWithin_seq_seq] at *
              split
              · rename_i hlength
                rw [if_pos hlength] at h
                exact unifyPairs_eq_of_ne_tooDeep (fun _ _ => ih) h
              · rfl

/-- A search that has ended ends in the same way when it may go deeper. -/
theorem unifyWithin_eq_of_le {depth deeper : Nat} (hle : depth ≤ deeper) {left right : Term}
    (h : unifyWithin depth left right ≠ .error .tooDeep) :
    unifyWithin deeper left right = unifyWithin depth left right := by
  induction deeper, hle using Nat.le_induction with
  | base => rfl
  | succ deeper _ ih => rw [unifyWithin_succ_eq (ih ▸ h), ih]

end Term

namespace Equation

variable {depth : Nat} {equations : List Equation} {s : Substitution} {clash : Clash}
  {unsolved : Unsolved}

/-- Searched deep enough, the system ends so. -/
def Ends (equations : List Equation) (outcome : Except Unsolved Substitution) : Prop :=
  outcome ≠ .error .tooDeep ∧ ∃ depth, solveWithin depth equations = outcome

/-- A system ends in one outcome only. -/
theorem Ends.unique {outcome other : Except Unsolved Substitution} (h : Ends equations outcome)
    (h' : Ends equations other) : outcome = other := by
  obtain ⟨hne, depth, rfl⟩ := h
  obtain ⟨hne', depth', rfl⟩ := h'
  rcases Nat.le_total depth depth' with hle | hle
  · exact (Term.unifyWithin_eq_of_le hle hne).symm
  · exact Term.unifyWithin_eq_of_le hle hne'

/-- The system is solved up to this place, and beyond it ends in this clash. -/
structure ClashesFirst (equations : List Equation) (place : Nat) (clash : Clash) : Prop where
  lt : place < equations.length
  before : ∀ count ≤ place, ∃ s, Ends (equations.take count) (.ok s)
  beyond : ∀ count, place < count → Ends (equations.take count) (.error (.clash clash))

theorem solveWithin_succ (depth : Nat) (equations : List Equation) :
    solveWithin (depth + 1) equations =
      Term.unifyPairs (Term.unifyWithin depth) .empty
        (equations.map fun equation => (equation.left, equation.right)) := by
  rw [solveWithin, leftSides, rightSides, Term.unifyWithin_seq_seq, List.length_map,
    List.length_map, if_pos rfl, List.zip_map']

/-- The beginnings of a solved system are solved. -/
theorem exists_solveWithin_take_eq_ok (h : solveWithin depth equations = .ok s) (count : Nat) :
    ∃ s', solveWithin depth (equations.take count) = .ok s' := by
  cases depth with
  | zero => cases h
  | succ depth =>
      rw [solveWithin_succ] at h ⊢
      rw [List.map_take]
      exact Term.exists_unifyPairs_take_eq_ok h count

/-- A system that is searched at all and fails has a first equation at which it fails. -/
theorem exists_first_of_solveWithin_succ_eq_error
    (h : solveWithin (depth + 1) equations = .error unsolved) :
    ∃ place < equations.length,
      (∀ count ≤ place, ∃ s, solveWithin (depth + 1) (equations.take count) = .ok s) ∧
      ∀ count, place < count →
        solveWithin (depth + 1) (equations.take count) = .error unsolved := by
  rw [solveWithin_succ] at h
  simp only [solveWithin_succ, List.map_take]
  simpa using Term.exists_first_of_unifyPairs_eq_error h

/-! ### The first conflict -/

/-- Places whose equations can be added are passed over. -/
theorem conflictAmong_append {before later : List Nat}
    (h : ∀ place ∈ before, ∃ s, solveWithin depth (equations.take (place + 1)) = .ok s) :
    conflictAmong depth equations (before ++ later) = conflictAmong depth equations later := by
  induction before with
  | nil => rfl
  | cons place rest ih =>
      obtain ⟨⟨s, hs⟩, hrest⟩ := List.forall_mem_cons.mp h
      rw [List.cons_append, conflictAmong, hs]
      exact ih hrest

/-- If the equations before it can be added, the search for a conflict gets to the equation at this place. -/
theorem exists_firstConflictWithin_eq {place : Nat} (hplace : place < equations.length)
    (h : ∀ count ≤ place, ∃ s, solveWithin depth (equations.take count) = .ok s) :
    ∃ later, firstConflictWithin depth equations = conflictAmong depth equations (place :: later) := by
  obtain ⟨further, hlength⟩ := Nat.exists_eq_add_of_lt hplace
  have hrange : List.range equations.length =
      List.range place ++ place :: (List.range further).map fun next => place + (next + 1) := by
    rw [hlength, Nat.add_assoc, List.range_add, List.range_succ_eq_map, List.map_cons, List.map_map]
    rfl
  refine ⟨(List.range further).map fun next => place + (next + 1), ?_⟩
  rw [firstConflictWithin, hrange]
  apply conflictAmong_append
  intro earlier hearlier
  exact h (earlier + 1) (List.mem_range.mp hearlier)

theorem firstConflictWithin_eq_missing (h : solveWithin depth equations = .ok s) :
    firstConflictWithin depth equations = .missing := by
  rw [firstConflictWithin, ← List.append_nil (List.range equations.length)]
  apply conflictAmong_append
  intro place _
  exact exists_solveWithin_take_eq_ok h (place + 1)

/-- A system that clashes has its first conflict where it clashes. -/
theorem exists_firstConflictWithin_eq_found
    (h : solveWithin depth equations = .error (.clash clash)) :
    ∃ place, firstConflictWithin depth equations = .found place ∧
      ClashesFirst equations place clash := by
  cases depth with
  | zero => cases h
  | succ depth =>
      obtain ⟨place, hlt, hbefore, hbeyond⟩ := exists_first_of_solveWithin_succ_eq_error h
      refine ⟨place, ?_, hlt, fun count hcount => ?_, fun count hcount => ?_⟩
      · obtain ⟨later, heq⟩ := exists_firstConflictWithin_eq hlt hbefore
        rw [heq, conflictAmong, hbeyond (place + 1) (Nat.lt_succ_self place)]
      · obtain ⟨s, hs⟩ := hbefore count hcount
        exact ⟨s, by simp, depth + 1, hs⟩
      · exact ⟨by simp, depth + 1, hbeyond count hcount⟩

/-- Where the system is cut off, so is a beginning of it, and no conflict is looked for beyond that. -/
theorem firstConflictWithin_eq_tooDeep (hne : equations ≠ [])
    (h : solveWithin depth equations = .error .tooDeep) :
    firstConflictWithin depth equations = .tooDeep := by
  cases depth with
  | zero =>
      obtain ⟨first, rest, rfl⟩ := List.exists_cons_of_ne_nil hne
      rw [firstConflictWithin, List.length_cons, List.range_succ_eq_map, conflictAmong]
      rfl
  | succ depth =>
      obtain ⟨place, hlt, hbefore, hbeyond⟩ := exists_first_of_solveWithin_succ_eq_error h
      obtain ⟨later, heq⟩ := exists_firstConflictWithin_eq hlt hbefore
      rw [heq, conflictAmong, hbeyond (place + 1) (Nat.lt_succ_self place)]

end Equation

end BuilderFields
