import BuilderFields.Proofs.Term.Run
import Mathlib.Algebra.Order.BigOperators.Group.List
import Mathlib.Algebra.Order.Group.Nat
import Mathlib.Algebra.Ring.Nat
import Mathlib.Data.Finset.Card
import Mathlib.Data.List.Dedup

/-!
# How deep a search goes that can succeed

The search descends only into pairs of sequences, and where an assignment unifies such a pair its value has a
sequence there too. So the nesting of the value bounds the depth, for whichever assignment one likes. The value of
an arbitrary one may nest without limit, but a sequence in it that is not the value of any sequence of the two
terms can be collapsed to an atom, and the smaller assignment still unifies them. Where nothing is left to collapse,
the sequences on the way down are different values of sequences of the two terms, so there are no more of them than
the terms have. That is within `searchDepth`, and the search is never cut off on a pair that has a common instance.
-/

namespace BuilderFields

open Substitution

namespace Term

mutual

def nesting : Term → Nat
  | .atom _ => 0
  | .unknown _ => 0
  | .seq items => nestingAll items + 1

def nestingAll : List Term → Nat
  | [] => 0
  | first :: rest => max first.nesting (nestingAll rest)

end

mutual

def sequences : Term → List Term
  | .atom _ => []
  | .unknown _ => []
  | .seq items => .seq items :: sequencesAll items

def sequencesAll : List Term → List Term
  | [] => []
  | first :: rest => first.sequences ++ sequencesAll rest

end

mutual

/-- The term with an atom in the place of every occurrence of `target`. -/
def collapse (target : Term) : Term → Term
  | .atom a => .atom a
  | .unknown u => .unknown u
  | .seq items =>
    if .seq items = target then .atom ⟨0, 0, ""⟩ else .seq (collapseAll target items)

def collapseAll (target : Term) : List Term → List Term
  | [] => []
  | first :: rest => collapse target first :: collapseAll target rest

end

theorem sequencesAll_eq_flatMap (terms : List Term) :
    sequencesAll terms = terms.flatMap sequences := by
  induction terms with
  | nil => rfl
  | cons first rest ih => simp [sequencesAll, ih]

theorem collapseAll_eq_map (target : Term) (terms : List Term) :
    collapseAll target terms = terms.map (collapse target) := by
  induction terms with
  | nil => rfl
  | cons first rest ih => simp [collapseAll, ih]

theorem sizeAll_eq_sum (terms : List Term) : sizeAll terms = (terms.map size).sum := by
  induction terms with
  | nil => rfl
  | cons first rest ih => simp [sizeAll, ih]

@[simp]
theorem nesting_atom (a : Atom) : (Term.atom a).nesting = 0 := rfl

@[simp]
theorem nesting_unknown (u : Unknown) : (Term.unknown u).nesting = 0 := rfl

theorem nesting_lt_of_mem {item : Term} {items : List Term} (h : item ∈ items) :
    item.nesting < (Term.seq items).nesting := by
  rw [nesting, Nat.lt_succ_iff]
  induction items with
  | nil => cases h
  | cons first rest ih =>
      rw [nestingAll]
      rcases List.mem_cons.mp h with rfl | hrest
      · exact Nat.le_max_left _ _
      · exact (ih hrest).trans (Nat.le_max_right _ _)

/-- One of the items nests as deep as all of them together, unless there is nothing to nest. -/
theorem nesting_seq_eq_one_or (items : List Term) :
    (Term.seq items).nesting = 1 ∨ ∃ item ∈ items, (Term.seq items).nesting = item.nesting + 1 := by
  simp only [nesting, Nat.add_right_cancel_iff, Nat.add_eq_right]
  induction items with
  | nil => exact Or.inl rfl
  | cons first rest ih =>
      rw [nestingAll]
      rcases Nat.le_total first.nesting (nestingAll rest) with hle | hle
      · rw [Nat.max_eq_right hle]
        rcases ih with hzero | ⟨item, hitem, heq⟩
        · exact Or.inl hzero
        · exact Or.inr ⟨item, List.mem_cons_of_mem _ hitem, heq⟩
      · rw [Nat.max_eq_left hle]
        exact Or.inr ⟨first, List.mem_cons_self, rfl⟩

@[simp]
theorem sequences_atom (a : Atom) : (Term.atom a).sequences = [] := rfl

@[simp]
theorem sequences_unknown (u : Unknown) : (Term.unknown u).sequences = [] := rfl

theorem sequences_seq (items : List Term) :
    (Term.seq items).sequences = .seq items :: items.flatMap sequences := by
  rw [sequences, sequencesAll_eq_flatMap]

theorem mem_sequences_seq {term : Term} {items : List Term} :
    term ∈ (Term.seq items).sequences ↔
      term = .seq items ∨ ∃ item ∈ items, term ∈ item.sequences := by
  rw [sequences_seq, List.mem_cons, List.mem_flatMap]

theorem size_seq (items : List Term) : (Term.seq items).size = (items.map size).sum + 1 := by
  rw [size, sizeAll_eq_sum]

theorem size_lt_of_mem {item : Term} {items : List Term} (h : item ∈ items) :
    item.size < (Term.seq items).size := by
  rw [size_seq, Nat.lt_succ_iff]
  exact List.le_sum_of_mem (List.mem_map_of_mem h)

/-- A sequence in a term is no larger than the term. -/
theorem size_le_of_mem_sequences {sequence term : Term} (h : sequence ∈ term.sequences) :
    sequence.size ≤ term.size := by
  induction term using Term.inductionOn with
  | atom a => simp at h
  | unknown u => simp at h
  | seq items ih =>
      rcases mem_sequences_seq.mp h with rfl | ⟨item, hitem, hsequence⟩
      · exact Nat.le_refl _
      · exact (ih item hitem hsequence).trans (size_lt_of_mem hitem).le

theorem length_sequences_le_size (term : Term) : term.sequences.length ≤ term.size := by
  induction term using Term.inductionOn with
  | atom a => simp
  | unknown u => simp
  | seq items ih =>
      rw [sequences_seq, List.length_cons, List.length_flatMap, size_seq]
      exact Nat.succ_le_succ (List.sum_le_sum fun item hitem => ih item hitem)

/-- The sequences on a way down are smaller and smaller, hence different. -/
theorem nesting_le_card_sequences (term : Term) : term.nesting ≤ term.sequences.toFinset.card := by
  induction term using Term.inductionOn with
  | atom a => simp
  | unknown u => simp
  | seq items ih =>
      have hself : Term.seq items ∈ (Term.seq items).sequences.toFinset :=
        List.mem_toFinset.mpr (mem_sequences_seq.mpr (Or.inl rfl))
      rcases nesting_seq_eq_one_or items with hone | ⟨item, hitem, heq⟩
      · rw [hone]
        exact Finset.card_pos.mpr ⟨_, hself⟩
      · have hnotMem : Term.seq items ∉ item.sequences.toFinset := fun hmem =>
          absurd (size_le_of_mem_sequences (List.mem_toFinset.mp hmem))
            (Nat.not_le.mpr (size_lt_of_mem hitem))
        have hsubset : insert (Term.seq items) item.sequences.toFinset
            ⊆ (Term.seq items).sequences.toFinset := by
          refine Finset.insert_subset hself fun sequence hsequence => ?_
          exact List.mem_toFinset.mpr
            (mem_sequences_seq.mpr (Or.inr ⟨item, hitem, List.mem_toFinset.mp hsequence⟩))
        calc (Term.seq items).nesting = item.nesting + 1 := heq
          _ ≤ item.sequences.toFinset.card + 1 := Nat.add_le_add_right (ih item hitem) 1
          _ = (insert (Term.seq items) item.sequences.toFinset).card :=
              (Finset.card_insert_of_notMem hnotMem).symm
          _ ≤ (Term.seq items).sequences.toFinset.card := Finset.card_le_card hsubset

/-! ### Collapsing -/

section Collapse

variable {target : Term}

@[simp]
theorem collapse_atom (a : Atom) : collapse target (.atom a) = .atom a := rfl

theorem collapse_seq_of_ne {items : List Term} (h : Term.seq items ≠ target) :
    collapse target (.seq items) = .seq (items.map (collapse target)) := by
  rw [collapse, if_neg h, collapseAll_eq_map]

/-- A collapsed sequence has no sequences left in it. -/
theorem sequences_collapse_self (items : List Term) :
    (collapse (.seq items) (.seq items)).sequences = [] := by
  simp [collapse]

/-- Collapsing a value is giving the unknowns collapsed terms, if no sequence of the term itself has the value
that is collapsed. -/
theorem collapse_value {θ : Assignment} {term : Term}
    (h : ∀ sequence ∈ term.sequences, θ.value sequence ≠ target) :
    collapse target (θ.value term) = Assignment.value (fun u => collapse target (θ u)) term := by
  induction term using Term.inductionOn with
  | atom a => simp
  | unknown u => simp
  | seq items ih =>
      have hself := h (.seq items) (mem_sequences_seq.mpr (Or.inl rfl))
      rw [Assignment.value_seq] at hself
      rw [Assignment.value_seq, Assignment.value_seq, collapse_seq_of_ne hself, List.map_map,
        Term.seq.injEq, List.map_inj_left]
      intro item hitem
      exact ih item hitem fun sequence hsequence =>
        h sequence (mem_sequences_seq.mpr (Or.inr ⟨item, hitem, hsequence⟩))

theorem length_sequences_seq (items : List Term) :
    (Term.seq items).sequences.length
      = (items.map fun item => item.sequences.length).sum + 1 := by
  rw [sequences_seq, List.length_cons, List.length_flatMap]

/-- Collapsing adds no sequences. -/
theorem length_sequences_collapse_le (target term : Term) :
    (collapse target term).sequences.length ≤ term.sequences.length := by
  induction term using Term.inductionOn with
  | atom a => simp
  | unknown u => simp [collapse]
  | seq items ih =>
      by_cases hself : Term.seq items = target
      · subst hself
        simp [sequences_collapse_self]
      · rw [collapse_seq_of_ne hself, length_sequences_seq, length_sequences_seq, List.map_map]
        exact Nat.succ_le_succ (List.sum_le_sum ih)

/-- Collapsing a sequence of the term leaves fewer of them. -/
theorem length_sequences_collapse_lt {term : Term} (h : target ∈ term.sequences) :
    (collapse target term).sequences.length < term.sequences.length := by
  induction term using Term.inductionOn with
  | atom a => simp at h
  | unknown u => simp at h
  | seq items ih =>
      by_cases hself : Term.seq items = target
      · subst hself
        rw [sequences_collapse_self, length_sequences_seq]
        exact Nat.succ_pos _
      · obtain ⟨item, hitem, htarget⟩ :=
          (mem_sequences_seq.mp h).resolve_left (Ne.symm hself)
        rw [collapse_seq_of_ne hself, length_sequences_seq, length_sequences_seq, List.map_map]
        refine Nat.succ_lt_succ (List.sum_lt_sum _ _ ?_ ⟨item, hitem, ih item hitem htarget⟩)
        exact fun other _ => length_sequences_collapse_le target other

end Collapse

end Term

namespace Assignment

variable {θ : Assignment} {left right : Term}

/-- What unifies two terms can be made so small that each sequence in their value is the value of a sequence in
one of them. -/
theorem exists_unifies_of_sequences (hθ : θ.Unifies left right) :
    ∃ θ' : Assignment, θ'.Unifies left right ∧ ∀ sequence ∈ (θ'.value left).sequences,
      ∃ origin ∈ left.sequences ++ right.sequences, θ'.value origin = sequence := by
  induction hcount : (θ.value left).sequences.length using Nat.strong_induction_on
    generalizing θ with
  | _ count ih =>
      by_cases hcovered : ∀ sequence ∈ (θ.value left).sequences,
          ∃ origin ∈ left.sequences ++ right.sequences, θ.value origin = sequence
      · exact ⟨θ, hθ, hcovered⟩
      · push Not at hcovered
        obtain ⟨target, htarget, hne⟩ := hcovered
        have hleft : Term.collapse target (θ.value left)
            = value (fun u => Term.collapse target (θ u)) left :=
          Term.collapse_value fun sequence hsequence =>
            hne sequence (List.mem_append_left _ hsequence)
        have hright : Term.collapse target (θ.value right)
            = value (fun u => Term.collapse target (θ u)) right :=
          Term.collapse_value fun sequence hsequence =>
            hne sequence (List.mem_append_right _ hsequence)
        have hunifies : Unifies (fun u => Term.collapse target (θ u)) left right := by
          rw [Unifies, ← hleft, ← hright, hθ]
        refine ih _ ?_ hunifies rfl
        rw [← hleft, ← hcount]
        exact Term.length_sequences_collapse_lt htarget

/-- Two terms with a common instance have one that nests no deeper than the terms are large. -/
theorem exists_unifies_nesting_le (hθ : θ.Unifies left right) :
    ∃ θ' : Assignment, θ'.Unifies left right ∧
      (θ'.value left).nesting ≤ left.size + right.size := by
  obtain ⟨θ', hθ', horigin⟩ := exists_unifies_of_sequences hθ
  have hsubset : (θ'.value left).sequences.toFinset
      ⊆ ((left.sequences ++ right.sequences).map θ'.value).toFinset := by
    intro sequence hsequence
    rw [List.mem_toFinset] at hsequence ⊢
    exact List.mem_map.mpr (horigin sequence hsequence)
  refine ⟨θ', hθ', ?_⟩
  calc (θ'.value left).nesting ≤ (θ'.value left).sequences.toFinset.card :=
        Term.nesting_le_card_sequences _
    _ ≤ ((left.sequences ++ right.sequences).map θ'.value).toFinset.card :=
        Finset.card_le_card hsubset
    _ ≤ ((left.sequences ++ right.sequences).map θ'.value).length := List.toFinset_card_le _
    _ = left.sequences.length + right.sequences.length := by
        rw [List.length_map, List.length_append]
    _ ≤ left.size + right.size :=
        Nat.add_le_add left.length_sequences_le_size right.length_sequences_le_size

end Assignment

namespace Term

/-! ### The search answers -/

theorem exists_unifyPairs_eq_ok (θ : Assignment) (bound : Nat)
    {solve : Term → Term → Except Unsolved Substitution}
    (hsolve : ∀ left right, θ.Unifies left right → (θ.value left).nesting < bound →
      ∃ made, solve left right = .ok (ofList made) ∧ θ.Meets made)
    {found : Substitution} {pairs : List (Term × Term)}
    (hpairs : ∀ pair ∈ pairs, θ.Unifies pair.1 pair.2 ∧ (θ.value pair.1).nesting < bound) :
    ∃ s, unifyPairs solve found pairs = .ok s := by
  induction hlen : pairs.length generalizing pairs found with
  | zero =>
      obtain rfl := List.eq_nil_of_length_eq_zero hlen
      exact ⟨found, by rw [unifyPairs]⟩
  | succ count ih =>
      obtain ⟨⟨left, right⟩, rest, rfl⟩ := List.exists_cons_of_length_eq_add_one hlen
      rw [List.forall_mem_cons] at hpairs
      obtain ⟨⟨hunifies, hnesting⟩, hrest⟩ := hpairs
      obtain ⟨made, hstep, hmeets⟩ := hsolve left right hunifies hnesting
      rw [unifyPairs, hstep]
      refine ih ?_ (by simpa using hlen)
      intro pair hpair
      obtain ⟨origin, horigin, rfl⟩ := List.mem_map.mp hpair
      simpa only [Assignment.Unifies, value_apply_of_meets hmeets] using hrest origin horigin

/-- Where an assignment unifies a pair and its value nests less deep than the search may go, the search ends with a
substitution. A pass leaves the value as it is, so the bound holds for every pair to come. -/
theorem exists_unifyWithin_eq_ok {θ : Assignment} {depth : Nat} {left right : Term}
    (hunifies : θ.Unifies left right) (hnesting : (θ.value left).nesting < depth) :
    ∃ s, unifyWithin depth left right = .ok s := by
  induction depth generalizing left right with
  | zero => exact absurd hnesting (Nat.not_lt_zero _)
  | succ depth ih =>
      by_cases hleft : ∃ u, left = .unknown u
      · obtain ⟨u, rfl⟩ := hleft
        by_cases hright : right = .unknown u
        · subst hright
          exact ⟨_, unifyWithin_unknown_self u⟩
        · exact ⟨_, unifyWithin_unknown_left hright⟩
      have hleft' : ∀ v, left ≠ .unknown v := fun v heq => hleft ⟨v, heq⟩
      cases right with
      | unknown u => exact ⟨_, unifyWithin_unknown_right hleft' u⟩
      | atom b =>
          cases left with
          | unknown u => exact absurd rfl (hleft' u)
          | seq as => simp [Assignment.Unifies] at hunifies
          | atom a =>
              have heq : a = b := by simpa [Assignment.Unifies] using hunifies
              exact ⟨_, by rw [unifyWithin_atom_atom, if_pos heq]⟩
      | seq bs =>
          cases left with
          | unknown u => exact absurd rfl (hleft' u)
          | atom a => simp [Assignment.Unifies] at hunifies
          | seq as =>
              have hlength := Assignment.length_eq_of_unifies_seq hunifies
              rw [Assignment.unifies_seq_iff hlength] at hunifies
              rw [unifyWithin_seq_seq, if_pos hlength]
              refine exists_unifyPairs_eq_ok θ depth ?_ ?_
              · intro left right hunifies hnesting
                obtain ⟨s, hs⟩ := ih hunifies hnesting
                obtain ⟨made, run, rfl⟩ := run_of_unifyWithin hs
                exact ⟨made, hs, (run.meets_pair_iff θ).mpr hunifies⟩
              · intro pair hpair
                refine ⟨hunifies pair hpair, ?_⟩
                have hitem : θ.value pair.1 ∈ as.map θ.value :=
                  List.mem_map_of_mem (List.of_mem_zip hpair).1
                have hlt := nesting_lt_of_mem hitem
                rw [Assignment.value_seq] at hnesting
                omega

/-- Terms that can be made equal are unified, with no cut-off. -/
theorem exists_unify_eq_ok {θ : Assignment} {left right : Term} (hunifies : θ.Unifies left right) :
    ∃ s, left.unify right = .ok s := by
  obtain ⟨θ', hθ', hnesting⟩ := Assignment.exists_unifies_nesting_le hunifies
  refine exists_unifyWithin_eq_ok hθ' ?_
  unfold searchDepth
  omega

end Term

end BuilderFields
