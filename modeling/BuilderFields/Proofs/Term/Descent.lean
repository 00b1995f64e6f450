import BuilderFields.Proofs.Term.Depth

/-!
# Searches that do not end

There is no occurs check, so a pass may put a term into itself, and a search may come back to the pair that it
started from. Whatever the depth that it is given, such a search is cut off. It is cut off exactly where it has come
down so many pairs of sequences (`unifyWithin_eq_tooDeep_iff`), and the bindings made on the way down tell it apart
from a search that ends: below the size of the two terms, no assignment meets them. For where one does, the
sequences on the way down have smaller and smaller values, and all of them are values of sequences in the two terms
that the search was asked for.
-/

namespace BuilderFields

open Substitution

-- The search of the pairs comes to this pair after making these bindings.
inductive Reaches : List (Term × Term) → List Binding → Term → Term → Prop
  | first {left right rest} : Reaches ((left, right) :: rest) [] left right
  | later {left right rest first made left' right'} (head : Run [(left, right)] first)
      (tail : Reaches ((ofList first).applyPairs rest) made left' right') :
      Reaches ((left, right) :: rest) (first ++ made) left' right'

/-- The search of a pair comes down so many pairs of sequences, and has made these bindings by then. -/
inductive Descends : Nat → Term → Term → List Binding → Prop
  | start {left right} : Descends 0 left right []
  | into {depth as bs made left right inner} (hlength : as.length = bs.length)
      (reaches : Reaches (as.zip bs) made left right) (within : Descends depth left right inner) :
      Descends (depth + 1) (.seq as) (.seq bs) (made ++ inner)

namespace Term

/-! ### Where a search is cut off -/

theorem unifyPairs_nil (solve : Term → Term → Except Unsolved Substitution)
    (found : Substitution) : unifyPairs solve found [] = .ok found := by
  rw [unifyPairs]

theorem unifyPairs_cons_of_ok {solve : Term → Term → Except Unsolved Substitution}
    {left right : Term} {step : Substitution} (h : solve left right = .ok step)
    (found : Substitution) (rest : List (Term × Term)) :
    unifyPairs solve found ((left, right) :: rest)
      = unifyPairs solve (found.union step) (step.applyPairs rest) := by
  rw [unifyPairs, h]
  rfl

theorem unifyPairs_cons_of_error {solve : Term → Term → Except Unsolved Substitution}
    {left right : Term} {unsolved : Unsolved} (h : solve left right = .error unsolved)
    (found : Substitution) (rest : List (Term × Term)) :
    unifyPairs solve found ((left, right) :: rest) = .error unsolved := by
  rw [unifyPairs, h]

/-- A search that has a run finds what the run makes, unless it is cut off. -/
theorem unifyPairs_of_run {pairs : List (Term × Term)} {made : List Binding}
    (run : Run pairs made) (depth : Nat) (found : Substitution) :
    unifyPairs (unifyWithin depth) found pairs = .ok (found.union (ofList made)) ∨
      unifyPairs (unifyWithin depth) found pairs = .error .tooDeep := by
  induction run generalizing depth found with
  | nil => exact .inl (unifyPairs_nil _ found)
  | @sameUnknown u rest made later ih =>
      cases depth with
      | zero => exact .inr (unifyPairs_cons_of_error rfl _ _)
      | succ depth =>
          rw [unifyPairs_cons_of_ok (unifyWithin_unknown_self u), union_empty, applyPairs_empty]
          exact ih (depth + 1) found
  | @bindLeft u right rest made hne later ih =>
      cases depth with
      | zero => exact .inr (unifyPairs_cons_of_error rfl _ _)
      | succ depth =>
          rw [unifyPairs_cons_of_ok (unifyWithin_unknown_left hne),
            ← List.singleton_append, ← union_ofList_append]
          exact ih (depth + 1) _
  | @bindRight left u rest made hleft later ih =>
      cases depth with
      | zero => exact .inr (unifyPairs_cons_of_error rfl _ _)
      | succ depth =>
          rw [unifyPairs_cons_of_ok (unifyWithin_unknown_right hleft u),
            ← List.singleton_append, ← union_ofList_append]
          exact ih (depth + 1) _
  | @sameAtom a rest made later ih =>
      cases depth with
      | zero => exact .inr (unifyPairs_cons_of_error rfl _ _)
      | succ depth =>
          have hstep : unifyWithin (depth + 1) (.atom a) (.atom a) = .ok .empty := by
            rw [unifyWithin_atom_atom, if_pos rfl]
          rw [unifyPairs_cons_of_ok hstep, union_empty, applyPairs_empty]
          exact ih (depth + 1) found
  | @descend as bs inner rest outer hlength within later ihWithin ihLater =>
      cases depth with
      | zero => exact .inr (unifyPairs_cons_of_error rfl _ _)
      | succ depth =>
          have hstep : unifyWithin (depth + 1) (.seq as) (.seq bs) =
              unifyPairs (unifyWithin depth) .empty (as.zip bs) := by
            rw [unifyWithin_seq_seq, if_pos hlength]
          rcases ihWithin depth .empty with hok | hdeep
          · rw [hok, empty_union_ofList] at hstep
            rw [unifyPairs_cons_of_ok hstep, ← union_ofList_append]
            exact ihLater (depth + 1) _
          · exact .inr (unifyPairs_cons_of_error (hstep.trans hdeep) _ _)

/-- A search that succeeds at some depth gives the same bindings at any other depth, or is cut off there. -/
theorem unifyWithin_of_run {left right : Term} {made : List Binding}
    (run : Run [(left, right)] made) (depth : Nat) :
    unifyWithin depth left right = .ok (ofList made) ∨
      unifyWithin depth left right = .error .tooDeep := by
  have hpairs := unifyPairs_of_run run depth .empty
  cases hstep : unifyWithin depth left right with
  | error unsolved =>
      rw [unifyPairs_cons_of_error hstep] at hpairs
      simpa using hpairs
  | ok step =>
      rw [unifyPairs_cons_of_ok hstep, applyPairs_nil, unifyPairs_nil] at hpairs
      obtain ⟨other, run', rfl⟩ := run_of_unifyWithin hstep
      exact .inl (by rw [run.unique run'])

/-- The pairs are cut off exactly if the search gets to a pair that is. -/
theorem unifyPairs_eq_tooDeep_iff {depth : Nat} {found : Substitution}
    {pairs : List (Term × Term)} :
    unifyPairs (unifyWithin depth) found pairs = .error .tooDeep ↔
      ∃ made left right, Reaches pairs made left right ∧
        unifyWithin depth left right = .error .tooDeep := by
  constructor
  · intro h
    induction hlen : pairs.length generalizing pairs found with
    | zero =>
        obtain rfl := List.eq_nil_of_length_eq_zero hlen
        simp [unifyPairs_nil] at h
    | succ count ih =>
        obtain ⟨⟨left, right⟩, rest, rfl⟩ := List.exists_cons_of_length_eq_add_one hlen
        cases hstep : unifyWithin depth left right with
        | error unsolved =>
            rw [unifyPairs_cons_of_error hstep, Except.error.injEq] at h
            exact ⟨[], left, right, .first, by rw [hstep, h]⟩
        | ok step =>
            obtain ⟨first, head, rfl⟩ := run_of_unifyWithin hstep
            rw [unifyPairs_cons_of_ok hstep] at h
            have hrest : ((ofList first).applyPairs rest).length = count := by
              simpa [applyPairs] using hlen
            obtain ⟨made, left', right', tail, hdeep⟩ := ih h hrest
            exact ⟨first ++ made, left', right', .later head tail, hdeep⟩
  · rintro ⟨made, left, right, hreaches, hdeep⟩
    induction hreaches generalizing found with
    | first => exact unifyPairs_cons_of_error hdeep _ _
    | later head tail ih =>
        rcases unifyWithin_of_run head depth with hok | hcut
        · rw [unifyPairs_cons_of_ok hok]
          exact ih hdeep
        · exact unifyPairs_cons_of_error hcut _ _

/-- A search is cut off exactly where it has come down as many pairs of sequences as it may. -/
theorem unifyWithin_eq_tooDeep_iff {depth : Nat} {left right : Term} :
    unifyWithin depth left right = .error .tooDeep ↔ ∃ made, Descends depth left right made := by
  induction depth generalizing left right with
  | zero => exact ⟨fun _ => ⟨[], .start⟩, fun _ => rfl⟩
  | succ depth ih =>
      constructor
      · intro h
        obtain ⟨as, bs, rfl, rfl⟩ : ∃ as bs, left = .seq as ∧ right = .seq bs := by
          cases left with
          | unknown u =>
              by_cases hright : right = .unknown u
              · simp [hright, unifyWithin_unknown_self] at h
              · simp [unifyWithin_unknown_left hright] at h
          | atom a => cases right <;> simp [unifyWithin] at h; split at h <;> cases h
          | seq as => cases right <;> simp_all [unifyWithin]
        rw [unifyWithin_seq_seq] at h
        split at h
        · rename_i hlength
          obtain ⟨made, left, right, hreaches, hdeep⟩ := unifyPairs_eq_tooDeep_iff.mp h
          obtain ⟨inner, hwithin⟩ := ih.mp hdeep
          exact ⟨made ++ inner, .into hlength hreaches hwithin⟩
        · cases h
      · rintro ⟨_, hdescends⟩
        cases hdescends with
        | into hlength hreaches hwithin =>
            rw [unifyWithin_seq_seq, if_pos hlength]
            exact unifyPairs_eq_tooDeep_iff.mpr ⟨_, _, _, hreaches, ih.mpr ⟨_, hwithin⟩⟩

end Term

/-! ### How deep bindings that can be met let a search go -/

/-- Every sequence in the term has the value of one of the origins. -/
def Assignment.Traces (θ : Assignment) (origins : List Term) (term : Term) : Prop :=
  ∀ sequence ∈ term.sequences, ∃ origin ∈ origins, θ.value origin = θ.value sequence

section Traces

variable {θ : Assignment} {origins : List Term} {pairs : List (Term × Term)} {made : List Binding}
  {left right term : Term} {depth : Nat}

theorem Assignment.Traces.item {items : List Term} (h : θ.Traces origins (.seq items)) {item : Term}
    (hitem : item ∈ items) : θ.Traces origins item :=
  fun sequence hsequence =>
    h sequence (Term.mem_sequences_seq.mpr (Or.inr ⟨item, hitem, hsequence⟩))

/-- Bindings that can be traced back keep every term traceable. -/
theorem Assignment.Traces.apply (hmeets : θ.Meets made)
    (hmade : ∀ binding ∈ made, θ.Traces origins binding.2) (h : θ.Traces origins term) :
    θ.Traces origins ((ofList made).apply term) := by
  induction term using Term.inductionOn with
  | atom a => simpa using h
  | unknown u =>
      cases hu : (ofList made).get? u with
      | none => rwa [apply_unknown_of_get?_eq_none hu]
      | some bound =>
          rw [apply_unknown_of_get?_eq_some hu]
          exact hmade (u, bound) (mem_of_get?_eq_some hu)
  | seq items ih =>
      intro sequence hsequence
      rw [apply_seq] at hsequence
      rcases Term.mem_sequences_seq.mp hsequence with rfl | ⟨other, hother, hsequence⟩
      · -- A pass changes the sequence, but not its value.
        rw [← apply_seq, value_apply_of_meets hmeets]
        exact h _ (Term.mem_sequences_seq.mpr (Or.inl rfl))
      · obtain ⟨item, hitem, rfl⟩ := List.mem_map.mp hother
        exact ih item hitem (h.item hitem) sequence hsequence

theorem Assignment.traces_applyPairs (hmeets : θ.Meets made)
    (hmade : ∀ binding ∈ made, θ.Traces origins binding.2)
    (hpairs : ∀ pair ∈ pairs, θ.Traces origins pair.1 ∧ θ.Traces origins pair.2) :
    ∀ pair ∈ (ofList made).applyPairs pairs,
      θ.Traces origins pair.1 ∧ θ.Traces origins pair.2 := by
  intro pair hpair
  obtain ⟨origin, horigin, rfl⟩ := List.mem_map.mp hpair
  obtain ⟨hleft, hright⟩ := hpairs origin horigin
  exact ⟨hleft.apply hmeets hmade, hright.apply hmeets hmade⟩

/-- Every binding of a run can be traced back to the two sides. -/
theorem Run.traces (run : Run pairs made) (hmeets : θ.Meets made)
    (hpairs : ∀ pair ∈ pairs, θ.Traces origins pair.1 ∧ θ.Traces origins pair.2) :
    ∀ binding ∈ made, θ.Traces origins binding.2 := by
  induction run with
  | nil => simp
  | sameUnknown later ih => exact ih hmeets (List.forall_mem_cons.mp hpairs).2
  | sameAtom later ih => exact ih hmeets (List.forall_mem_cons.mp hpairs).2
  | @bindLeft u right rest made hne later ih =>
      rw [Assignment.meets_cons_iff] at hmeets
      rw [List.forall_mem_cons] at hpairs ⊢
      refine ⟨hpairs.1.2, ih hmeets.2 (Assignment.traces_applyPairs ?_ ?_ hpairs.2)⟩
      · simpa using hmeets.1
      · simpa using hpairs.1.2
  | @bindRight left u rest made hleft later ih =>
      rw [Assignment.meets_cons_iff] at hmeets
      rw [List.forall_mem_cons] at hpairs ⊢
      refine ⟨hpairs.1.1, ih hmeets.2 (Assignment.traces_applyPairs ?_ ?_ hpairs.2)⟩
      · simpa using hmeets.1
      · simpa using hpairs.1.1
  | @descend as bs inner rest outer hlength within later ihWithin ihLater =>
      rw [Assignment.meets_append_iff] at hmeets
      rw [List.forall_mem_cons] at hpairs
      obtain ⟨⟨has, hbs⟩, hrest⟩ := hpairs
      have hinner := ihWithin hmeets.1 fun pair hpair =>
        ⟨has.item (List.of_mem_zip hpair).1, hbs.item (List.of_mem_zip hpair).2⟩
      have houter := ihLater hmeets.2 (Assignment.traces_applyPairs hmeets.1 hinner hrest)
      exact List.forall_mem_append.mpr ⟨hinner, houter⟩

/-- What a search comes to is traced as well, and has the value of what it was in the beginning. -/
theorem Reaches.traces (h : Reaches pairs made left right) (hmeets : θ.Meets made)
    (hpairs : ∀ pair ∈ pairs, θ.Traces origins pair.1 ∧ θ.Traces origins pair.2) :
    (θ.Traces origins left ∧ θ.Traces origins right) ∧
      ∃ pair ∈ pairs, θ.value left = θ.value pair.1 := by
  induction h with
  | first => exact ⟨(List.forall_mem_cons.mp hpairs).1, _, List.mem_cons_self, rfl⟩
  | @later left right rest first made left' right' head tail ih =>
      rw [Assignment.meets_append_iff] at hmeets
      rw [List.forall_mem_cons] at hpairs
      have hfirst := head.traces hmeets.1 (List.forall_mem_singleton.mpr hpairs.1)
      obtain ⟨htraces, pair, hpair, hvalue⟩ :=
        ih hmeets.2 (Assignment.traces_applyPairs hmeets.1 hfirst hpairs.2)
      obtain ⟨origin, horigin, rfl⟩ := List.mem_map.mp hpair
      rw [value_apply_of_meets hmeets.1] at hvalue
      exact ⟨htraces, origin, List.mem_cons_of_mem _ horigin, hvalue⟩

/-- The values on the way down are values of origins, and each is larger than those below it. -/
theorem Descends.depth_le_card (h : Descends depth left right made) (hmeets : θ.Meets made)
    (hleft : θ.Traces origins left) (hright : θ.Traces origins right) :
    depth ≤ ((origins.map θ.value).toFinset.filter
      fun value => value.size ≤ (θ.value left).size).card := by
  induction h with
  | start => exact Nat.zero_le _
  | @into depth as bs made left right inner hlength reaches within ih =>
      rw [Assignment.meets_append_iff] at hmeets
      have hzip : ∀ pair ∈ as.zip bs, θ.Traces origins pair.1 ∧ θ.Traces origins pair.2 :=
        fun pair hpair =>
          ⟨hleft.item (List.of_mem_zip hpair).1, hright.item (List.of_mem_zip hpair).2⟩
      obtain ⟨⟨hleft', hright'⟩, pair, hpair, hvalue⟩ := reaches.traces hmeets.1 hzip
      have hlt : (θ.value left).size < (θ.value (.seq as)).size := by
        rw [hvalue, Assignment.value_seq]
        exact Term.size_lt_of_mem (List.mem_map_of_mem (List.of_mem_zip hpair).1)
      have hself : θ.value (.seq as) ∈ (origins.map θ.value).toFinset := by
        obtain ⟨origin, horigin, heq⟩ := hleft _ (Term.mem_sequences_seq.mpr (Or.inl rfl))
        exact List.mem_toFinset.mpr (List.mem_map.mpr ⟨origin, horigin, heq⟩)
      set values := (origins.map θ.value).toFinset
      have hnotMem : θ.value (.seq as) ∉
          values.filter fun value => value.size ≤ (θ.value left).size := by
        rw [Finset.mem_filter]
        rintro ⟨-, hle⟩
        omega
      have hsubset : insert (θ.value (.seq as))
            (values.filter fun value => value.size ≤ (θ.value left).size)
          ⊆ values.filter fun value => value.size ≤ (θ.value (.seq as)).size := by
        refine Finset.insert_subset (Finset.mem_filter.mpr ⟨hself, Nat.le_refl _⟩) ?_
        exact Finset.monotone_filter_right _ fun value _ hle => hle.trans hlt.le
      calc depth + 1
          ≤ (values.filter fun value => value.size ≤ (θ.value left).size).card + 1 :=
            Nat.add_le_add_right (ih hmeets.2 hleft' hright') 1
        _ = (insert (θ.value (.seq as))
              (values.filter fun value => value.size ≤ (θ.value left).size)).card :=
            (Finset.card_insert_of_notMem hnotMem).symm
        _ ≤ (values.filter fun value => value.size ≤ (θ.value (.seq as)).size).card :=
            Finset.card_le_card hsubset

/-- Bindings that some assignment meets take a search no further down than the two terms are large. -/
theorem Descends.depth_le (h : Descends depth left right made) (hmeets : θ.Meets made) :
    depth ≤ left.size + right.size := by
  have hself : ∀ term ∈ [left, right],
      θ.Traces (left.sequences ++ right.sequences) term := by
    intro term hterm sequence hsequence
    refine ⟨sequence, List.mem_append.mpr ?_, rfl⟩
    rcases List.mem_pair.mp hterm with rfl | rfl
    · exact Or.inl hsequence
    · exact Or.inr hsequence
  calc depth
      ≤ (((left.sequences ++ right.sequences).map θ.value).toFinset.filter
          fun value => value.size ≤ (θ.value left).size).card :=
        h.depth_le_card hmeets (hself left (by simp)) (hself right (by simp))
    _ ≤ ((left.sequences ++ right.sequences).map θ.value).toFinset.card := Finset.card_filter_le _ _
    _ ≤ ((left.sequences ++ right.sequences).map θ.value).length := List.toFinset_card_le _
    _ = left.sequences.length + right.sequences.length := by
        rw [List.length_map, List.length_append]
    _ ≤ left.size + right.size :=
        Nat.add_le_add left.length_sequences_le_size right.length_sequences_le_size

end Traces

namespace Term

/-- **Where a search does not end.** However deep a search may go, a substitution or a clash is its answer exactly when
it does not come down as far as that, and where it comes down further than the two terms are large, the bindings that it
has made have no common solution. -/
theorem unify_answers_iff_not_descends (left right : Term) :
    (∀ depth, ((∃ s, unifyWithin depth left right = .ok s) ∨
        ∃ clash, unifyWithin depth left right = .error (.clash clash)) ↔
      ¬ ∃ made, Descends depth left right made) ∧
    ∀ depth made, left.size + right.size < depth → Descends depth left right made →
      ¬ ∃ θ : Assignment, θ.Meets made := by
  refine ⟨?_, ?_⟩
  · intro depth
    rw [← unifyWithin_eq_tooDeep_iff]
    rcases unifyWithin depth left right with (clash | _) | s <;> simp
  · rintro depth made hdepth hdescends ⟨θ, hmeets⟩
    exact absurd (hdescends.depth_le hmeets) (Nat.not_le.mpr hdepth)

end Term

/-! ### `[x, x]` and `[[x, x], [x, x]]`

Once `x` is bound to `[x, x]`, a pass turns the other pair of items into the pair that the search began with. -/

namespace Growing

def x : Term := .unknown ⟨0, 0, "x"⟩

def pair : Term := .seq [x, x]

theorem unifyWithin_pair_eq_tooDeep :
    (∀ depth, Term.unifyWithin depth pair (.seq [pair, pair]) = .error .tooDeep) ∧
      pair.unify (.seq [pair, pair]) = .error .tooDeep := by
  have hdeep : ∀ depth, Term.unifyWithin depth pair (.seq [pair, pair]) = .error .tooDeep := by
    intro depth
    induction depth with
    | zero => rfl
    | succ depth ih =>
        have hhead : Term.unifyWithin (depth + 1) pair (.seq [pair, pair]) =
            Term.unifyPairs (Term.unifyWithin depth) .empty [(x, pair), (x, pair)] := by
          rw [pair, Term.unifyWithin_seq_seq]
          rfl
        rw [hhead]
        cases depth with
        | zero => exact Term.unifyPairs_cons_of_error rfl _ _
        | succ depth =>
            have hbind : Term.unifyWithin (depth + 1) x pair = .ok (.single ⟨0, 0, "x"⟩ pair) :=
              Term.unifyWithin_unknown_left (by simp [pair])
            rw [Term.unifyPairs_cons_of_ok hbind]
            exact Term.unifyPairs_cons_of_error ih _ _
  exact ⟨hdeep, hdeep _⟩

end Growing

end BuilderFields
