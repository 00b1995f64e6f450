import BuilderFields.Proofs.Term.Completeness
import BuilderFields.Proofs.Term.Descent
import BuilderFields.Proofs.Term.Resolve

/-!
# Matching a pattern with a term without unknowns

Where the left side has no unknowns, unifying is matching. Everything that is bound is bound to a part of the left
side, so one pass puts an unknown of the pattern out of the way for good: each of them is bound once, nothing is
overwritten, and the pairs on the left stay as they are. The search is therefore exact. It finds the one assignment
of the pattern's unknowns that gives the left side, or reports a clash when there is none, and what it finds resolves
in one pass.
-/

namespace BuilderFields

open Substitution

section Pass

variable {made : List Binding} {term : Term} {u : Unknown}

theorem Substitution.get?_ofList_eq_none_iff :
    (ofList made).get? u = none ↔ u ∉ made.map Prod.fst := by
  rw [get?, Entries.get?_eq_none_iff, ofList, Entries.mem_keys_ofList]

/-- A pass with bindings to terms without unknowns takes out what is bound. -/
theorem Substitution.mem_occurrences_apply_iff (hmade : ∀ binding ∈ made, binding.2.isGround) :
    u ∈ ((ofList made).apply term).occurrences ↔
      u ∈ term.occurrences ∧ u ∉ made.map Prod.fst := by
  rw [apply_eq_value, Assignment.occurrences_value, List.mem_flatMap]
  constructor
  · rintro ⟨v, hv, hu⟩
    cases hbound : (ofList made).get? v with
    | none =>
        obtain rfl : u = v := by simpa [toAssignment, hbound] using hu
        exact ⟨hv, get?_ofList_eq_none_iff.mp hbound⟩
    | some bound =>
        have hground := Term.isGround_iff.mp (hmade (v, bound) (mem_of_get?_eq_some hbound))
        simp [toAssignment, hbound, hground] at hu
  · rintro ⟨hu, hfree⟩
    refine ⟨u, hu, ?_⟩
    simp [toAssignment, get?_ofList_eq_none_iff.mpr hfree]

theorem Substitution.apply_of_isGround (s : Substitution) (h : term.isGround) :
    s.apply term = term := by
  rw [apply_eq_value]
  exact Assignment.value_eq_self_of_isGround _ h

/-- With bindings to terms without unknowns a second pass changes nothing. -/
theorem Substitution.resolve_eq_ok_apply (hmade : ∀ binding ∈ made, binding.2.isGround)
    (term : Term) : (ofList made).resolve term = .ok ((ofList made).apply term) := by
  have hrest : (ofList made).apply ((ofList made).apply term) = (ofList made).apply term := by
    refine apply_eq_self fun u hu => get?_ofList_eq_none_iff.mpr ?_
    exact ((mem_occurrences_apply_iff hmade).mp hu).2
  refine resolve_eq_ok_iff.mpr ⟨?_, hrest⟩
  cases hsize : (ofList made).size with
  | zero =>
      have hnone : (ofList made).bindings = [] := List.eq_nil_of_length_eq_zero hsize
      refine (apply_eq_self fun u _ => ?_).symm
      rw [get?, hnone, Entries.get?_nil]
  | succ passes => rw [Function.iterate_succ_apply, Function.iterate_fixed hrest]

end Pass

/-! ### What a matching run binds -/

section Lefts

variable {pairs : List (Term × Term)} {made : List Binding}

theorem isGround_left_applyPairs (s : Substitution) (hpairs : ∀ pair ∈ pairs, pair.1.isGround) :
    ∀ pair ∈ s.applyPairs pairs, pair.1.isGround := by
  intro pair hpair
  obtain ⟨origin, horigin, rfl⟩ := List.mem_map.mp hpair
  rw [s.apply_of_isGround (hpairs origin horigin)]
  exact hpairs origin horigin

theorem isGround_left_of_mem_zip {as bs : List Term} (has : (Term.seq as).isGround) :
    ∀ pair ∈ as.zip bs, pair.1.isGround :=
  fun _ hpair => Term.isGround_seq_iff.mp has _ (List.of_mem_zip hpair).1

def InPatterns (u : Unknown) (pairs : List (Term × Term)) : Prop :=
  ∃ pair ∈ pairs, u ∈ pair.2.occurrences

theorem inPatterns_cons_iff {u : Unknown} {pair : Term × Term} :
    InPatterns u (pair :: pairs) ↔ u ∈ pair.2.occurrences ∨ InPatterns u pairs := by
  simp [InPatterns]

/-- Ground bindings take exactly the bound unknowns out of the patterns. -/
theorem inPatterns_applyPairs_iff {u : Unknown} (hmade : ∀ binding ∈ made, binding.2.isGround) :
    InPatterns u ((ofList made).applyPairs pairs) ↔
      InPatterns u pairs ∧ u ∉ made.map Prod.fst := by
  constructor
  · rintro ⟨pair, hpair, hu⟩
    obtain ⟨origin, horigin, rfl⟩ := List.mem_map.mp hpair
    obtain ⟨hu, hfree⟩ := (mem_occurrences_apply_iff hmade).mp hu
    exact ⟨⟨origin, horigin, hu⟩, hfree⟩
  · rintro ⟨⟨origin, horigin, hu⟩, hfree⟩
    exact ⟨_, List.mem_map_of_mem horigin, (mem_occurrences_apply_iff hmade).mpr ⟨hu, hfree⟩⟩

theorem inPatterns_zip_iff {u : Unknown} {as bs : List Term} (hlength : as.length = bs.length) :
    InPatterns u (as.zip bs) ↔ u ∈ (Term.seq bs).occurrences := by
  have hsnd : (as.zip bs).map Prod.snd = bs := List.map_snd_zip hlength.ge
  rw [Term.occurrences_seq, List.mem_flatMap]
  constructor
  · rintro ⟨pair, hpair, hu⟩
    exact ⟨pair.2, (List.of_mem_zip hpair).2, hu⟩
  · rintro ⟨b, hb, hu⟩
    rw [← hsnd] at hb
    obtain ⟨pair, hpair, rfl⟩ := List.mem_map.mp hb
    exact ⟨pair, hpair, hu⟩

/-- A matching run binds each unknown of the patterns, once, and to a term without unknowns. -/
theorem Run.matches (run : Run pairs made) (hpairs : ∀ pair ∈ pairs, pair.1.isGround) :
    (∀ binding ∈ made, binding.2.isGround) ∧ (made.map Prod.fst).Nodup ∧
      ∀ u, u ∈ made.map Prod.fst ↔ InPatterns u pairs := by
  induction run with
  | nil => simp [InPatterns]
  | sameUnknown later ih =>
      have hleft := (List.forall_mem_cons.mp hpairs).1
      simp [Term.isGround_iff] at hleft
  | bindLeft hne later ih =>
      have hleft := (List.forall_mem_cons.mp hpairs).1
      simp [Term.isGround_iff] at hleft
  | sameAtom later ih =>
      obtain ⟨hground, hnodup, hmem⟩ := ih (List.forall_mem_cons.mp hpairs).2
      refine ⟨hground, hnodup, fun u => ?_⟩
      rw [hmem, inPatterns_cons_iff]
      simp
  | @bindRight left v rest made hleft later ih =>
      rw [List.forall_mem_cons] at hpairs
      have hstep : ∀ binding ∈ [((v, left) : Binding)], binding.2.isGround := by
        simpa using hpairs.1
      obtain ⟨hground, hnodup, hmem⟩ := ih (isGround_left_applyPairs _ hpairs.2)
      simp only [inPatterns_applyPairs_iff hstep, List.map_cons, List.map_nil,
        List.mem_singleton] at hmem
      refine ⟨List.forall_mem_cons.mpr ⟨hpairs.1, hground⟩, ?_, fun u => ?_⟩
      · rw [List.map_cons, List.nodup_cons, hmem]
        exact ⟨fun h => h.2 rfl, hnodup⟩
      · rw [List.map_cons, List.mem_cons, hmem, inPatterns_cons_iff, Term.occurrences_unknown,
          List.mem_singleton]
        by_cases huv : u = v <;> simp [huv]
  | @descend as bs inner rest outer hlength within later ihWithin ihLater =>
      rw [List.forall_mem_cons] at hpairs
      obtain ⟨hground, hnodup, hmem⟩ := ihWithin (isGround_left_of_mem_zip hpairs.1)
      obtain ⟨hground', hnodup', hmem'⟩ := ihLater (isGround_left_applyPairs _ hpairs.2)
      simp only [inPatterns_applyPairs_iff hground] at hmem'
      refine ⟨List.forall_mem_append.mpr ⟨hground, hground'⟩, ?_, fun u => ?_⟩
      · rw [List.map_append, List.nodup_append]
        refine ⟨hnodup, hnodup', ?_⟩
        rintro u hu v hv rfl
        exact ((hmem' u).mp hv).2 hu
      · rw [List.map_append, List.mem_append, hmem', inPatterns_cons_iff, hmem,
          inPatterns_zip_iff hlength]
        tauto

/-- What a matching search comes to is a part of what it began with. -/
theorem Reaches.exists_left_eq {left right : Term} (h : Reaches pairs made left right)
    (hpairs : ∀ pair ∈ pairs, pair.1.isGround) : ∃ pair ∈ pairs, left = pair.1 := by
  induction h with
  | first => exact ⟨_, List.mem_cons_self, rfl⟩
  | @later left right rest first made left' right' head tail ih =>
      have hrest := (List.forall_mem_cons.mp hpairs).2
      obtain ⟨pair, hpair, hleft⟩ := ih (isGround_left_applyPairs _ hrest)
      obtain ⟨origin, horigin, rfl⟩ := List.mem_map.mp hpair
      rw [apply_of_isGround _ (hrest origin horigin)] at hleft
      exact ⟨origin, List.mem_cons_of_mem _ horigin, hleft⟩

/-- Against a ground term the search goes no deeper than the term does. -/
theorem Descends.depth_le_nesting {depth : Nat} {left right : Term}
    (h : Descends depth left right made) (hleft : left.isGround) : depth ≤ left.nesting := by
  induction h with
  | start => exact Nat.zero_le _
  | into hlength reaches within ih =>
      obtain ⟨pair, hpair, rfl⟩ := reaches.exists_left_eq (isGround_left_of_mem_zip hleft)
      have hlt := Term.nesting_lt_of_mem (List.of_mem_zip hpair).1
      have hle := ih (isGround_left_of_mem_zip hleft pair hpair)
      omega

end Lefts

-- One pass of the substitution takes a term to its value if all unknowns of the term are the pattern's, and leaves
-- something open otherwise.
structure Substitution.Finds (s : Substitution) (pattern : Term) (θ : Assignment) : Prop where
  resolve_eq : ∀ term, s.resolve term = .ok (s.apply term)
  isGround_iff : ∀ term,
    (s.apply term).isGround ↔ ∀ u ∈ term.occurrences, u ∈ pattern.occurrences
  apply_eq : ∀ term, (s.apply term).isGround → s.apply term = θ.value term

namespace Term

variable {term pattern : Term}

theorem nesting_le_size (term : Term) : term.nesting ≤ term.size := by
  calc term.nesting ≤ term.sequences.toFinset.card := nesting_le_card_sequences term
    _ ≤ term.sequences.length := List.toFinset_card_le _
    _ ≤ term.size := length_sequences_le_size term

/-- Matching against a ground term is never cut off. -/
theorem unify_ne_tooDeep (hterm : term.isGround) : term.unify pattern ≠ .error .tooDeep := by
  intro hdeep
  obtain ⟨made, hdescends⟩ := unifyWithin_eq_tooDeep_iff.mp hdeep
  have hnesting := hdescends.depth_le_nesting hterm
  have hsize := term.nesting_le_size
  unfold searchDepth at hnesting
  omega

/-- A pattern that no assignment makes the term clashes with it. -/
theorem exists_unify_eq_clash (hterm : term.isGround)
    (hnone : ¬ ∃ θ : Assignment, θ.IsGround ∧ θ.value pattern = term) :
    ∃ clash, term.unify pattern = .error (.clash clash) := by
  cases hunify : term.unify pattern with
  | error unsolved =>
      cases unsolved with
      | clash clash => exact ⟨clash, rfl⟩
      | tooDeep => exact absurd hunify (unify_ne_tooDeep hterm)
  | ok s =>
      obtain ⟨made, run, rfl⟩ := run_of_unify hunify
      obtain ⟨hground, hnodup, -⟩ := run.matches (by simpa using hterm)
      -- One pass, with something closed for what is not bound.
      refine absurd ⟨Assignment.comp (fun _ => .seq []) (ofList made).toAssignment, ?_, ?_⟩ hnone
      · exact fun u => Assignment.isGround_value (fun _ => rfl) _
      · have hmeets : (Assignment.comp (fun _ => .seq []) (ofList made).toAssignment).Meets made := by
          intro binding hbinding
          have hbound : (ofList made).get? binding.1 = some binding.2 :=
            Entries.get?_ofList_of_mem hnodup hbinding
          rw [Assignment.value_eq_self_of_isGround _ (hground binding hbinding), Assignment.comp,
            toAssignment, hbound, Option.getD_some,
            Assignment.value_eq_self_of_isGround _ (hground binding hbinding)]
        have hunifies := (run.meets_pair_iff _).mp hmeets
        rw [Assignment.Unifies, Assignment.value_eq_self_of_isGround _ hterm] at hunifies
        exact hunifies.symm

/-- A pattern that an assignment makes the term is matched, and its unknowns are found to be what that assignment
gives them. -/
theorem exists_finds_of_value_eq {θ : Assignment} (hterm : term.isGround)
    (hmatch : θ.value pattern = term) : ∃ s, term.unify pattern = .ok s ∧ s.Finds pattern θ := by
  have hunifies : θ.Unifies term pattern := by
    rw [Assignment.Unifies, Assignment.value_eq_self_of_isGround θ hterm, hmatch]
  obtain ⟨s, hs⟩ := exists_unify_eq_ok hunifies
  obtain ⟨made, run, rfl⟩ := run_of_unify hs
  have hmeets := (run.meets_pair_iff θ).mpr hunifies
  obtain ⟨hground, -, hmem⟩ := run.matches (by simpa using hterm)
  have hbound : ∀ u, u ∈ made.map Prod.fst ↔ u ∈ pattern.occurrences := by
    simpa [InPatterns] using hmem
  refine ⟨_, hs, resolve_eq_ok_apply hground, fun other => ?_, fun other hother => ?_⟩
  · rw [isGround_iff, List.eq_nil_iff_forall_not_mem]
    refine forall_congr' fun u => ?_
    rw [mem_occurrences_apply_iff hground, hbound]
    tauto
  · rw [← value_apply_of_meets hmeets other, Assignment.value_eq_self_of_isGround θ hother]

end Term

end BuilderFields
