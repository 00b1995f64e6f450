import BuilderFields.Proofs.Term.Conflict
import BuilderFields.Proofs.Term.Matching

/-!
# Type parameters that are passed on

Many accumulators are made of a name and of all the type parameters of `start`, and `finish` takes such an accumulator
and gives the result for the same type parameters. The search then binds each unknown once: the field to what `start`
returns, the type parameters of `start` to those of `finish`, and these to the arguments of the expected type. It ends
in a clash unless the expected type is made of the result's name and as many arguments, and the field comes to rest
after three passes, as the accumulator of these arguments.
-/

namespace BuilderFields

open Substitution

namespace Substitution

theorem ofList_union_ofList (first second : List Binding) :
    (ofList first).union (ofList second) = ofList (first ++ second) := by
  rw [← empty_union_ofList first, union_ofList_append, empty_union_ofList]

/-- A term that comes to rest early enough is resolved. -/
theorem resolve_eq_ok_of_le {s : Substitution} {term settled : Term} (passes : Nat)
    (h : s.apply^[passes] term = settled) (hrest : s.apply settled = settled)
    (hle : passes ≤ s.size) : s.resolve term = .ok settled := by
  refine resolve_eq_ok_iff.mpr ⟨?_, hrest⟩
  rw [← Nat.sub_add_cancel hle, Function.iterate_add_apply, h, Function.iterate_fixed hrest]

end Substitution

namespace Term

def applied (head : Atom) (arguments : List Term) : Term :=
  .seq (.atom head :: arguments)

variable {depth : Nat} {unknowns : List Unknown} {terms : List Term}

def Apart (unknowns : List Unknown) (terms : List Term) : Prop :=
  ∀ u ∈ unknowns, ∀ term ∈ terms, u ∉ term.occurrences

/-- Bindings of unknowns that do not occur in the pairs leave the pairs alone. -/
theorem applyPairs_eq_self {made : List Binding} {pairs : List (Term × Term)}
    (hfree : ∀ binding ∈ made, ∀ pair ∈ pairs,
      binding.1 ∉ pair.1.occurrences ∧ binding.1 ∉ pair.2.occurrences) :
    (ofList made).applyPairs pairs = pairs := by
  have hunbound : ∀ term : Term, (∀ binding ∈ made, binding.1 ∉ term.occurrences) →
      (ofList made).apply term = term := by
    intro term hterm
    refine apply_eq_self fun u hu => get?_ofList_eq_none_iff.mpr fun hmem => ?_
    obtain ⟨binding, hbinding, rfl⟩ := List.mem_map.mp hmem
    exact hterm binding hbinding hu
  refine (List.map_congr_left fun pair hpair => ?_).trans (List.map_id' pairs)
  rw [hunbound pair.1 fun binding hbinding => (hfree binding hbinding pair hpair).1,
    hunbound pair.2 fun binding hbinding => (hfree binding hbinding pair hpair).2]

/-- Different unknowns are bound one by one to terms in which they do not occur. -/
theorem unifyPairs_zip_unknowns (hnodup : unknowns.Nodup) (hapart : Apart unknowns terms)
    (found : Substitution) :
    unifyPairs (unifyWithin (depth + 1)) found ((unknowns.map Term.unknown).zip terms) =
      .ok (found.union (ofList (unknowns.zip terms))) := by
  induction unknowns generalizing terms found with
  | nil => exact unifyPairs_nil _ found
  | cons u rest ih =>
      cases terms with
      | nil => exact unifyPairs_nil _ found
      | cons term others =>
          obtain ⟨hnew, hrest⟩ := List.nodup_cons.mp hnodup
          have hu := hapart u List.mem_cons_self
          have hne : term ≠ .unknown u := by
            rintro rfl
            exact hu _ List.mem_cons_self (by simp)
          have hsame : (ofList [(u, term)]).applyPairs ((rest.map Term.unknown).zip others) =
              (rest.map Term.unknown).zip others := by
            refine applyPairs_eq_self fun binding hbinding pair hpair => ?_
            obtain rfl := List.mem_singleton.mp hbinding
            obtain ⟨hleft, hright⟩ := List.of_mem_zip hpair
            obtain ⟨v, hv, heq⟩ := List.mem_map.mp hleft
            refine ⟨?_, hu _ (List.mem_cons_of_mem _ hright)⟩
            rw [← heq, occurrences_unknown, List.mem_singleton]
            rintro rfl
            exact hnew hv
          rw [List.map_cons, List.zip_cons_cons, List.zip_cons_cons,
            unifyPairs_cons_of_ok (unifyWithin_unknown_left hne)]
          change unifyPairs _ _ ((ofList [(u, term)]).applyPairs _) = _
          rw [hsame, ih hrest fun v hv other hother =>
            hapart v (List.mem_cons_of_mem _ hv) other (List.mem_cons_of_mem _ hother)]
          exact congrArg _ (union_ofList_append found [(u, term)] _)

/-- Distinct unknowns that are apart from the arguments are bound to them one by one. -/
theorem unifyWithin_applied (depth : Nat) (hnodup : unknowns.Nodup)
    (hapart : Apart unknowns terms) (hlength : unknowns.length = terms.length) (head : Atom) :
    unifyWithin (depth + 2) (applied head (unknowns.map .unknown)) (applied head terms) =
      .ok (ofList (unknowns.zip terms)) := by
  have hhead : unifyWithin (depth + 1) (.atom head) (.atom head) = .ok .empty := by
    rw [unifyWithin_atom_atom, if_pos rfl]
  rw [applied, applied, unifyWithin_seq_seq, if_pos (by simpa using hlength), List.zip_cons_cons,
    unifyPairs_cons_of_ok hhead, union_empty, applyPairs_empty,
    unifyPairs_zip_unknowns hnodup hapart, empty_union_ofList]

/-- A term without unknowns that is not the head with as many arguments clashes with it. -/
theorem exists_unifyWithin_applied_eq_clash (depth : Nat) {expected : Term}
    (hground : expected.isGround) {head : Atom}
    (hother : ∀ terms, expected = applied head terms → terms.length ≠ unknowns.length) :
    ∃ clash, unifyWithin (depth + 2) (applied head (unknowns.map .unknown)) expected =
      .error (.clash clash) := by
  cases expected with
  | atom a => exact ⟨_, unifyWithin_seq_atom _ a⟩
  | unknown u => simp [isGround_iff] at hground
  | seq items =>
      rw [applied, unifyWithin_seq_seq]
      split
      · rename_i hlength
        cases items with
        | nil => simp at hlength
        | cons first rest =>
            have hclash : ∃ clash, unifyWithin (depth + 1) (.atom head) first =
                .error (.clash clash) := by
              cases first with
              | atom a =>
                  rw [unifyWithin_atom_atom]
                  split
                  · rename_i heq
                    subst heq
                    exact absurd (by simpa using hlength.symm) (hother rest rfl)
                  · exact ⟨_, rfl⟩
              | unknown u => simp [isGround_iff] at hground
              | seq items => exact ⟨_, unifyWithin_atom_seq head items⟩
            obtain ⟨clash, hclash⟩ := hclash
            exact ⟨clash, unifyPairs_cons_of_error hclash _ _⟩
      · exact ⟨_, rfl⟩

end Term

structure Passing where
  field : Unknown
  ofStart : List Unknown
  ofFinish : List Unknown
  accumulator : Atom
  result : Atom
  length_eq : ofStart.length = ofFinish.length
  nodup : (field :: (ofStart ++ ofFinish)).Nodup

namespace Passing

def equations (p : Passing) (expected : Term) : List Equation := [
  ⟨.applied p.accumulator (p.ofStart.map .unknown), .unknown p.field, .startReturnsField⟩,
  ⟨.unknown p.field, .applied p.accumulator (p.ofFinish.map .unknown), .finishTakesField⟩,
  ⟨.applied p.result (p.ofFinish.map .unknown), expected, .finishReturnsConsumer⟩]

def opened (p : Passing) : List Binding :=
  (p.field, .applied p.accumulator (p.ofStart.map .unknown)) ::
    p.ofStart.zip (p.ofFinish.map .unknown)

def bindings (p : Passing) (terms : List Term) : List Binding :=
  p.opened ++ p.ofFinish.zip terms

variable (p : Passing) {expected : Term} {terms : List Term}

theorem field_notMem : p.field ∉ p.ofStart ∧ p.field ∉ p.ofFinish := by
  simpa [not_or] using (List.nodup_cons.mp p.nodup).1

theorem nodup_ofStart : p.ofStart.Nodup :=
  (List.nodup_append.mp (List.nodup_cons.mp p.nodup).2).1

theorem nodup_ofFinish : p.ofFinish.Nodup :=
  (List.nodup_append.mp (List.nodup_cons.mp p.nodup).2).2.1

theorem notMem_ofFinish {u : Unknown} (hu : u ∈ p.ofStart) : u ∉ p.ofFinish :=
  fun hmem => (List.nodup_append.mp (List.nodup_cons.mp p.nodup).2).2.2 u hu u hmem rfl

theorem apart_ofStart : Term.Apart p.ofStart (p.ofFinish.map .unknown) := by
  intro u hu term hterm
  obtain ⟨v, hv, rfl⟩ := List.mem_map.mp hterm
  rw [Term.occurrences_unknown, List.mem_singleton]
  rintro rfl
  exact p.notMem_ofFinish hu hv

theorem apart_of_isGround (unknowns : List Unknown) (hterms : ∀ term ∈ terms, term.isGround) :
    Term.Apart unknowns terms := by
  intro u _ term hterm
  simp [Term.isGround_iff.mp (hterms term hterm)]

/-- What binds no type parameter of `finish` leaves what is made of them as it is. -/
theorem apply_applied {made : List Binding} (hmade : ∀ binding ∈ made, binding.1 ∉ p.ofFinish)
    (head : Atom) : (ofList made).apply (.applied head (p.ofFinish.map .unknown)) =
      .applied head (p.ofFinish.map .unknown) := by
  refine apply_eq_self fun u hu => get?_ofList_eq_none_iff.mpr fun hmem => ?_
  obtain ⟨binding, hbinding, rfl⟩ := List.mem_map.mp hmem
  refine hmade binding hbinding ?_
  simpa [Term.applied, List.flatMap_map] using hu

/-- After the first two equations the third one is what it was. -/
theorem solveWithin_equations (depth : Nat) (hground : expected.isGround) :
    Equation.solveWithin (depth + 3) (p.equations expected) =
      Term.unifyPairs (Term.unifyWithin (depth + 2)) (ofList p.opened)
        [(.applied p.result (p.ofFinish.map .unknown), expected)] := by
  have hstarted : Term.unifyWithin (depth + 2) (.applied p.accumulator (p.ofStart.map .unknown))
      (.unknown p.field) =
        .ok (ofList [(p.field, .applied p.accumulator (p.ofStart.map .unknown))]) :=
    Term.unifyWithin_unknown_right (by simp [Term.applied]) p.field
  have htaken := Term.unifyWithin_applied depth p.nodup_ofStart p.apart_ofStart
    (by simpa using p.length_eq) p.accumulator
  have hfield : ∀ term : Term, (ofList [(p.field, term)]).apply (.unknown p.field) = term :=
    fun term => apply_unknown_of_get?_eq_some (Entries.get?_ofList_of_mem (by simp) (by simp))
  have hfirst : ∀ binding ∈ [(p.field, Term.applied p.accumulator (p.ofStart.map .unknown))],
      binding.1 ∉ p.ofFinish := by
    simpa using p.field_notMem.2
  have hsecond : ∀ binding ∈ p.ofStart.zip (p.ofFinish.map Term.unknown),
      binding.1 ∉ p.ofFinish :=
    fun binding hbinding => p.notMem_ofFinish (List.of_mem_zip hbinding).1
  rw [Equation.solveWithin_succ, equations, List.map_cons, Term.unifyPairs_cons_of_ok hstarted]
  simp only [applyPairs, List.map_cons, List.map_nil, hfield, p.apply_applied hfirst,
    apply_of_isGround _ hground]
  rw [Term.unifyPairs_cons_of_ok htaken]
  simp only [applyPairs, List.map_cons, List.map_nil, p.apply_applied hsecond,
    apply_of_isGround _ hground]
  rw [empty_union_ofList, ofList_union_ofList]
  rfl

theorem exists_searchDepth_eq (expected : Term) :
    ∃ depth, Equation.searchDepth (p.equations expected) = depth + 3 :=
  ⟨_ + 997, rfl⟩

/-- If the consumer expects the result type, the arguments pass through the accumulator. -/
theorem solve_applied (hlength : p.ofFinish.length = terms.length)
    (hground : ∀ term ∈ terms, term.isGround) :
    Equation.solve (p.equations (.applied p.result terms)) = .ok (ofList (p.bindings terms)) := by
  obtain ⟨depth, hdepth⟩ := p.exists_searchDepth_eq (.applied p.result terms)
  have hexpected : (Term.applied p.result terms).isGround := by
    simpa [Term.applied, Term.isGround_seq_iff, Term.isGround_iff] using hground
  have hgiven := Term.unifyWithin_applied depth p.nodup_ofFinish
    (apart_of_isGround p.ofFinish hground) hlength p.result
  rw [Equation.solve_eq_solveWithin, hdepth, p.solveWithin_equations depth hexpected,
    Term.unifyPairs_cons_of_ok hgiven, ofList_union_ofList]
  exact Term.unifyPairs_nil _ _

/-- If the consumer expects anything else, the system fails with a clash. -/
theorem exists_solve_eq_clash (hground : expected.isGround)
    (hother : ∀ terms, expected = .applied p.result terms → terms.length ≠ p.ofFinish.length) :
    ∃ clash, Equation.solve (p.equations expected) = .error (.clash clash) := by
  obtain ⟨depth, hdepth⟩ := p.exists_searchDepth_eq expected
  obtain ⟨clash, hclash⟩ :=
    Term.exists_unifyWithin_applied_eq_clash depth hground hother
  refine ⟨clash, ?_⟩
  rw [Equation.solve_eq_solveWithin, hdepth, p.solveWithin_equations depth hground]
  exact Term.unifyPairs_cons_of_error hclash _ _

/-! ### The field comes to rest -/

theorem nodup_keys_bindings (hlength : p.ofFinish.length = terms.length) :
    ((p.bindings terms).map Prod.fst).Nodup := by
  have hstart : (p.ofStart.zip (p.ofFinish.map Term.unknown)).map Prod.fst = p.ofStart :=
    List.map_fst_zip (by simp [p.length_eq])
  have hfinish : (p.ofFinish.zip terms).map Prod.fst = p.ofFinish := List.map_fst_zip hlength.le
  simpa [bindings, opened, hstart, hfinish] using p.nodup

theorem apply_unknown (hlength : p.ofFinish.length = terms.length) {binding : Binding}
    (hbinding : binding ∈ p.bindings terms) :
    (ofList (p.bindings terms)).apply (.unknown binding.1) = binding.2 :=
  apply_unknown_of_get?_eq_some
    (Entries.get?_ofList_of_mem (p.nodup_keys_bindings hlength) hbinding)

theorem map_apply_unknown {s : Substitution} {unknowns : List Unknown} {terms : List Term}
    (hlength : unknowns.length = terms.length)
    (h : ∀ binding ∈ unknowns.zip terms, s.apply (.unknown binding.1) = binding.2) :
    (unknowns.map Term.unknown).map s.apply = terms := by
  rw [List.map_map]
  exact Entries.map_eq_of_forall_zip hlength h

theorem size_bindings (hlength : p.ofFinish.length = terms.length) :
    (ofList (p.bindings terms)).size = 2 * p.ofFinish.length + 1 := by
  have hkept := Entries.ofList_eq_self (p.nodup_keys_bindings hlength)
  calc (ofList (p.bindings terms)).size
      = (p.bindings terms).length := congrArg List.length hkept
    _ = 2 * p.ofFinish.length + 1 := by
        simp [bindings, opened, p.length_eq, ← hlength]
        omega

/-- The field is the accumulator with the arguments that the consumer expects. -/
theorem resolve_field (hlength : p.ofFinish.length = terms.length)
    (hground : ∀ term ∈ terms, term.isGround) :
    (ofList (p.bindings terms)).resolve (.unknown p.field) =
      .ok (.applied p.accumulator terms) := by
  obtain ⟨s, hs⟩ : ∃ s, ofList (p.bindings terms) = s := ⟨_, rfl⟩
  have hbound : ∀ binding ∈ p.bindings terms, s.apply (.unknown binding.1) = binding.2 :=
    fun binding hbinding => hs ▸ p.apply_unknown hlength hbinding
  simp only [bindings, opened, List.cons_append, List.forall_mem_cons, List.forall_mem_append]
    at hbound
  obtain ⟨hfield, hstart, hfinish⟩ := hbound
  have hrest : s.apply (.applied p.accumulator terms) = .applied p.accumulator terms := by
    simp only [Term.applied, apply_seq, List.map_cons, apply_atom]
    rw [List.map_congr_left fun term hterm => s.apply_of_isGround (hground term hterm), List.map_id']
  have hsize : s.size = 2 * p.ofFinish.length + 1 := hs ▸ p.size_bindings hlength
  have hthird : s.apply^[2] (.applied p.accumulator (p.ofStart.map .unknown)) =
      .applied p.accumulator terms := by
    simp only [Function.iterate_succ_apply, Function.iterate_zero, id, Term.applied, apply_seq,
      List.map_cons, apply_atom]
    rw [map_apply_unknown (by simp [p.length_eq]) hstart, map_apply_unknown hlength hfinish]
  rw [hs]
  cases hempty : p.ofFinish.length with
  | zero =>
      -- Without type parameters there is one binding, and one pass is enough.
      have hnil : p.ofStart.map Term.unknown = terms := by
        rw [List.eq_nil_of_length_eq_zero (p.length_eq.trans hempty),
          List.eq_nil_of_length_eq_zero (hlength.symm.trans hempty), List.map_nil]
      rw [hnil] at hfield
      exact resolve_eq_ok_of_le 1 hfield hrest (by omega)
  | succ count =>
      refine resolve_eq_ok_of_le 3 ?_ hrest (by omega)
      rw [Function.iterate_succ_apply, hfield, hthird]

end Passing

end BuilderFields
