import BuilderFields.Proofs.Outcome
import BuilderFields.Style
import Mathlib.Data.Multiset.AddSub

/-!
# What becomes of the operations of a style

The operations are sorted by name in one pass. A modifier is put behind the modifiers before it, but a `start` or a
`finish` takes the place of an earlier one. So a style is made of all operations but those that a later one of the same
name replaces, and it is made of all of them exactly if there is one `start` and one `finish`.
-/

namespace BuilderFields

def Signature.isModifier (operation : Signature) : Bool :=
  operation.name ≠ "start" && operation.name ≠ "finish"

namespace FieldStyle

def named (name : String) (operations : List Signature) : List Signature :=
  operations.filter fun operation => operation.name = name

/-- The operations `start` and `finish` that a later one of the same name replaces. -/
def replaced (operations : List Signature) : List Signature :=
  (named "start" operations).dropLast ++ (named "finish" operations).dropLast

/-- The style has the parts of a style, and its operations and the lost ones are the operations that were given, each
as often as it was given. -/
structure Arranges (name : String) (operations lost : List Signature) (style : FieldStyle) : Prop where
  name_eq : style.name = name
  start_name : style.start.name = "start"
  finish_name : style.finish.name = "finish"
  finish_takes : style.finish.parameters.length = 1
  modifiers_eq : style.modifiers = operations.filter Signature.isModifier
  modifiers_take : ∀ modifier ∈ style.modifiers, modifier.parameters ≠ []
  perm : (style.operations ++ lost).Perm operations

end FieldStyle

/-! ### One operation after another -/

namespace SortedOperations

open FieldStyle

variable {name : String} {sorted next : SortedOperations} {operation : Signature}
  {operations : List Signature}

def afterAll (sorted : SortedOperations) (operations : List Signature) : SortedOperations where
  start := (named "start" operations).getLast?.or sorted.start
  finish := (named "finish" operations).getLast?.or sorted.finish
  modifiers := sorted.modifiers ++ operations.filter Signature.isModifier

@[simp]
theorem afterAll_nil (sorted : SortedOperations) : sorted.afterAll [] = sorted := by
  simp [afterAll, named]

theorem afterAll_cons (sorted : SortedOperations) (operation : Signature)
    (rest : List Signature) :
    sorted.afterAll (operation :: rest) = (sorted.afterAll [operation]).afterAll rest := by
  have hlast : ∀ name, (named name (operation :: rest)).getLast? =
      (named name rest).getLast?.or (named name [operation]).getLast? := by
    intro name
    rw [← List.getLast?_append, named, named, named, ← List.filter_append, List.singleton_append]
  have hmodifiers : (operation :: rest).filter Signature.isModifier =
      [operation].filter Signature.isModifier ++ rest.filter Signature.isModifier := by
    rw [← List.filter_append, List.singleton_append]
  simp only [afterAll, hlast, hmodifiers, Option.or_assoc, List.append_assoc]

/-- One operation is sorted in unless it is a modifier that takes nothing. -/
theorem add_eq_ok_iff :
    add name sorted operation = .ok next ↔
      (operation.isModifier → operation.parameters ≠ []) ∧ next = sorted.afterAll [operation] := by
  by_cases hstart : operation.name = "start"
  · simp [add, afterAll, named, Signature.isModifier, hstart, eq_comm]
  by_cases hfinish : operation.name = "finish"
  · simp [add, afterAll, named, Signature.isModifier, hfinish, eq_comm]
  cases hparameters : operation.parameters with
  | nil => simp [add, Signature.isModifier, hstart, hfinish, hparameters]
  | cons first rest =>
      simp [add, afterAll, named, Signature.isModifier, hstart, hfinish, Ne.symm hstart,
        Ne.symm hfinish, hparameters, eq_comm]

/-- Operations are sorted unless a modifier takes no parameters. -/
theorem foldlM_add_eq_ok_iff :
    operations.foldlM (add name) sorted = .ok next ↔
      (∀ modifier ∈ operations.filter Signature.isModifier, modifier.parameters ≠ []) ∧
        next = sorted.afterAll operations := by
  induction operations generalizing sorted with
  | nil => simp [pure, Except.pure, eq_comm]
  | cons operation rest ih =>
      rw [List.foldlM_cons, bind_eq_ok_iff, afterAll_cons]
      simp only [add_eq_ok_iff, ih, List.mem_filter, List.mem_cons]
      constructor
      · rintro ⟨_, ⟨hoperation, rfl⟩, hrest, rfl⟩
        refine ⟨?_, rfl⟩
        rintro modifier ⟨rfl | hmem, hmodifier⟩
        · exact hoperation hmodifier
        · exact hrest modifier ⟨hmem, hmodifier⟩
      · rintro ⟨hall, rfl⟩
        exact ⟨_, ⟨fun hmodifier => hall operation ⟨.inl rfl, hmodifier⟩, rfl⟩,
          fun modifier h => hall modifier ⟨.inr h.1, h.2⟩, rfl⟩

/-- Sorting rejects a style as malformed and in no other way. -/
theorem exists_malformedStyle_of_foldlM {obstacle : Obstacle}
    (h : operations.foldlM (add name) sorted = .error obstacle) :
    ∃ problem, obstacle = .malformedStyle name problem := by
  induction operations generalizing sorted with
  | nil => cases h
  | cons operation rest ih =>
      rw [List.foldlM_cons] at h
      rcases bind_eq_error_iff.mp h with hadd | ⟨found, -, hrest⟩
      · unfold add at hadd
        split_ifs at hadd
        cases hadd
        exact ⟨_, rfl⟩
      · exact ih hrest

end SortedOperations

theorem StylePair.exists_malformedStyle_of_check {start finish : Option Signature} {style : String}
    {obstacle : Obstacle} (h : check start finish style = .error obstacle) :
    ∃ problem, obstacle = .malformedStyle style problem := by
  unfold check at h
  split at h
  · cases h
    exact ⟨_, rfl⟩
  · cases h
    exact ⟨_, rfl⟩
  · split at h
    · cases h
    · cases h
      exact ⟨_, rfl⟩

/-- A pair needs both operations, and a finish that takes the accumulator alone. -/
theorem StylePair.check_eq_ok_iff {start finish : Option Signature} {style : String}
    {pair : StylePair} :
    check start finish style = .ok pair ↔
      start = some pair.start ∧ finish = some pair.finish ∧
        pair.finish.parameters = [pair.accumulator] := by
  obtain ⟨opening, closing, accumulator⟩ := pair
  constructor
  · intro h
    unfold check at h
    split at h
    · cases h
    · cases h
    · rename_i opening' closing'
      split at h
      · rename_i accumulator' hparameters
        cases h
        exact ⟨rfl, rfl, hparameters⟩
      · cases h
  · rintro ⟨rfl, rfl, hparameters⟩
    simp only at hparameters
    simp [check, hparameters]

namespace FieldStyle

variable {name : String} {operations lost : List Signature} {style : FieldStyle}

/-- The last `start` and the last `finish` count, and the modifiers stay in order. -/
theorem ofOperations_eq_ok_iff :
    ofOperations name operations = .ok style ↔
      style.name = name ∧ (named "start" operations).getLast? = some style.start ∧
        (named "finish" operations).getLast? = some style.finish ∧
        style.finish.parameters.length = 1 ∧
        style.modifiers = operations.filter Signature.isModifier ∧
        ∀ modifier ∈ style.modifiers, modifier.parameters ≠ [] := by
  unfold ofOperations SortedOperations.toStyle
  simp only [bind_eq_ok_iff, SortedOperations.foldlM_add_eq_ok_iff, StylePair.check_eq_ok_iff,
    SortedOperations.afterAll, SortedOperations.empty, Option.or_none, List.nil_append]
  constructor
  · rintro ⟨_, ⟨htake, rfl⟩, pair, ⟨hstart, hfinish, hone⟩, heq⟩
    cases heq
    exact ⟨rfl, hstart, hfinish, by rw [hone, List.length_singleton], rfl, htake⟩
  · rintro ⟨rfl, hstart, hfinish, hone, hmodifiers, htake⟩
    obtain ⟨accumulator, haccumulator⟩ := List.length_eq_one_iff.mp hone
    rw [hmodifiers] at htake
    exact ⟨_, ⟨htake, rfl⟩, ⟨style.start, style.finish, accumulator⟩, ⟨hstart, hfinish, haccumulator⟩,
      by rw [← hmodifiers]⟩

/-! ### Which operations are there -/

/-- Every operation is a `start`, a `finish` or a modifier. -/
theorem perm_named (operations : List Signature) :
    (named "start" operations ++ (named "finish" operations ++
      operations.filter Signature.isModifier)).Perm operations := by
  have hothers := List.filter_append_perm (fun operation => operation.name = "finish")
    (operations.filter fun operation => !decide (operation.name = "start"))
  have hfinish : (operations.filter fun operation => !decide (operation.name = "start")).filter
      (fun operation => operation.name = "finish") = named "finish" operations := by
    rw [List.filter_filter, named]
    refine List.filter_congr fun operation _ => ?_
    by_cases h : operation.name = "finish" <;> simp [h]
  have hmodifier : (operations.filter fun operation => !decide (operation.name = "start")).filter
      (fun operation => !decide (operation.name = "finish")) =
        operations.filter Signature.isModifier := by
    rw [List.filter_filter]
    refine List.filter_congr fun operation _ => ?_
    simp [Signature.isModifier, Bool.and_comm]
  rw [hfinish, hmodifier] at hothers
  exact (hothers.append_left _).trans
    (List.filter_append_perm (fun operation : Signature => operation.name = "start") operations)

/-- Put before all operations but the last one, it completes them exactly if it is the last one. -/
theorem perm_cons_dropLast_iff {operation : Signature} :
    (operation :: operations.dropLast).Perm operations ↔ operations.getLast? = some operation := by
  rcases List.eq_nil_or_concat' operations with rfl | ⟨before, last, rfl⟩
  · simp
  · rw [List.dropLast_concat, List.getLast?_concat, Option.some.injEq]
    constructor
    · intro h
      have hswap := h.trans (List.perm_append_singleton last before)
      exact ((Multiset.cons_inj_left (before : Multiset Signature)).mp
        (Multiset.coe_eq_coe.mpr hswap)).symm
    · rintro rfl
      exact (List.perm_append_singleton last before).symm

theorem named_append (name : String) (first second : List Signature) :
    named name (first ++ second) = named name first ++ named name second :=
  List.filter_append ..

/-- What was replaced under one name is not found under another. -/
theorem named_dropLast_named (name other : String) (operations : List Signature) :
    named name (named other operations).dropLast =
      if other = name then (named other operations).dropLast else [] := by
  have hname : ∀ operation ∈ (named other operations).dropLast, operation.name = other := by
    intro operation hoperation
    have hmem := List.dropLast_subset _ hoperation
    exact of_decide_eq_true (List.mem_filter.mp hmem).2
  split
  · rename_i heq
    exact List.filter_eq_self.mpr fun operation h => by simpa [heq] using hname operation h
  · rename_i hne
    exact List.filter_eq_nil_iff.mpr fun operation h => by simpa [hname operation h] using hne

namespace Arranges

/-- Only the style's own operation and lost ones have the name `start`, and likewise for `finish`. -/
theorem perm_named_lost (h : Arranges name operations lost style) :
    (style.start :: named "start" lost).Perm (named "start" operations) ∧
      (style.finish :: named "finish" lost).Perm (named "finish" operations) := by
  have hmodifiers : ∀ name, name = "start" ∨ name = "finish" → named name style.modifiers = [] := by
    intro name hname
    rw [h.modifiers_eq]
    refine List.filter_eq_nil_iff.mpr fun operation hoperation => ?_
    have hmodifier := (List.mem_filter.mp hoperation).2
    rcases hname with rfl | rfl <;> simp_all [Signature.isModifier]
  have hown : ∀ name, named name style.operations =
      named name [style.start, style.finish] ++ named name style.modifiers :=
    fun name => named_append name [style.start, style.finish] style.modifiers
  have hperm : ∀ name, (named name style.operations ++ named name lost).Perm
      (named name operations) := by
    intro name
    rw [← named_append]
    exact h.perm.filter _
  refine ⟨?_, ?_⟩
  · have hstart := hperm "start"
    rw [hown, hmodifiers _ (.inl rfl)] at hstart
    simpa [named, h.start_name, h.finish_name] using hstart
  · have hfinish := hperm "finish"
    rw [hown, hmodifiers _ (.inr rfl)] at hfinish
    simpa [named, h.start_name, h.finish_name] using hfinish

/-- Operations that can be arranged make the style. -/
theorem ofOperations_eq_ok (h : Arranges name operations (replaced operations) style) :
    ofOperations name operations = .ok style := by
  obtain ⟨hstart, hfinish⟩ := h.perm_named_lost
  simp only [replaced, named_append, named_dropLast_named] at hstart hfinish
  exact ofOperations_eq_ok_iff.mpr ⟨h.name_eq, perm_cons_dropLast_iff.mp (by simpa using hstart),
    perm_cons_dropLast_iff.mp (by simpa using hfinish), h.finish_takes, h.modifiers_eq,
    h.modifiers_take⟩

/-- A style comes from operations that can be arranged. -/
theorem of_ofOperations (h : ofOperations name operations = .ok style) :
    Arranges name operations (replaced operations) style := by
  obtain ⟨hname, hstart, hfinish, hone, hmodifiers, htake⟩ := ofOperations_eq_ok_iff.mp h
  have hnamed : ∀ {name : String} {operation : Signature},
      (named name operations).getLast? = some operation → operation.name = name := by
    intro name operation hlast
    exact of_decide_eq_true (List.mem_filter.mp (List.mem_of_getLast? hlast)).2
  refine ⟨hname, hnamed hstart, hnamed hfinish, hone, hmodifiers, htake, ?_⟩
  have hstarts := perm_cons_dropLast_iff.mpr hstart
  have hfinishes := perm_cons_dropLast_iff.mpr hfinish
  refine List.Perm.trans ?_ ((hstarts.append (hfinishes.append_right _)).trans
    (perm_named operations))
  rw [← hmodifiers, replaced]
  generalize (named "start" operations).dropLast = starts
  generalize (named "finish" operations).dropLast = finishes
  have hbehind : (style.modifiers ++ (starts ++ finishes)).Perm
      (starts ++ (finishes ++ style.modifiers)) := by
    rw [← List.append_assoc starts]
    exact List.perm_append_comm
  exact ((hbehind.cons style.finish).trans List.perm_middle.symm).cons style.start

end Arranges

theorem length_named_eq_one_iff {operation : Signature}
    (hlast : (named name operations).getLast? = some operation) :
    (named name operations).length = 1 ↔ (named name operations).dropLast = [] := by
  rw [← List.length_eq_zero_iff, List.length_dropLast]
  have hne := List.length_pos_of_mem (List.mem_of_getLast? hlast)
  omega

theorem exists_malformedStyle_of_ofOperations {obstacle : Obstacle}
    (h : ofOperations name operations = .error obstacle) :
    ∃ problem, obstacle = .malformedStyle name problem := by
  rcases bind_eq_error_iff.mp h with hfold | ⟨sorted, -, hstyle⟩
  · exact SortedOperations.exists_malformedStyle_of_foldlM hfold
  · rcases bind_eq_error_iff.mp hstyle with hcheck | ⟨pair, -, hpair⟩
    · exact StylePair.exists_malformedStyle_of_check hcheck
    · cases hpair

/-- **A style is made of all operations that no later one replaces**, and its definition is malformed if these do not
make a style. So none is lost exactly if there is one `start` and one `finish`. -/
theorem arranges_iff_one_start_one_finish (name : String) (operations : List Signature) :
    (∀ style, ofOperations name operations = .ok style ↔
      Arranges name operations (replaced operations) style) ∧
    (∀ obstacle, ofOperations name operations = .error obstacle →
      ∃ problem, obstacle = .malformedStyle name problem) ∧
    ∀ style, ofOperations name operations = .ok style →
      (Arranges name operations [] style ↔
        (named "start" operations).length = 1 ∧ (named "finish" operations).length = 1) := by
  refine ⟨fun style => ⟨.of_ofOperations, Arranges.ofOperations_eq_ok⟩,
    fun obstacle => exists_malformedStyle_of_ofOperations, fun style h => ⟨fun hall => ?_, ?_⟩⟩
  · obtain ⟨hstart, hfinish⟩ := hall.perm_named_lost
    exact ⟨hstart.length_eq.symm, hfinish.length_eq.symm⟩
  · rintro ⟨hstart, hfinish⟩
    have hreplaced := Arranges.of_ofOperations h
    obtain ⟨-, hlastStart, hlastFinish, -⟩ := ofOperations_eq_ok_iff.mp h
    rw [length_named_eq_one_iff hlastStart] at hstart
    rw [length_named_eq_one_iff hlastFinish] at hfinish
    rwa [replaced, hstart, hfinish] at hreplaced

end FieldStyle

/-! ### Two operations `start` -/

namespace FieldStyle.Overloaded

def operations : List Signature :=
  [⟨"start", [], [], .declared "A" []⟩, ⟨"start", [], [], .declared "B" []⟩,
    ⟨"finish", [], [⟨"b", .declared "B" []⟩], .declared "C" []⟩]

def style : FieldStyle where
  name := "Twice"
  start := ⟨"start", [], [], .declared "B" []⟩
  finish := ⟨"finish", [], [⟨"b", .declared "B" []⟩], .declared "C" []⟩
  modifiers := []

/-- A style is returned without the first `start`, although no style is made of all the operations. -/
theorem not_arranges_overloaded :
    ofOperations "Twice" operations = .ok style ∧ ¬ style.operations.Perm operations ∧
      ¬ ∃ other, Arranges "Twice" operations [] other := by
  refine ⟨rfl, fun h => absurd h.length_eq (by decide), ?_⟩
  rintro ⟨other, h⟩
  have hlength : 1 = (named "start" operations).length := h.perm_named_lost.1.length_eq
  exact absurd hlength (by decide)

end FieldStyle.Overloaded

end BuilderFields
