import BuilderFields.Proofs.Entries
import BuilderFields.Text.Blank
import BuilderFields.Text.LetterCase
import Mathlib.Data.List.Forall2
import Mathlib.Data.List.TakeWhile

/-!
# Lower case and the marks in a text

A text is put into lower case character by character, so that the lower case of a text is made up of images of its
characters. Blanks, commas and equals signs are their own images and images of nothing else. The parts that such
marks cut a text into are therefore the same before and after: cutting at a mark, taking what is in front of it and
trimming all give parts whose characters are the images of the characters of the parts.
-/

namespace BuilderFields.Text

/-! ### Texts made up of images -/

inductive Expands (R : Char → List Char → Prop) : List Char → List Char → Prop
  | nil : Expands R [] []
  | cons {c image cs ds} (hc : R c image) (hcs : Expands R cs ds) : Expands R (c :: cs) (image ++ ds)

section Expands

variable {R : Char → List Char → Prop} {p : Char → Bool} {mark : Char} {as bs cs ds : List Char}

theorem expands_cons_iff {c : Char} :
    Expands R (c :: cs) bs ↔ ∃ image ds, R c image ∧ Expands R cs ds ∧ bs = image ++ ds := by
  constructor
  · rintro (_ | ⟨hc, hcs⟩)
    exact ⟨_, _, hc, hcs, rfl⟩
  · rintro ⟨image, ds, hc, hcs, rfl⟩
    exact .cons hc hcs

theorem Expands.append (has : Expands R as bs) (hcs : Expands R cs ds) :
    Expands R (as ++ cs) (bs ++ ds) := by
  induction has with
  | nil => exact hcs
  | cons hc _ ih =>
      rw [List.cons_append, List.append_assoc]
      exact .cons hc ih

theorem Expands.reverse (h : Expands R cs ds) :
    Expands (fun c image => R c image.reverse) cs.reverse ds.reverse := by
  induction h with
  | nil => exact .nil
  | @cons c image cs ds hc _ ih =>
      have hlast : Expands (fun c image => R c image.reverse) [c] (image.reverse ++ []) :=
        .cons (by rwa [List.reverse_reverse]) .nil
      rw [List.append_nil] at hlast
      rw [List.reverse_cons, List.reverse_append]
      exact ih.append hlast

/-- What is true of a character is true of its images, which are not empty. -/
def Respects (p : Char → Bool) (R : Char → List Char → Prop) : Prop :=
  ∀ c image, R c image → image ≠ [] ∧ ∀ d ∈ image, p d = p c

theorem Respects.reverse (hp : Respects p R) : Respects p fun c image => R c image.reverse := by
  intro c image hc
  obtain ⟨hne, hall⟩ := hp c image.reverse hc
  exact ⟨fun h => hne (List.reverse_eq_nil_iff.mpr h), fun d hd => hall d (List.mem_reverse.mpr hd)⟩

theorem Expands.eq_nil_iff (hp : Respects p R) (h : Expands R cs ds) : ds = [] ↔ cs = [] := by
  cases h with
  | nil => simp
  | cons hc _ => simp [(hp _ _ hc).1]

/-- Expanding commutes with dropping characters of a kind that it respects. -/
theorem Expands.dropWhile (hp : Respects p R) (h : Expands R cs ds) :
    Expands R (cs.dropWhile p) (ds.dropWhile p) := by
  induction h with
  | nil => exact .nil
  | @cons c image cs ds hc hcs ih =>
      obtain ⟨hne, hall⟩ := hp c image hc
      by_cases hpc : p c
      · rw [List.dropWhile_cons_of_pos hpc,
          List.dropWhile_append_of_pos fun d hd => (hall d hd).trans hpc]
        exact ih
      · obtain ⟨d, rest, rfl⟩ := List.exists_cons_of_ne_nil hne
        have hpd : ¬ p d := by rwa [hall d List.mem_cons_self]
        rw [List.dropWhile_cons_of_neg hpc, List.cons_append, List.dropWhile_cons_of_neg hpd,
          ← List.cons_append]
        exact .cons hc hcs

theorem Expands.takeWhile (hp : Respects p R) (h : Expands R cs ds) :
    Expands R (cs.takeWhile p) (ds.takeWhile p) := by
  induction h with
  | nil => exact .nil
  | @cons c image cs ds hc hcs ih =>
      obtain ⟨hne, hall⟩ := hp c image hc
      by_cases hpc : p c
      · rw [List.takeWhile_cons_of_pos hpc,
          List.takeWhile_append_of_pos fun d hd => (hall d hd).trans hpc]
        exact .cons hc ih
      · obtain ⟨d, rest, rfl⟩ := List.exists_cons_of_ne_nil hne
        have hpd : ¬ p d := by rwa [hall d List.mem_cons_self]
        rw [List.takeWhile_cons_of_neg hpc, List.cons_append, List.takeWhile_cons_of_neg hpd]
        exact .nil

/-- Expanding commutes with trimming blanks. -/
theorem Expands.trimBlanks (hp : Respects isBlank R) (h : Expands R cs ds) :
    Expands R (trimBlanks cs) (trimBlanks ds) := by
  have htrimmed := ((h.dropWhile hp).reverse.dropWhile hp.reverse).reverse
  simpa only [List.reverse_reverse, Text.trimBlanks] using htrimmed

/-- The mark is its own only image, and is in the image of nothing else. -/
def Keeps (mark : Char) (R : Char → List Char → Prop) : Prop :=
  ∀ c image, R c image → image ≠ [] ∧ (c = mark → image = [mark]) ∧ (mark ∈ image → c = mark)

theorem Keeps.respects (hmark : Keeps mark R) : Respects (fun c => c ≠ mark) R := by
  intro c image hc
  obtain ⟨hne, hself, hmem⟩ := hmark c image hc
  refine ⟨hne, fun d hd => decide_eq_decide.mpr (not_congr ?_)⟩
  constructor
  · rintro rfl
    exact hmem hd
  · intro heq
    rwa [hself heq, List.mem_singleton] at hd

theorem Expands.mem_iff (hmark : Keeps mark R) (h : Expands R cs ds) : mark ∈ ds ↔ mark ∈ cs := by
  induction h with
  | nil => simp
  | @cons c image cs ds hc _ ih =>
      obtain ⟨-, hself, hmem⟩ := hmark c image hc
      rw [List.mem_append, List.mem_cons, ih, eq_comm]
      refine or_congr_left ⟨hmem, fun heq => ?_⟩
      rw [hself heq]
      exact List.mem_singleton_self mark

theorem splitOnChar_append_of_notMem (h : mark ∉ as) {piece : List Char} {pieces : List (List Char)}
    (hds : splitOnChar mark ds = piece :: pieces) :
    splitOnChar mark (as ++ ds) = (as ++ piece) :: pieces := by
  induction as with
  | nil => exact hds
  | cons a as ih =>
      simp only [List.mem_cons, not_or] at h
      rw [List.cons_append, splitOnChar, if_neg (Ne.symm h.1), ih h.2]
      rfl

/-- Expanding commutes with splitting at a mark that it keeps. -/
theorem Expands.splitOnChar (hmark : Keeps mark R) (h : Expands R cs ds) :
    List.Forall₂ (Expands R) (splitOnChar mark cs) (splitOnChar mark ds) := by
  induction h with
  | nil => exact .cons .nil .nil
  | @cons c image cs ds hc _ ih =>
      obtain ⟨-, hself, hmem⟩ := hmark c image hc
      by_cases heq : c = mark
      · rw [hself heq, List.singleton_append, Text.splitOnChar, Text.splitOnChar, if_pos heq, if_pos rfl]
        exact .cons .nil ih
      · rw [Text.splitOnChar, if_neg heq]
        cases hcs : Text.splitOnChar mark cs with
        | nil => exact absurd hcs (splitOnChar_ne_nil mark cs)
        | cons piece pieces =>
            rw [hcs, List.forall₂_cons_left_iff] at ih
            obtain ⟨piece', pieces', hpiece, hpieces, hds⟩ := ih
            rw [splitOnChar_append_of_notMem (fun hmark => heq (hmem hmark)) hds]
            exact .cons (.cons hc hpiece) hpieces

/-- No text gets shorter by expanding. -/
theorem Expands.length_le (hmark : Keeps mark R) (h : Expands R cs ds) : cs.length ≤ ds.length := by
  induction h with
  | nil => exact Nat.le_refl 0
  | @cons c image cs ds hc _ ih =>
      have hpos := List.length_pos_iff.mpr (hmark c image hc).1
      rw [List.length_cons, List.length_append]
      omega

end Expands

/-! ### Characters without case -/

/-- The code points of the blanks, the comma and the equals sign. -/
def markCodes : List Nat :=
  [0x2C, 0x3D] ++ List.range' 9 5 ++ List.range' 28 5 ++ [0x85, 0xA0, 0x1680] ++
    List.range' 0x2000 11 ++ [0x2028, 0x2029, 0x202F, 0x205F, 0x3000]

theorem mem_markCodes_of_isBlank {c : Char} (h : isBlank c) : c.toNat ∈ markCodes := by
  simp only [isBlank, Bool.or_eq_true, Bool.and_eq_true, decide_eq_true_eq] at h
  simp only [markCodes, List.mem_append, List.mem_cons, List.mem_range'_1, List.not_mem_nil, or_false]
  omega

theorem toLower_of_mark :
    ∀ code ∈ List.range 128, (Char.ofNat code).toLower.toNat ∈ markCodes →
      (Char.ofNat code).toLower = Char.ofNat code := by
  decide +kernel

theorem notMem_lowerExpansions :
    ∀ code ∈ markCodes, ∀ expansion ∈ lowerExpansions, code ∉ expansion.2 := by
  decide +kernel

theorem apart_lowerRuns :
    ∀ code ∈ markCodes, ∀ run ∈ lowerRuns,
      code < run.image ∨ run.image + (run.last - run.first) < code := by
  decide +kernel

/-- Lower-casing leaves the marks of a filter alone. -/
theorem lowerChar_of_mark :
    ∀ code ∈ markCodes, lowerChar (Char.ofNat code) = [Char.ofNat code] := by
  decide +kernel

theorem toNat_ofNat_of_ne_zero {code : Nat} (h : (Char.ofNat code).toNat ≠ 0) :
    (Char.ofNat code).toNat = code := by
  by_cases hvalid : code.isValidChar
  · rw [Char.ofNat, dif_pos hvalid]
    rfl
  · rw [Char.ofNat, dif_neg hvalid] at h
    exact absurd rfl h

theorem mem_mapCode {expansions : List (Nat × List Nat)} {runs : List CaseRun} {code image : Nat}
    (h : image ∈ mapCode expansions runs code) :
    image = code ∨ (∃ expansion ∈ expansions, image ∈ expansion.2) ∨
      ∃ run ∈ runs, run.image ≤ image ∧ image ≤ run.image + (run.last - run.first) := by
  unfold mapCode at h
  cases hlookup : expansions.lookup code with
  | some codes =>
      rw [hlookup] at h
      exact Or.inr (Or.inl ⟨_, Entries.mem_of_get?_eq_some hlookup, h⟩)
  | none =>
      rw [hlookup, List.mem_singleton] at h
      cases hrun : runs.findSome? (·.image? code) with
      | none => exact Or.inl (by simpa [hrun] using h)
      | some moved =>
          obtain ⟨run, hmem, hmoved⟩ := List.exists_of_findSome?_eq_some hrun
          rw [hrun, Option.getD_some] at h
          unfold CaseRun.image? at hmoved
          split at hmoved
          · rename_i hin
            obtain rfl := Option.some.inj hmoved
            exact Or.inr (Or.inr ⟨run, hmem, by omega, by omega⟩)
          · cases hmoved

/-- A mark is in the lower case of nothing but itself. -/
theorem eq_of_mem_lowerChar {c mark : Char} (hmark : mark.toNat ∈ markCodes)
    (h : mark ∈ lowerChar c) : c = mark := by
  unfold lowerChar at h
  split at h
  · rename_i hascii
    rw [List.mem_singleton] at h
    subst h
    have hself := toLower_of_mark c.toNat (List.mem_range.mpr hascii)
    rw [Char.ofNat_toNat] at hself
    exact (hself hmark).symm
  · obtain ⟨image, himage, rfl⟩ := List.mem_map.mp h
    have hne : (Char.ofNat image).toNat ≠ 0 := by
      intro hzero
      rw [hzero] at hmark
      exact absurd hmark (by decide)
    rw [toNat_ofNat_of_ne_zero hne] at hmark
    rcases mem_mapCode himage with rfl | ⟨expansion, hmem, hin⟩ | ⟨run, hmem, hfrom, hto⟩
    · exact (Char.ofNat_toNat c).symm
    · exact absurd hin (notMem_lowerExpansions image hmark expansion hmem)
    · have hapart := apart_lowerRuns image hmark run hmem
      omega

theorem lowerChar_ne_nil (c : Char) : lowerChar c ≠ [] := by
  unfold lowerChar
  split
  · exact List.cons_ne_nil _ _
  · rw [Ne, List.map_eq_nil_iff]
    unfold mapCode
    cases hlookup : lowerExpansions.lookup c.toNat with
    | none => exact List.cons_ne_nil _ _
    | some codes =>
        have hall : ∀ expansion ∈ lowerExpansions, expansion.2 ≠ [] := by decide
        exact hall _ (Entries.mem_of_get?_eq_some hlookup)

/-! ### Lower case -/

def LowerImage (c : Char) (image : List Char) : Prop :=
  if c = 'Σ' then image = ['σ'] ∨ image = ['ς'] else image = lowerChar c

theorem expands_lowerAfter (before cs : List Char) : Expands LowerImage cs (lowerAfter before cs) := by
  induction cs generalizing before with
  | nil => exact .nil
  | cons c rest ih =>
      rw [lowerAfter]
      refine .cons ?_ (ih _)
      unfold LowerImage
      by_cases hsigma : c = 'Σ'
      · rw [if_pos hsigma, if_pos hsigma]
        split
        · exact Or.inr rfl
        · exact Or.inl rfl
      · rw [if_neg hsigma, if_neg hsigma]

/-- Lower-casing expands a text character by character. -/
theorem expands_lower (text : String) : Expands LowerImage text.toList (lower text).toList := by
  rw [lower, String.toList_ofList]
  exact expands_lowerAfter [] text.toList

theorem keeps_lowerImage {mark : Char} (hmark : mark.toNat ∈ markCodes) : Keeps mark LowerImage := by
  intro c image hc
  unfold LowerImage at hc
  split at hc
  · rename_i hsigma
    have hsmall : mark ≠ 'σ' ∧ mark ≠ 'ς' ∧ mark ≠ 'Σ' := by
      refine ⟨?_, ?_, ?_⟩ <;> (rintro rfl; exact absurd hmark (by decide))
    subst hsigma
    rcases hc with rfl | rfl <;> simp [hsmall, Ne.symm hsmall.2.2]
  · subst hc
    refine ⟨lowerChar_ne_nil c, ?_, eq_of_mem_lowerChar hmark⟩
    rintro rfl
    have hself := lowerChar_of_mark c.toNat hmark
    rwa [Char.ofNat_toNat] at hself

theorem respects_isBlank_lowerImage : Respects isBlank LowerImage := by
  intro c image hc
  by_cases hblank : isBlank c
  · have hself := (keeps_lowerImage (mem_markCodes_of_isBlank hblank) c image hc).2.1 rfl
    rw [hself]
    exact ⟨List.cons_ne_nil _ _, fun d hd => by rw [List.mem_singleton.mp hd]⟩
  · have hcomma : (',' : Char).toNat ∈ markCodes := by decide
    refine ⟨(keeps_lowerImage hcomma c image hc).1, fun d hd => ?_⟩
    rw [Bool.eq_false_iff.mpr hblank, Bool.eq_false_iff]
    intro hd'
    obtain rfl := (keeps_lowerImage (mem_markCodes_of_isBlank hd') c image hc).2.2 hd
    exact hblank hd'

theorem eq_of_lowerImage {c : Char} {image : List Char} (hc : c ≠ 'Σ') (h : LowerImage c image) :
    image = lowerChar c := by
  rwa [LowerImage, if_neg hc] at h

/-- A text that is its own lower case is so wherever it stands. -/
theorem Expands.eq_of_self {cs ds : List Char} (hself : Expands LowerImage cs cs)
    (h : Expands LowerImage cs ds) : ds = cs := by
  have hcomma : Keeps ',' LowerImage := keeps_lowerImage (by decide)
  induction cs generalizing ds with
  | nil =>
      cases h
      rfl
  | cons c cs ih =>
      obtain ⟨image, rest, himage, hrest, heq⟩ := expands_cons_iff.mp hself
      -- The image has a character and the rest is no shorter than it was, so the image has no more.
      have hlength := congrArg List.length heq
      have hpos := List.length_pos_iff.mpr (hcomma c image himage).1
      have hle := hrest.length_le hcomma
      rw [List.length_cons, List.length_append] at hlength
      obtain ⟨d, rfl⟩ := List.length_eq_one_iff.mp (show image.length = 1 by omega)
      obtain ⟨rfl, rfl⟩ := List.cons.inj heq
      have hsigma : c ≠ 'Σ' := by
        rintro rfl
        rw [LowerImage, if_pos rfl] at himage
        exact absurd himage (by decide)
      obtain ⟨image', rest', himage', hrest', rfl⟩ := expands_cons_iff.mp h
      rw [eq_of_lowerImage hsigma himage', ← eq_of_lowerImage hsigma himage, ih hrest hrest']
      rfl

/-- A text that is lower case already has only itself as an expansion. -/
theorem eq_of_expands_of_lower_eq {text : String} (hlower : lower text = text) {ds : List Char}
    (h : Expands LowerImage text.toList ds) : ds = text.toList := by
  have hself := expands_lower text
  rw [hlower] at hself
  exact hself.eq_of_self h

/-- Only the place of a sigma in a text makes a difference to its lower case. -/
theorem Expands.eq_flatMap {cs ds : List Char} (h : Expands LowerImage cs ds) (hsigma : 'σ' ∉ ds)
    (hfinal : 'ς' ∉ ds) : 'Σ' ∉ cs ∧ ds = cs.flatMap lowerChar := by
  induction h with
  | nil => exact ⟨List.not_mem_nil, rfl⟩
  | @cons c image cs ds hc _ ih =>
      simp only [List.mem_append, not_or] at hsigma hfinal
      obtain ⟨hnotMem, rfl⟩ := ih hsigma.2 hfinal.2
      have hne : c ≠ 'Σ' := by
        rintro rfl
        rw [LowerImage, if_pos rfl] at hc
        rcases hc with rfl | rfl
        · exact hsigma.1 (List.mem_singleton_self _)
        · exact hfinal.1 (List.mem_singleton_self _)
      refine ⟨List.not_mem_cons_of_ne_of_not_mem (Ne.symm hne) hnotMem, ?_⟩
      rw [eq_of_lowerImage hne hc, List.flatMap_cons]

theorem lowerAfter_eq_flatMap {cs : List Char} (h : 'Σ' ∉ cs) (before : List Char) :
    lowerAfter before cs = cs.flatMap lowerChar := by
  induction cs generalizing before with
  | nil => rfl
  | cons c cs ih =>
      simp only [List.mem_cons, not_or] at h
      rw [lowerAfter, if_neg (Ne.symm h.1), ih h.2, List.flatMap_cons]

theorem toList_lower_of_expands {text : String} {ds : List Char}
    (h : Expands LowerImage text.toList ds) (hsigma : 'σ' ∉ ds) (hfinal : 'ς' ∉ ds) :
    (lower text).toList = ds := by
  obtain ⟨hnotMem, rfl⟩ := h.eq_flatMap hsigma hfinal
  rw [lower, String.toList_ofList, lowerAfter_eq_flatMap hnotMem]

end BuilderFields.Text
