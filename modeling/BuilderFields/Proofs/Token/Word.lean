import BuilderFields.Proofs.Signature.Legible
import BuilderFields.Proofs.Text.LetterCase
import BuilderFields.Proofs.Token.Layout

/-!
# Where two names meet

A token can serve as a name if any letter begins it, but only an ASCII letter opens a word. So a letter beyond ASCII at
the beginning of a run of word characters is a token of its own, and a name, and what follows it is cut off. This is the
only way in which two names stand side by side without a blank between them.
-/

namespace BuilderFields.Token

/-- A token that begins with the character can serve as a name. -/
def opensName (c : Char) : Bool :=
  Text.isLetter c || c = '_' || c = '$'

theorem isIdentifier_of_text {token : Token} {c : Char} {tail : List Char}
    (h : token.text = String.ofList (c :: tail)) : token.isIdentifier = opensName c := by
  rw [isIdentifier, h, String.toList_ofList]
  rfl

theorem opensName_of_opensWord {c : Char} (h : opensWord c) : opensName c := by
  unfold opensWord at h
  unfold opensName
  simp only [Bool.or_eq_true] at h ⊢
  exact h.imp_left (Or.imp_left Text.isLetter_of_isAlpha)

theorem isLetter_of_opensName {c : Char} (h : opensName c) (hopens : ¬ opensWord c) :
    Text.isLetter c := by
  unfold opensWord at hopens
  unfold opensName at h
  simp only [Bool.or_eq_true, not_or] at h hopens
  rcases h with (h | h) | h
  · exact h
  · exact absurd h hopens.1.2
  · exact absurd h hopens.2

theorem continuesWord_of_opensName {c : Char} (h : opensName c) : continuesWord c := by
  unfold opensName at h
  unfold continuesWord Text.isWordChar
  simp only [Bool.or_eq_true] at h ⊢
  rcases h with (h | h) | h
  · exact .inl (.inl (.inl h))
  · exact .inl (.inr h)
  · exact .inr h

theorem continuesWord_of_mark :
    ∀ code ∈ Text.markCodes, continuesWord (Char.ofNat code) = false := by
  decide +kernel

theorem not_isBlank_of_continuesWord {c : Char} (h : continuesWord c) : ¬ Text.isBlank c := by
  intro hblank
  have hmark := continuesWord_of_mark c.toNat (Text.mem_markCodes_of_isBlank hblank)
  rw [Char.ofNat_toNat] at hmark
  simp [hmark] at h

theorem not_opensName_of_isBlank {c : Char} (h : Text.isBlank c) : ¬ opensName c := fun hname =>
  not_isBlank_of_continuesWord (continuesWord_of_opensName hname) h

/-! ### Side by side -/

def Parted (text : String) (first second : Token) : Prop :=
  ∃ place c, first.position + first.text.length ≤ place ∧ place < second.position ∧
    text.toList[place]? = some c ∧ Text.isBlank c

/-- A letter beyond ASCII stands at the place, and a character that begins a name as well stands behind it. -/
def NamesMeet (text : String) (place : Nat) : Prop :=
  ∃ c d, text.toList[place]? = some c ∧ text.toList[place + 1]? = some d ∧
    Text.isLetter c ∧ ¬ opensWord c ∧ opensName d

-- Two tokens of a text, one right after the other, and the characters from the first one on: its own, those of the
-- gap, those of the second token, and what is left.
structure Consecutive (text : String) (first second : Token) (chars gap chars' left : List Char) :
    Prop where
  text_first : first.text = String.ofList chars
  text_second : second.text = String.ofList chars'
  position_second : second.position = first.position + chars.length + gap.length
  drop_eq : text.toList.drop first.position = chars ++ (gap ++ (chars' ++ left))
  blank : ∀ c ∈ gap, Text.isBlank c
  taken_first : TakenBefore (gap ++ (chars' ++ left)) chars
  taken_second : TakenBefore left chars'

/-- Two neighbouring tokens have a stretch of blanks between them, which may be empty. -/
theorem exists_consecutive {text : String} {before after : List Token} {first second : Token}
    (h : ofText text = before ++ first :: second :: after) :
    ∃ chars gap chars' left, Consecutive text first second chars gap chars' left := by
  obtain ⟨skipped, hlaid⟩ := exists_laid_drop h
  generalize hcs : text.toList.drop skipped = cs at hlaid
  cases hlaid with
  | @token _ blanks chars _ _ _ hchars hleft =>
      cases hleft with
      | @token _ gap chars' left _ hgap hchars' _ =>
          refine ⟨chars, gap, chars', left, rfl, rfl, rfl, ?_, hgap, hchars, hchars'⟩
          rw [← List.drop_drop, hcs, List.drop_left]

namespace Consecutive

variable {text : String} {first second : Token} {chars gap chars' left : List Char}

theorem getElem?_toList (h : Consecutive text first second chars gap chars' left) (place : Nat) :
    text.toList[first.position + place]? = (chars ++ (gap ++ (chars' ++ left)))[place]? := by
  rw [← h.drop_eq, List.getElem?_drop]

/-- Neighbouring tokens are parted exactly if there are blanks between them. -/
theorem parted_iff (h : Consecutive text first second chars gap chars' left) :
    Parted text first second ↔ gap ≠ [] := by
  rw [Parted, h.text_first, String.length_ofList, h.position_second]
  constructor
  · rintro ⟨place, c, hafter, hbefore, -⟩ rfl
    rw [List.length_nil] at hbefore
    omega
  · intro hgap
    obtain ⟨c, rest, rfl⟩ := List.exists_cons_of_ne_nil hgap
    refine ⟨first.position + chars.length, c, Nat.le_refl _, ?_, ?_, h.blank c List.mem_cons_self⟩
    · rw [List.length_cons]
      omega
    · rw [h.getElem?_toList, List.getElem?_append_right (Nat.le_refl _)]
      simp

/-- Two names meet exactly if there are no blanks between them. -/
theorem namesMeet_iff (h : Consecutive text first second chars gap chars' left)
    (hfirst : first.isIdentifier) (hsecond : second.isIdentifier) :
    NamesMeet text first.position ↔ gap = [] := by
  obtain ⟨c, tail, rfl⟩ := h.taken_first.exists_cons
  obtain ⟨d, rest, rfl⟩ := h.taken_second.exists_cons
  rw [isIdentifier_of_text h.text_first] at hfirst
  rw [isIdentifier_of_text h.text_second] at hsecond
  have hhere : text.toList[first.position]? = some c := h.getElem?_toList 0
  have hnext : text.toList[first.position + 1]? = (tail ++ (gap ++ (d :: rest ++ left)))[0]? :=
    h.getElem?_toList 1
  cases h.taken_first with
  | word hopens _ hleft =>
      refine iff_of_false ?_ ?_
      · rintro ⟨c', d', hc', -, -, hnot, -⟩
        obtain rfl := Option.some.inj (hhere.symm.trans hc')
        exact hnot hopens
      · -- A word goes on until a character that begins no name either.
        rintro rfl
        exact hleft d rfl (continuesWord_of_opensName hsecond)
  | single _ hopens =>
      constructor
      · rintro ⟨c', d', -, hd', -, -, hname⟩
        cases gap with
        | nil => rfl
        | cons b others =>
            obtain rfl : b = d' := Option.some.inj (hnext.symm.trans hd')
            exact absurd hname (not_opensName_of_isBlank (h.blank b List.mem_cons_self))
      · rintro rfl
        exact ⟨c, d, hhere, hnext, isLetter_of_opensName hfirst hopens, hopens, hsecond⟩

end Consecutive

/-! ### Runs of word characters -/

def Ended (cs : List Char) : Prop :=
  ∀ c ∈ cs.getLast?, ¬ continuesWord c

structure Run (before run after : List Char) : Prop where
  ended : Ended before
  letter : ∃ c ∈ run.head?, Text.isLetter c
  continues : ∀ c ∈ run, continuesWord c
  apart : Apart after

theorem Ended.of_append {first second : List Char} (h : Ended (first ++ second)) :
    Ended second := by
  intro c hc
  rw [Option.mem_def] at hc
  refine h c ?_
  rw [Option.mem_def, List.getLast?_append, hc]
  rfl

/-- A text is also cut in two where a word has just ended. -/
theorem cut_append_of_ended {cs : List Char} (h : Ended cs) (rest : List Char) :
    cut (cs ++ rest) = cut cs ++ cut rest := by
  induction (0 : Nat), cs using scan.induct with
  | case1 position => rw [cut_nil, List.nil_append, List.nil_append]
  | case2 position c tail hblank ih =>
      have htail : Ended tail := Ended.of_append (show Ended ([c] ++ tail) from h)
      rw [List.cons_append, cut_cons_of_isBlank hblank, cut_cons_of_isBlank hblank, ih htail]
  | case3 position c tail hblank hopens taken ih =>
      -- The word that begins here ends within these characters.
      have hleft : tail.dropWhile continuesWord ≠ [] := by
        intro hnone
        rw [List.dropWhile_eq_nil_iff] at hnone
        have hall : ∀ d ∈ c :: tail, continuesWord d :=
          List.forall_mem_cons.mpr ⟨continuesWord_of_opensName (opensName_of_opensWord hopens), hnone⟩
        have hlast := List.getLast?_eq_some_getLast (List.cons_ne_nil c tail)
        exact h _ hlast (hall _ (List.getLast_mem _))
      have htaken : (tail ++ rest).takeWhile continuesWord = tail.takeWhile continuesWord := by
        rw [List.takeWhile_append, if_neg]
        intro hlength
        have hall := (List.takeWhile_prefix continuesWord).eq_of_length hlength
        exact hleft (List.dropWhile_eq_nil_iff.mpr (List.takeWhile_eq_self_iff.mp hall))
      have hdropped : (tail ++ rest).dropWhile continuesWord =
          tail.dropWhile continuesWord ++ rest := by
        rw [List.dropWhile_append, if_neg (by simpa using hleft)]
      have hended : Ended (tail.dropWhile continuesWord) := by
        have hsplit : c :: tail = (c :: tail.takeWhile continuesWord) ++
            tail.dropWhile continuesWord := by
          rw [List.cons_append, List.takeWhile_append_dropWhile]
        rw [hsplit] at h
        exact h.of_append
      rw [List.cons_append, cut_cons_of_opensWord hblank hopens, cut_cons_of_opensWord hblank hopens,
        htaken, hdropped, ih hended, List.cons_append]
  | case4 position c tail hblank hopens ih =>
      have htail : Ended tail := Ended.of_append (show Ended ([c] ++ tail) from h)
      rw [List.cons_append, cut_cons_of_not_opensWord hblank hopens,
        cut_cons_of_not_opensWord hblank hopens, ih htail, List.cons_append]

/-- A letter with word characters behind it stays in one piece exactly if it opens a word or stands alone. -/
theorem cut_eq_singleton_iff {c : Char} {tail : List Char} (hletter : Text.isLetter c)
    (htail : ∀ d ∈ tail, continuesWord d) :
    cut (c :: tail) = [String.ofList (c :: tail)] ↔ opensWord c ∨ tail = [] := by
  have hblank : ¬ Text.isBlank c := fun h =>
    not_opensName_of_isBlank h (by simp [opensName, hletter])
  by_cases hopens : opensWord c
  · rw [cut_cons_of_opensWord hblank hopens, List.takeWhile_eq_self_iff.mpr htail,
      List.dropWhile_eq_nil_iff.mpr htail, cut_nil]
    simp [hopens]
  · rw [cut_cons_of_not_opensWord hblank hopens]
    constructor
    · intro h
      have hword : [c] = c :: tail := by
        rw [← String.toList_singleton, (List.cons.inj h).1, String.toList_ofList]
      exact .inr (List.cons.inj hword).2.symm
    · rintro (h | rfl)
      · exact absurd h hopens
      · rw [cut_nil]
        rfl

/-- **Two names stand side by side only where a letter beyond ASCII begins a run of word characters**, and such a run is
read as one token only if it has no other characters. -/
theorem parted_iff_not_namesMeet (text : String) :
    (∀ before first second after, ofText text = before ++ first :: second :: after →
      first.isIdentifier → second.isIdentifier →
      (Parted text first second ↔ ¬ NamesMeet text first.position)) ∧
    ∀ before c tail after, Run before (c :: tail) after →
      text.toList = before ++ (c :: tail ++ after) →
      texts text = cut before ++ (cut (c :: tail) ++ cut after) ∧
        (cut (c :: tail) = [String.ofList (c :: tail)] ↔ opensWord c ∨ tail = []) := by
  refine ⟨fun before first second after h hfirst hsecond => ?_, fun before c tail after h htext => ?_⟩
  · obtain ⟨chars, gap, chars', left, hconsecutive⟩ := exists_consecutive h
    rw [hconsecutive.parted_iff, hconsecutive.namesMeet_iff hfirst hsecond]
  · obtain ⟨_, ⟨⟩, hletter⟩ := h.letter
    refine ⟨?_, cut_eq_singleton_iff hletter (List.forall_mem_cons.mp h.continues).2⟩
    rw [texts, htext, cut_append_of_ended h.ended, cut_append h.apart]

/-! ### The run `éa` at the beginning of a signature -/

namespace Accented

def first : Token :=
  ⟨"é", 0⟩

def second : Token :=
  ⟨"a", 1⟩

theorem opensName_accented : opensName 'é' := by
  have hletter : Text.isLetter 'é' := by decide +kernel
  simp [opensName, hletter]

set_option maxRecDepth 4000 in
/-- The run is read as a type and the name of an operation. -/
theorem not_parted_accented :
    ofText "éa()" = [] ++ first :: second :: [⟨"(", 2⟩, ⟨")", 3⟩] ∧
      first.isIdentifier ∧ second.isIdentifier ∧ ¬ Parted "éa()" first second ∧
      Run [] ['é', 'a'] ['(', ')'] ∧
      Signature.parse "éa()" [] = .ok ⟨"a", [], [], .declared "é" []⟩ := by
  have hplain : opensName 'a' := opensName_of_opensWord (by decide)
  have hrun : Run [] ['é', 'a'] ['(', ')'] := {
    ended := by rintro _ ⟨⟩
    letter := ⟨_, rfl, isLetter_of_opensName opensName_accented (by decide)⟩
    continues := by
      rw [List.forall_mem_cons, List.forall_mem_singleton]
      exact ⟨continuesWord_of_opensName opensName_accented, continuesWord_of_opensName hplain⟩
    apart := by rintro _ ⟨⟩; decide }
  refine ⟨by decide +kernel, (isIdentifier_of_text rfl).trans opensName_accented,
    (isIdentifier_of_text rfl).trans hplain, ?_, hrun, ?_⟩
  · rintro ⟨place, c, hafter, hbefore, -⟩
    have hlength : first.position + first.text.length = second.position := by decide
    omega
  · exact Signature.parse_eq_ok_iff.mpr (by decide +kernel)

end Accented

end BuilderFields.Token
