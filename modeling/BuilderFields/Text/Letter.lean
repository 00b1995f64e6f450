import BuilderFields.Text.LetterTable
import BuilderFields.Text.NumeralTable

/-!
# Letters and word characters

A letter may begin a name and a word character may continue one. Within ASCII both are decided by
rule; beyond it the tables of Unicode 14 decide.
-/

namespace BuilderFields.Text

def covers (ranges : List (Nat × Nat)) (code : Nat) : Bool :=
  ranges.any fun range => range.1 ≤ code && code ≤ range.2

def isLetter (c : Char) : Bool :=
  if c.toNat < 128 then c.isAlpha else covers letterRanges c.toNat

def isNumeral (c : Char) : Bool :=
  if c.toNat < 128 then c.isDigit else covers numeralRanges c.toNat

def isWordChar (c : Char) : Bool :=
  isLetter c || isNumeral c || c = '_'

theorem covers_iff {ranges : List (Nat × Nat)} {code : Nat} :
    covers ranges code = true ↔ ∃ range ∈ ranges, range.1 ≤ code ∧ code ≤ range.2 := by
  simp [covers]

theorem isLetter_of_isAlpha {c : Char} (h : c.isAlpha = true) : isLetter c = true := by
  have hcase : (c.isUpper || c.isLower) = true := h
  have hascii : c.toNat < 128 := by
    rcases Bool.or_eq_true_iff.1 hcase with hupper | hlower
    · have hle : c.toNat ≤ 90 := (of_decide_eq_true hupper).2
      omega
    · have hle : c.toNat ≤ 122 := of_decide_eq_true (Bool.and_eq_true_iff.1 hlower).2
      omega
  rw [isLetter, if_pos hascii, h]

end BuilderFields.Text
