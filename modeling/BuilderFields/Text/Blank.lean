/-!
# Blanks

The characters that separate tokens and that are trimmed from the ends of a text: the bidirectional
separators and the space separators of Unicode 14. Trimming removes blanks at both ends and nothing else.
-/

namespace BuilderFields.Text

def isBlank (c : Char) : Bool :=
  let code := c.toNat
  (9 ≤ code && code ≤ 13) || (28 ≤ code && code ≤ 32) || code = 0x85 || code = 0xA0 ||
    code = 0x1680 || (0x2000 ≤ code && code ≤ 0x200A) || code = 0x2028 || code = 0x2029 ||
    code = 0x202F || code = 0x205F || code = 0x3000

theorem isBlank_of_isWhitespace {c : Char} (h : c.isWhitespace = true) : isBlank c = true := by
  simp only [Char.isWhitespace, Bool.or_eq_true, decide_eq_true_eq] at h
  rcases h with ((rfl | rfl) | rfl) | rfl <;> decide

def trimBlanks (cs : List Char) : List Char :=
  (((cs.dropWhile isBlank).reverse).dropWhile isBlank).reverse

/-- The pieces of a text between the separators, which are dropped. There is always one piece. -/
def splitOnChar (separator : Char) : List Char → List (List Char)
  | [] => [[]]
  | c :: rest =>
    if c = separator then
      [] :: splitOnChar separator rest
    else
      match splitOnChar separator rest with
      | [] => [[c]]
      | piece :: pieces => (c :: piece) :: pieces

theorem splitOnChar_ne_nil (separator : Char) (cs : List Char) : splitOnChar separator cs ≠ [] := by
  cases cs with
  | nil => simp [splitOnChar]
  | cons c rest =>
    unfold splitOnChar
    split
    · simp
    · split <;> simp

/-- Joining the pieces with the separator gives the text back. -/
theorem intercalate_splitOnChar (separator : Char) (cs : List Char) :
    [separator].intercalate (splitOnChar separator cs) = cs := by
  induction cs with
  | nil => rfl
  | cons c rest ih =>
    rcases hsplit : splitOnChar separator rest with _ | ⟨piece, pieces⟩
    · exact absurd hsplit (splitOnChar_ne_nil separator rest)
    · rw [hsplit] at ih
      by_cases heq : c = separator
      · subst heq
        simp [splitOnChar, hsplit, List.intercalate] at ih ⊢
        exact ih
      · simp only [splitOnChar, heq, if_false, hsplit]
        cases pieces with
        | nil => simpa [List.intercalate] using ih
        | cons next others =>
          simp [List.intercalate] at ih ⊢
          exact ih

end BuilderFields.Text
