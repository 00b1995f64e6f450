import BuilderFields.Taken

/-!
# Terminal controls

A control sequence for terminals starts with the escape character and an opening bracket, goes on with
digits, semicolons and question marks, and ends with a letter. It is no part of a text that is kept.
-/

namespace BuilderFields.Text

def isControlParameter (c : Char) : Bool :=
  c.isDigit || c = ';' || c = '?'

/-- The text without its control sequences; an escape character that starts none stays. -/
def dropControls (cs : List Char) : List Char :=
  match cs with
  | [] => []
  | '\x1b' :: '[' :: rest =>
    match _h : rest.dropWhile isControlParameter with
    | [] => '\x1b' :: '[' :: rest
    | final :: after =>
      if final.isAlpha then dropControls after else '\x1b' :: dropControls ('[' :: rest)
  | c :: rest => c :: dropControls rest
termination_by cs.length
decreasing_by
  · have hle := length_dropWhile_le isControlParameter rest
    rw [_h] at hle
    simp only [List.length_cons] at hle ⊢
    omega
  · exact Nat.lt_succ_self _
  · exact Nat.lt_succ_self _

def plainText (s : String) : String :=
  String.ofList (dropControls s.toList)

end BuilderFields.Text
