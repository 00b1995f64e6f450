import BuilderFields.Taken
import BuilderFields.Text.Blank
import BuilderFields.Text.Letter

/-!
# Tokens

The text of a type or of a signature is cut into tokens before it is read. A token is a word (an ASCII
letter, underscore or dollar sign with every word character and dollar sign after it) or a single
character that opens no word. Blanks separate tokens and belong to none. Each token keeps the position
at which it starts.
-/

namespace BuilderFields

structure Token where
  text : String
  position : Nat
deriving Repr, DecidableEq

namespace Token

/-- Words are opened by ASCII letters only, although any letter may continue them. -/
def opensWord (c : Char) : Bool :=
  c.isAlpha || c = '_' || c = '$'

def continuesWord (c : Char) : Bool :=
  Text.isWordChar c || c = '$'

def isIdentifier (token : Token) : Bool :=
  match token.text.toList with
  | [] => false
  | c :: _ => Text.isLetter c || c = '_' || c = '$'

def scan (position : Nat) (cs : List Char) : List Token :=
  match cs with
  | [] => []
  | c :: rest =>
    if Text.isBlank c then
      scan (position + 1) rest
    else if opensWord c then
      let tail := rest.takeWhile continuesWord
      ⟨String.ofList (c :: tail), position⟩ ::
        scan (position + 1 + tail.length) (rest.dropWhile continuesWord)
    else
      ⟨String.singleton c, position⟩ :: scan (position + 1) rest
termination_by cs.length
decreasing_by
  · simp
  · exact Nat.lt_succ_of_le (length_dropWhile_le continuesWord rest)
  · simp

def ofText (text : String) : List Token :=
  scan 0 text.toList

end Token

end BuilderFields
