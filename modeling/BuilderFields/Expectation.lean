import BuilderFields.Token
import BuilderFields.Text.Quoted

/-!
# What the grammar wanted

Reading stops at the first token that no continuation of the tokens before it allows. The fault keeps
what was wanted there and the token that stood there instead, if any did. The position shown is that
token's, or the end of the text.
-/

namespace BuilderFields

inductive Expectation
  | token (text : String)
  | identifier
  | endOfText
  /-- The list of type parameters goes on or ends, but names no bound. -/
  | unboundedParameter
deriving Repr, DecidableEq

structure Fault where
  expectation : Expectation
  found : Option Token
deriving Repr, DecidableEq

namespace Fault

def foundText (fault : Fault) : Option String :=
  fault.found.map Token.text

def problem (fault : Fault) : String :=
  match fault.expectation with
  | .token wanted =>
    "expected " ++ Text.quote wanted ++ ", found " ++ Text.quoteOption fault.foundText
  | .identifier => "expected an identifier, found " ++ Text.quoteOption fault.foundText
  | .endOfText => "unexpected " ++ Text.quoteOption fault.foundText
  | .unboundedParameter => "bounded type parameters are not supported"

end Fault

structure SyntaxFault where
  text : String
  fault : Fault
deriving Repr, DecidableEq

namespace SyntaxFault

def position (error : SyntaxFault) : Nat :=
  match error.fault.found with
  | some token => token.position
  | none => error.text.length

def message (error : SyntaxFault) : String :=
  error.fault.problem ++ " at column " ++ toString error.position ++
    "\n  " ++ error.text ++
    "\n  " ++ String.ofList (List.replicate error.position ' ') ++ "^"

end SyntaxFault

end BuilderFields
