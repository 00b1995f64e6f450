import BuilderFields.Text.Quoted

/-!
# What can be wrong with a template

A template may be malformed by itself or for the kind of its argument, it may ask for arguments or parts
of them that do not exist, an argument may be of a kind that does not suit its place, and a number may be
too large for what it is to become.
-/

namespace BuilderFields

inductive MalformedTemplate
  | loneClosingBrace
  | loneOpeningBrace
  | braceInFieldName
  | unclosedField
  | unclosedSpec
  | missingConversion
  | strayAfterConversion
  | unknownConversion (mark : Char)
  | nestedTooDeep
  | numberTooLong
  | numberedAfterAutomatic
  | automaticAfterNumbered
  | emptyAccessor
  | unclosedItem
  | strayAfterItem
  | invalidSpec (spec kind : String)
  | twoSeparators
  | separatorWithCode (separator code : Char)
  | missingPrecision
  | unknownCode (code : Char) (kind : String)
  | signForText
  | blankSignForText
  | unsignedZeroForText
  | alternateForText
  | innerAlignForText
  | precisionForWhole
  | unsignedZeroForWhole
  | signForCharacter
  | alternateForCharacter
  | precisionTooBig
  | widthTooBig
  | incompleteDirective
  | incompleteKey
  | unknownDirective (code : Char) (place : Nat)
deriving Repr, DecidableEq

inductive UnsuitableArgument
  | withoutItems (kind : String)
  | kindWithoutItems (kind : String)
  | textItemNotNumbered
  | listItemNotNumbered
  | withoutSpec (kind : String)
  | notMapping
  | tooFew
  | tooMany
  | amountNotWhole
  | notReal (code : Char) (kind : String)
  | notWhole (code : Char) (kind : String)
  | notNumber (kind : String)
  | notCharacter
deriving Repr, DecidableEq

inductive ExcessiveNumber
  | character
  | characterCode
  | wholeForReal
  | infinite
  | width
  | precision
  | digitCount
deriving Repr, DecidableEq

inductive TemplateFault
  | malformed (cause : MalformedTemplate)
  | unsuitable (cause : UnsuitableArgument)
  | excessive (cause : ExcessiveNumber)
  | noSuchArgument (index : Nat)
  | noSuchCharacter
  | noSuchItem
  /-- A name or key, as it is shown. -/
  | noSuchKey (shown : String)
  | noSuchAttribute (owner name : String)
  | undefinedNumber
  /-- The text would be longer than any memory. -/
  | tooLong
deriving Repr, DecidableEq

def showMark (last : Nat) (c : Char) : String :=
  if 32 < c.toNat ∧ c.toNat ≤ last then String.singleton c
  else "\\x" ++ String.ofList (Nat.toDigits 16 c.toNat)

namespace MalformedTemplate

/-- The last character that stands for itself where an unknown conversion is reported. -/
def lastConversion : Nat := 126

def lastCode : Nat := 127

/-- A directive's character in a message; a question mark stands for those that are not printed. -/
def showDirective (c : Char) : String :=
  if 31 ≤ c.toNat ∧ c.toNat ≤ 126 then String.singleton c else "?"

def message : MalformedTemplate → String
  | loneClosingBrace => "Single '\x7d' encountered in format string"
  | loneOpeningBrace => "Single '\x7b' encountered in format string"
  | braceInFieldName => "unexpected '\x7b' in field name"
  | unclosedField => "expected '\x7d' before end of string"
  | unclosedSpec => "unmatched '\x7b' in format spec"
  | missingConversion => "end of string while looking for conversion specifier"
  | strayAfterConversion => "expected ':' after conversion specifier"
  | unknownConversion mark => "Unknown conversion specifier " ++ showMark lastConversion mark
  | nestedTooDeep => "Max string recursion exceeded"
  | numberTooLong => "Too many decimal digits in format string"
  | numberedAfterAutomatic =>
    "cannot switch from automatic field numbering to manual field specification"
  | automaticAfterNumbered =>
    "cannot switch from manual field specification to automatic field numbering"
  | emptyAccessor => "Empty attribute in format string"
  | unclosedItem => "Missing ']' in format string"
  | strayAfterItem => "Only '.' or '[' may follow ']' in format field specifier"
  | invalidSpec spec kind =>
    "Invalid format specifier '" ++ spec ++ "' for object of type '" ++ kind ++ "'"
  | twoSeparators => "Cannot specify both ',' and '_'."
  | separatorWithCode separator code =>
    "Cannot specify '" ++ String.singleton separator ++ "' with '" ++ showMark lastCode code ++ "'."
  | missingPrecision => "Format specifier missing precision"
  | unknownCode code kind =>
    "Unknown format code '" ++ showMark lastCode code ++ "' for object of type '" ++ kind ++ "'"
  | signForText => "Sign not allowed in string format specifier"
  | blankSignForText => "Space not allowed in string format specifier"
  | unsignedZeroForText => "Negative zero coercion (z) not allowed in string format specifier"
  | alternateForText => "Alternate form (#) not allowed in string format specifier"
  | innerAlignForText => "'=' alignment not allowed in string format specifier"
  | precisionForWhole => "Precision not allowed in integer format specifier"
  | unsignedZeroForWhole => "Negative zero coercion (z) not allowed in integer format specifier"
  | signForCharacter => "Sign not allowed with integer format specifier 'c'"
  | alternateForCharacter => "Alternate form (#) not allowed with integer format specifier 'c'"
  | precisionTooBig => "precision too big"
  | widthTooBig => "width too big"
  | incompleteDirective => "incomplete format"
  | incompleteKey => "incomplete format key"
  | unknownDirective code place =>
    "unsupported format character '" ++ showDirective code ++ "' (0x" ++
      String.ofList (Nat.toDigits 16 code.toNat) ++ ") at index " ++ toString place

end MalformedTemplate

namespace UnsuitableArgument

def message : UnsuitableArgument → String
  | withoutItems kind => "'" ++ kind ++ "' object is not subscriptable"
  | kindWithoutItems kind => "type '" ++ kind ++ "' is not subscriptable"
  | textItemNotNumbered => "string indices must be integers, not 'str'"
  | listItemNotNumbered => "list indices must be integers or slices, not str"
  | withoutSpec kind => "unsupported format string passed to " ++ kind ++ ".__format__"
  | notMapping => "format requires a mapping"
  | tooFew => "not enough arguments for format string"
  | tooMany => "not all arguments converted during string formatting"
  | amountNotWhole => "* wants int"
  | notReal code kind =>
    "%" ++ String.singleton code ++ " format: a real number is required, not " ++ kind
  | notWhole code kind =>
    "%" ++ String.singleton code ++ " format: an integer is required, not " ++ kind
  | notNumber kind => "must be real number, not " ++ kind
  | notCharacter => "%c requires int or char"

end UnsuitableArgument

namespace ExcessiveNumber

def message : ExcessiveNumber → String
  | character => "%c arg not in range(0x110000)"
  | characterCode => "Python int too large to convert to C long"
  | wholeForReal => "int too large to convert to float"
  | infinite => "cannot convert float infinity to integer"
  | width => "Python int too large to convert to C ssize_t"
  | precision => "Python int too large to convert to C int"
  | digitCount => "precision too large"

end ExcessiveNumber

namespace TemplateFault

def message : TemplateFault → String
  | malformed cause => cause.message
  | unsuitable cause => cause.message
  | excessive cause => cause.message
  | noSuchArgument index =>
    "Replacement index " ++ toString index ++ " out of range for positional args tuple"
  | noSuchCharacter => "string index out of range"
  | noSuchItem => "list index out of range"
  | noSuchKey shown => shown
  | noSuchAttribute owner name => owner ++ " has no attribute '" ++ name ++ "'"
  | undefinedNumber => "cannot convert float NaN to integer"
  | tooLong => ""

end TemplateFault

end BuilderFields
