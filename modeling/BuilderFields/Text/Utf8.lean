import BuilderFields.Text.Hex

/-!
# Decoding UTF-8

Bytes are decoded strictly: no overlong forms, no surrogates, nothing beyond the last code point. A fault
names the bytes that are wrong, which are a lone byte that starts nothing, a sequence up to the byte that
does not continue it, or a sequence that the end cuts off.
-/

namespace BuilderFields.Text

inductive Utf8Problem
  | startByte
  | continuationByte
  | unexpectedEnd
deriving Repr, DecidableEq

structure Utf8Fault where
  problem : Utf8Problem
  /-- How many bytes precede the wrong ones. -/
  position : Nat
  /-- The wrong bytes. -/
  bytes : List UInt8
deriving Repr, DecidableEq

def Utf8Problem.text : Utf8Problem → String
  | .startByte => "invalid start byte"
  | .continuationByte => "invalid continuation byte"
  | .unexpectedEnd => "unexpected end of data"

def Utf8Fault.message (fault : Utf8Fault) : String :=
  let place :=
    match fault.bytes with
    | [byte] =>
      "byte 0x" ++ String.ofList (hexDigits 2 byte.toNat) ++ " in position " ++
        toString fault.position
    | bytes =>
      "bytes in position " ++ toString fault.position ++ "-" ++
        toString (fault.position + bytes.length - 1)
  "'utf-8' codec can't decode " ++ place ++ ": " ++ fault.problem.text

def continuationCount? (start : UInt8) : Option Nat :=
  let n := start.toNat
  if n < 0x80 then some 0
  else if n < 0xC2 then none
  else if n < 0xE0 then some 1
  else if n < 0xF0 then some 2
  else if n < 0xF5 then some 3
  else none

/-- The range of the second byte, which excludes overlong forms, surrogates and too large codes. -/
def secondRange (start : UInt8) : Nat × Nat :=
  match start.toNat with
  | 0xE0 => (0xA0, 0xBF)
  | 0xED => (0x80, 0x9F)
  | 0xF0 => (0x90, 0xBF)
  | 0xF4 => (0x80, 0x8F)
  | _ => (0x80, 0xBF)

def startBits (start : UInt8) : Nat :=
  let n := start.toNat
  if n < 0x80 then n
  else if n < 0xE0 then n - 0xC0
  else if n < 0xF0 then n - 0xE0
  else n - 0xF0

def continuing (range : Nat × Nat) : Nat → List UInt8 → Nat
  | 0, _ => 0
  | _, [] => 0
  | wanted + 1, byte :: rest =>
    if range.1 ≤ byte.toNat ∧ byte.toNat ≤ range.2 then
      continuing (0x80, 0xBF) wanted rest + 1
    else
      0

def decodeUtf8From (position : Nat) (bytes : List UInt8) : Except Utf8Fault (List Char) :=
  match bytes with
  | [] => .ok []
  | start :: rest =>
    match continuationCount? start with
    | none => .error ⟨.startByte, position, [start]⟩
    | some wanted =>
      let found := continuing (secondRange start) wanted rest
      if found = wanted then do
        let code :=
          (rest.take wanted).foldl (fun code byte => code * 64 + (byte.toNat - 0x80)) (startBits start)
        let chars ← decodeUtf8From (position + 1 + wanted) (rest.drop wanted)
        .ok (Char.ofNat code :: chars)
      else if found = rest.length then
        .error ⟨.unexpectedEnd, position, start :: rest⟩
      else
        .error ⟨.continuationByte, position, start :: rest.take found⟩
termination_by bytes.length
decreasing_by
  simp only [List.length_cons, List.length_drop]
  omega

def decodeUtf8 (bytes : List UInt8) : Except Utf8Fault (List Char) :=
  decodeUtf8From 0 bytes

end BuilderFields.Text
