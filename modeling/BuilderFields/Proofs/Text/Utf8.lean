import BuilderFields.CommandLine

/-!
# Files of ASCII text

A file whose bytes are the codes of ASCII characters is read as these characters, wherever it stands in the file. It is
read as it is if it has no carriage return.
-/

namespace BuilderFields

namespace Text

def asciiBytes (cs : List Char) : List UInt8 :=
  cs.map fun c => UInt8.ofNat c.toNat

/-- Characters below 128 are decoded one byte each. -/
theorem decodeUtf8From_asciiBytes {cs : List Char} (h : ∀ c ∈ cs, c.toNat < 0x80) (position : Nat) :
    decodeUtf8From position (asciiBytes cs) = .ok cs := by
  induction cs generalizing position with
  | nil =>
      rw [asciiBytes, List.map_nil, decodeUtf8From]
  | cons c rest ih =>
      rw [List.forall_mem_cons] at h
      have hbyte : (UInt8.ofNat c.toNat).toNat = c.toNat := by
        rw [UInt8.toNat_ofNat']
        exact Nat.mod_eq_of_lt (by omega)
      have hcount : continuationCount? (UInt8.ofNat c.toNat) = some 0 := by
        simp [continuationCount?, hbyte, h.1]
      have hbits : startBits (UInt8.ofNat c.toNat) = c.toNat := by
        simp [startBits, hbyte, h.1]
      have hrest := ih h.2 (position + 1 + 0)
      rw [asciiBytes, List.map_cons, decodeUtf8From, hcount]
      simp only [continuing, if_true, List.take_zero, List.foldl_nil, List.drop_zero, hbits,
        Char.ofNat_toNat]
      rw [← asciiBytes, hrest]
      rfl

theorem unifyLineEnds_eq_self {cs : List Char} (h : '\r' ∉ cs) : unifyLineEnds cs = cs := by
  fun_induction unifyLineEnds cs with
  | case1 => rfl
  | case2 rest ih => simp at h
  | case3 rest _ ih => simp at h
  | case4 c rest hpair hreturn ih => rw [ih fun hmem => h (List.mem_cons_of_mem c hmem)]

end Text

theorem CommandLine.decodeText_asciiBytes {text : String}
    (hascii : ∀ c ∈ text.toList, c.toNat < 0x80) (hreturn : '\r' ∉ text.toList) :
    decodeText (Text.asciiBytes text.toList) = .ok text := by
  rw [decodeText, Text.decodeUtf8, Text.decodeUtf8From_asciiBytes hascii]
  simp only [Except.map, Text.unifyLineEnds_eq_self hreturn, String.ofList_toList]

end BuilderFields
