import BuilderFields.Json.Reader
import BuilderFields.Json.Writer
import BuilderFields.Proofs.Entries

/-!
# Reading what was written as JSON

The reader undoes the writer, whatever the indentation: the blanks that the writer puts between items and members are
skipped, and every escaped code unit stands for the character that it was written for, alone or as half of a surrogate
pair. This is shown for values without numbers, which are all that plans are written with.
-/

namespace BuilderFields.Json

inductive Plain : Json → Prop
  | null : Plain .null
  | truth (value) : Plain (.truth value)
  | text (value) : Plain (.text value)
  | array {items} (h : ∀ item ∈ items, Plain item) : Plain (.array items)
  | object {members} (hkeys : (members.map Prod.fst).Nodup) (h : ∀ member ∈ members, Plain member.2) :
      Plain (.object members)

attribute [simp] Plain.null Plain.truth Plain.text

@[simp]
theorem plain_array_iff {items : List Json} : Plain (.array items) ↔ ∀ item ∈ items, Plain item :=
  ⟨fun h => by cases h; assumption, .array⟩

@[simp]
theorem plain_object_iff {members : List (String × Json)} : Plain (.object members) ↔
    (members.map Prod.fst).Nodup ∧ ∀ member ∈ members, Plain member.2 :=
  ⟨fun h => by cases h; exact ⟨‹_›, ‹_›⟩, fun h => .object h.1 h.2⟩

def Yields {α : Type} {cs : List Char} (outcome : Except ReadFault (Taken cs α)) (value : α)
    (rest : List Char) : Prop :=
  ∃ taken, outcome = .ok taken ∧ taken.value = value ∧ taken.rest = rest

section Yields

variable {α β : Type} {cs cs' rest rest' : List Char} {value : α} {later : β}

theorem yields_ok {taken : Taken cs α} (hvalue : taken.value = value) (hrest : taken.rest = rest) :
    Yields (.ok taken) value rest :=
  ⟨taken, rfl, hvalue, hrest⟩

/-- What one reader leaves the next one reads. -/
theorem Yields.bind {outcome : Except ReadFault (Taken cs α)}
    {f : Taken cs α → Except ReadFault (Taken cs' β)} (h : Yields outcome value rest)
    (hf : ∀ taken : Taken cs α, taken.value = value → taken.rest = rest →
      Yields (f taken) later rest') : Yields (outcome >>= f) later rest' := by
  obtain ⟨taken, rfl, hvalue, hrest⟩ := h
  exact hf taken hvalue hrest

end Yields

/-! ### Blanks -/

/-- Skipping stops at the first character that is no space. -/
theorem rest_skipSpace {gap rest : List Char} {c : Char} (hgap : ∀ c ∈ gap, isSpace c)
    (hc : isSpace c = false) : (skipSpace (gap ++ c :: rest)).rest = c :: rest := by
  change (gap ++ c :: rest).dropWhile isSpace = c :: rest
  rw [List.dropWhile_append_of_pos hgap, List.dropWhile_cons_of_neg (by simp [hc])]

theorem isSpace_lineBreak (indent : Option Int) (level : Nat) :
    ∀ c ∈ lineBreak indent level, isSpace c := by
  intro c hc
  unfold lineBreak at hc
  split at hc
  · cases hc
  · rcases List.mem_cons.mp hc with rfl | hc
    · rfl
    · rw [List.eq_of_mem_replicate hc]
      rfl

theorem exists_separator (indent : Option Int) (level : Nat) :
    ∃ gap, separator indent level = ',' :: gap ∧ ∀ c ∈ gap, isSpace c := by
  unfold separator
  split
  · exact ⟨[' '], rfl, by simp [isSpace]⟩
  · exact ⟨_, rfl, isSpace_lineBreak _ level⟩

/-! ### Characters -/

section Characters

variable {opening tail chars rest : List Char} {letter c : Char}

theorem stringBody_quote : Yields (stringBody opening ('"' :: rest)) [] rest := by
  rw [stringBody.eq_def]
  exact yields_ok rfl rfl

theorem stringBody_plain (hquote : c ≠ '"') (hslash : c ≠ '\\') (hcontrol : ¬ c.toNat < 32)
    (h : Yields (stringBody opening tail) chars rest) :
    Yields (stringBody opening (c :: tail)) (c :: chars) rest := by
  rw [stringBody.eq_def]
  simp only [hquote, hslash, hcontrol, if_false]
  refine h.bind fun taken hvalue hrest => ?_
  exact yields_ok (by simp [hvalue]) (by simp [hrest])

theorem stringBody_escaped (hletter : letter ≠ 'u') (hshort : shortEscape? letter = some c)
    (h : Yields (stringBody opening tail) chars rest) :
    Yields (stringBody opening ('\\' :: letter :: tail)) (c :: chars) rest := by
  rw [stringBody.eq_def]
  simp only [hletter, hshort, if_false]
  refine h.bind fun taken hvalue hrest => ?_
  exact yields_ok (by simp [hvalue]) (by simp [hrest])

theorem stringBody_coded {digits : List Char} (hcode : Yields (unicodeEscape (digits ++ tail)) c tail)
    (h : Yields (stringBody opening tail) chars rest) :
    Yields (stringBody opening ('\\' :: 'u' :: (digits ++ tail))) (c :: chars) rest := by
  rw [stringBody.eq_def]
  simp only [if_true]
  refine hcode.bind fun taken hvalue hrest => ?_
  obtain ⟨char, left, hle⟩ := taken
  obtain rfl : char = c := hvalue
  obtain rfl : left = tail := hrest
  refine h.bind fun taken hvalue hrest => ?_
  exact yields_ok (by simp [hvalue]) (by simp [hrest])

theorem hexDigits_four (n : Nat) : Text.hexDigits 4 n =
    [Text.hexDigit (n / 16 / 16 / 16 % 16), Text.hexDigit (n / 16 / 16 % 16),
      Text.hexDigit (n / 16 % 16), Text.hexDigit (n % 16)] := rfl

theorem fourHexDigits?_of_lt {n : Nat} (h : n < 0x10000) :
    fourHexDigits? (Text.hexDigit (n / 16 / 16 / 16 % 16)) (Text.hexDigit (n / 16 / 16 % 16))
      (Text.hexDigit (n / 16 % 16)) (Text.hexDigit (n % 16)) = some n := by
  have hdigit : ∀ m, Text.hexValue? (Text.hexDigit (m % 16)) = some (m % 16) := fun m =>
    Text.hexValue?_hexDigit (Nat.mod_lt m (by decide))
  simp only [fourHexDigits?, hdigit, Option.bind_eq_bind, Option.bind_some, Option.some.injEq]
  omega

theorem unicodeEscape_unit {unit : Nat} (hunit : unit < 0xD800 ∨ 0xDFFF < unit)
    (hbasic : unit < 0x10000) (next : Char) (more : List Char) :
    Yields (unicodeEscape (Text.hexDigits 4 unit ++ next :: more)) (Char.ofNat unit)
      (next :: more) := by
  have hhigh : isHighSurrogate unit = false := by
    simp only [isHighSurrogate, Bool.and_eq_false_iff, decide_eq_false_iff_not]
    omega
  have hlow : isLowSurrogate unit = false := by
    simp only [isLowSurrogate, Bool.and_eq_false_iff, decide_eq_false_iff_not]
    omega
  simp only [hexDigits_four, List.cons_append, List.nil_append, unicodeEscape,
    fourHexDigits?_of_lt hbasic, hhigh, Bool.false_eq_true, if_false]
  exact yields_ok (by simp [Taken.drop, unitChar, hhigh, hlow]) rfl

/-- A pair of surrogates is read as the one character that it codes. -/
theorem unicodeEscape_pair (high low : Nat) (hhigh : 0xD800 ≤ high ∧ high ≤ 0xDBFF)
    (hlow : 0xDC00 ≤ low ∧ low ≤ 0xDFFF) (next : Char) (more : List Char) :
    Yields (unicodeEscape (Text.hexDigits 4 high ++ '\\' :: 'u' ::
        (Text.hexDigits 4 low ++ next :: more)))
      (Char.ofNat (joinSurrogates high low)) (next :: more) := by
  have hhigh' : isHighSurrogate high = true := by simpa [isHighSurrogate] using hhigh
  have hlow' : isLowSurrogate low = true := by simpa [isLowSurrogate] using hlow
  simp only [hexDigits_four, List.cons_append, List.nil_append, unicodeEscape,
    fourHexDigits?_of_lt (show high < 0x10000 by omega),
    fourHexDigits?_of_lt (show low < 0x10000 by omega), hhigh', hlow', if_true]
  exact yields_ok (by simp [Taken.drop]) (by simp [Taken.drop])

/-- A character is written as a short escape, as itself, or by its code. -/
theorem writeChar_cases (c : Char) :
    (∃ letter, writeChar c = ['\\', letter] ∧ letter ≠ 'u' ∧ shortEscape? letter = some c) ∨
      (writeChar c = [c] ∧ c ≠ '"' ∧ c ≠ '\\' ∧ ¬ c.toNat < 32) ∨
      writeChar c = escapeCode c.toNat := by
  unfold writeChar
  split_ifs with hquote hslash hline hreturn htab hback hfeed hprinted
  · exact Or.inl ⟨'"', rfl, by decide, by rw [hquote]; rfl⟩
  · exact Or.inl ⟨'\\', rfl, by decide, by rw [hslash]; rfl⟩
  · exact Or.inl ⟨'n', rfl, by decide, by rw [hline]; rfl⟩
  · exact Or.inl ⟨'r', rfl, by decide, by rw [hreturn]; rfl⟩
  · exact Or.inl ⟨'t', rfl, by decide, by rw [htab]; rfl⟩
  · exact Or.inl ⟨'b', rfl, by decide, by rw [hback]; rfl⟩
  · exact Or.inl ⟨'f', rfl, by decide, by rw [hfeed]; rfl⟩
  · have hspace : ' '.toNat ≤ c.toNat := hprinted.1
    exact Or.inr (Or.inl ⟨rfl, hquote, hslash, Nat.not_lt.mpr hspace⟩)
  · exact Or.inr (Or.inr rfl)

theorem escapeCode_of_lt {code : Nat} (h : code < 0x10000) :
    escapeCode code = '\\' :: 'u' :: Text.hexDigits 4 code :=
  if_pos h

theorem escapeCode_of_not_lt {code : Nat} (h : ¬ code < 0x10000) :
    escapeCode code = '\\' :: 'u' :: (Text.hexDigits 4 (0xD800 + (code - 0x10000) / 0x400) ++
      '\\' :: 'u' :: Text.hexDigits 4 (0xDC00 + (code - 0x10000) % 0x400)) :=
  if_neg h

/-- What is written for a character is read as that character, if something comes after it. -/
theorem stringBody_writeChar (c : Char) (htail : tail ≠ [])
    (h : Yields (stringBody opening tail) chars rest) :
    Yields (stringBody opening (writeChar c ++ tail)) (c :: chars) rest := by
  obtain ⟨next, more, rfl⟩ := List.exists_cons_of_ne_nil htail
  rcases writeChar_cases c with ⟨letter, hwrite, hletter, hshort⟩ |
    ⟨hwrite, hquote, hslash, hcontrol⟩ | hwrite
  · exact hwrite ▸ stringBody_escaped hletter hshort h
  · exact hwrite ▸ stringBody_plain hquote hslash hcontrol h
  · have hvalid : c.toNat < 0xD800 ∨ 0xDFFF < c.toNat ∧ c.toNat < 0x110000 := c.valid
    rw [hwrite]
    by_cases hbasic : c.toNat < 0x10000
    · have hunit := unicodeEscape_unit (hvalid.imp_right And.left) hbasic next more
      rw [Char.ofNat_toNat] at hunit
      rw [escapeCode_of_lt hbasic]
      exact stringBody_coded hunit h
    · have hpair := unicodeEscape_pair (0xD800 + (c.toNat - 0x10000) / 0x400)
        (0xDC00 + (c.toNat - 0x10000) % 0x400) (by omega) (by omega) next more
      have hjoined : joinSurrogates (0xD800 + (c.toNat - 0x10000) / 0x400)
          (0xDC00 + (c.toNat - 0x10000) % 0x400) = c.toNat := by
        unfold joinSurrogates
        omega
      rw [hjoined, Char.ofNat_toNat] at hpair
      rw [escapeCode_of_not_lt hbasic]
      refine stringBody_coded ?_ h
      rwa [List.append_assoc]

/-- An escaped text is read back character by character. -/
theorem stringBody_flatMap (body : List Char) :
    Yields (stringBody opening (body.flatMap writeChar ++ '"' :: rest)) body rest := by
  induction body with
  | nil => exact stringBody_quote
  | cons c more ih =>
      rw [List.flatMap_cons, List.append_assoc]
      exact stringBody_writeChar c (by simp) ih

end Characters

/-! ### Values -/

section Values

variable {indent : Option Int} {level : Nat} {rest : List Char}

theorem writeText_append (value : String) (rest : List Char) :
    writeText value ++ rest = '"' :: (value.toList.flatMap writeChar ++ '"' :: rest) := by
  simp [writeText]

theorem rest_skipSpace_writeText {gap : List Char} (hgap : ∀ c ∈ gap, isSpace c) (value : String)
    (rest : List Char) : (skipSpace (gap ++ (writeText value ++ rest))).rest = writeText value ++ rest := by
  rw [writeText_append]
  exact rest_skipSpace hgap rfl

/-- A written text is read back. -/
theorem value_writeText (text : String) :
    Yields (value (writeText text ++ rest)) (.text text) rest := by
  rw [writeText_append, value.eq_def]
  refine (stringBody_flatMap text.toList).bind fun taken hvalue hrest => ?_
  exact yields_ok (by simp [hvalue]) (by simp [hrest])

/-- A written key is read back, with the colon behind it. -/
theorem memberKey_writeText (key : String) {c : Char} (hc : isSpace c = false) :
    Yields (memberKey (writeText key ++ ':' :: ' ' :: c :: rest)) key (c :: rest) := by
  rw [writeText_append, memberKey.eq_def]
  refine (stringBody_flatMap key.toList).bind fun taken hvalue hrest => ?_
  obtain ⟨chars, left, hle⟩ := taken
  obtain rfl : chars = key.toList := hvalue
  obtain rfl : left = ':' :: ' ' :: c :: rest := hrest
  have hspace : (skipSpace (' ' :: c :: rest)).rest = c :: rest :=
    rest_skipSpace (List.forall_mem_singleton.mpr rfl) hc
  have hcolon : Yields (colon (skipSpace (':' :: ' ' :: c :: rest)).rest) () (c :: rest) := by
    change Yields (colon (':' :: ' ' :: c :: rest)) () (c :: rest)
    rw [colon]
    exact yields_ok rfl hspace
  refine hcolon.bind fun mark _ hmark => ?_
  exact yields_ok (by simp) (by simp [hmark])

-- The characters read as this value whatever comes after them, and they start with one that is neither blank, nor a
-- closing bracket, nor a byte order mark.
structure Writes (chars : List Char) (json : Json) : Prop where
  head : ∃ c tail, chars = c :: tail ∧ isSpace c = false ∧ c ≠ ']' ∧ c ≠ '\uFEFF'
  reads : ∀ rest, Yields (value (chars ++ rest)) json rest

theorem Writes.rest_skipSpace {chars gap : List Char} {json : Json} (h : Writes chars json)
    (hgap : ∀ c ∈ gap, isSpace c) (rest : List Char) :
    (skipSpace (gap ++ (chars ++ rest))).rest = chars ++ rest := by
  obtain ⟨c, tail, rfl, hc, -, -⟩ := h.head
  exact Json.rest_skipSpace hgap hc

theorem Writes.items {chars tail : List Char} {json : Json} {others : List Json}
    (h : Writes chars json)
    (hafter : Yields (itemsAfter (skipSpace tail).rest) others rest) :
    Yields (items (chars ++ tail)) (json :: others) rest := by
  rw [items.eq_def]
  refine (h.reads tail).bind fun taken hvalue hrest => ?_
  obtain ⟨first, left, hle⟩ := taken
  obtain rfl : first = json := hvalue
  obtain rfl : left = tail := hrest
  refine hafter.bind fun taken hvalue hrest => ?_
  exact yields_ok (by simp [hvalue]) (by simp [hrest])

theorem Writes.members {chars tail : List Char} {json : Json} {others : List (String × Json)}
    (h : Writes chars json) (key : String)
    (hafter : Yields (membersAfter (skipSpace tail).rest) others rest) :
    Yields (members (writeText key ++ ':' :: ' ' :: (chars ++ tail))) ((key, json) :: others)
      rest := by
  have hread := h.reads tail
  obtain ⟨c, more, rfl, hc, -, -⟩ := h.head
  rw [members.eq_def]
  refine (memberKey_writeText key hc).bind fun taken hvalue hrest => ?_
  obtain ⟨name, left, hle⟩ := taken
  obtain rfl : name = key := hvalue
  obtain rfl : left = c :: (more ++ tail) := hrest
  refine hread.bind fun taken hvalue hrest => ?_
  obtain ⟨first, left, hle⟩ := taken
  obtain rfl : first = json := hvalue
  obtain rfl : left = tail := hrest
  refine hafter.bind fun taken hvalue hrest => ?_
  exact yields_ok (by simp [hvalue]) (by simp [hrest])

/-- Written items are read back, if each of them is. -/
theorem itemsAfter_writeItems {closing : List Char} (hclosing : ∀ c ∈ closing, isSpace c)
    {items : List Json} (hitems : ∀ item ∈ items, Writes (writeAt indent level item) item) :
    Yields (itemsAfter (skipSpace (writeItems indent level items ++ (closing ++ ']' :: rest))).rest)
      items rest := by
  induction items with
  | nil =>
      rw [writeItems, List.nil_append, rest_skipSpace hclosing rfl, itemsAfter.eq_def]
      exact yields_ok rfl rfl
  | cons item more ih =>
      rw [List.forall_mem_cons] at hitems
      obtain ⟨gap, hseparator, hgap⟩ := exists_separator indent level
      rw [writeItems, hseparator, List.append_assoc, List.append_assoc, List.cons_append]
      change Yields (itemsAfter (',' :: (gap ++ (writeAt indent level item ++ _)))) _ rest
      rw [itemsAfter.eq_def]
      have hmore := hitems.1.items (ih hitems.2)
      rw [← hitems.1.rest_skipSpace hgap] at hmore
      refine hmore.bind fun taken hvalue hrest => ?_
      exact yields_ok (by simp [hvalue]) (by simp [hrest])

/-- Written members are read back, if each of them is. -/
theorem membersAfter_writeMembers {closing : List Char} (hclosing : ∀ c ∈ closing, isSpace c)
    {members : List (String × Json)}
    (hmembers : ∀ member ∈ members, Writes (writeAt indent level member.2) member.2) :
    Yields (membersAfter
      (skipSpace (writeMembers indent level members ++ (closing ++ '\x7d' :: rest))).rest)
      members rest := by
  induction members with
  | nil =>
      rw [writeMembers, List.nil_append, rest_skipSpace hclosing rfl, membersAfter.eq_def]
      exact yields_ok rfl rfl
  | cons member more ih =>
      obtain ⟨key, json⟩ := member
      rw [List.forall_mem_cons] at hmembers
      obtain ⟨gap, hseparator, hgap⟩ := exists_separator indent level
      have hmore := hmembers.1.members key (ih hmembers.2)
      rw [← rest_skipSpace_writeText hgap key] at hmore
      have hwritten : writeMembers indent level ((key, json) :: more) ++ (closing ++ '\x7d' :: rest) =
          ',' :: (gap ++ (writeText key ++ ':' :: ' ' :: (writeAt indent level json ++
            (writeMembers indent level more ++ (closing ++ '\x7d' :: rest))))) := by
        simp [writeMembers, hseparator]
      rw [hwritten]
      change Yields (membersAfter (',' :: _)) _ rest
      rw [membersAfter.eq_def]
      refine hmore.bind fun taken hvalue hrest => ?_
      exact yields_ok (by simp [hvalue]) (by simp [hrest])

theorem value_word {word : String} {json : Json} {c : Char} {tail : List Char}
    (hword : word.toList = c :: tail) (hquote : c ≠ '"') (hbrace : c ≠ '\x7b') (hbracket : c ≠ '[')
    (h : word? (word.toList ++ rest) = some (word, json)) :
    Yields (value (word.toList ++ rest)) json rest := by
  have hlength : word.length = (c :: tail).length := by rw [← hword, String.length_toList]
  rw [hword, List.cons_append] at h ⊢
  rw [value.eq_def]
  simp only [hquote, hbrace, hbracket, if_false, h]
  refine yields_ok rfl ?_
  change (c :: (tail ++ rest)).drop word.length = rest
  rw [hlength, ← List.cons_append, List.drop_left]

theorem writes_null : Writes (writeAt indent level .null) .null := by
  rw [writeAt]
  exact ⟨⟨'n', _, rfl, rfl, by decide, by decide⟩, fun rest =>
    value_word rfl (by decide) (by decide) (by decide) (by simp [word?, words])⟩

theorem writes_truth (value : Bool) : Writes (writeAt indent level (.truth value)) (.truth value) := by
  rw [writeAt]
  cases value with
  | true =>
      exact ⟨⟨'t', _, rfl, rfl, by decide, by decide⟩, fun rest =>
        value_word rfl (by decide) (by decide) (by decide) (by simp [word?, words])⟩
  | false =>
      exact ⟨⟨'f', _, rfl, rfl, by decide, by decide⟩, fun rest =>
        value_word rfl (by decide) (by decide) (by decide) (by simp [word?, words])⟩

theorem writes_text (text : String) : Writes (writeAt indent level (.text text)) (.text text) := by
  rw [writeAt]
  exact ⟨⟨'"', _, rfl, rfl, by decide, by decide⟩, fun rest => value_writeText text⟩

theorem value_array {tail : List Char} {items : List Json}
    (h : Yields (itemsOrNone (skipSpace tail).rest) items rest) :
    Yields (value ('[' :: tail)) (.array items) rest := by
  rw [value.eq_def]
  refine h.bind fun taken hvalue hrest => ?_
  exact yields_ok (by simp [hvalue]) (by simp [hrest])

theorem value_object {tail : List Char} {members : List (String × Json)}
    (hkeys : (members.map Prod.fst).Nodup)
    (h : Yields (membersOrNone (skipSpace tail).rest) members rest) :
    Yields (value ('\x7b' :: tail)) (.object members) rest := by
  rw [value.eq_def]
  refine h.bind fun taken hvalue hrest => ?_
  exact yields_ok (by simp [hvalue, Entries.ofList_eq_self hkeys]) (by simp [hrest])

/-- A written list is read back. -/
theorem writes_array {items : List Json}
    (h : ∀ item ∈ items, Writes (writeAt indent (level + 1) item) item) :
    Writes (writeAt indent level (.array items)) (.array items) := by
  cases items with
  | nil =>
      rw [writeAt]
      refine ⟨⟨'[', _, rfl, rfl, by decide, by decide⟩, fun rest => value_array ?_⟩
      change Yields (itemsOrNone (']' :: rest)) [] rest
      rw [itemsOrNone.eq_def]
      exact yields_ok rfl rfl
  | cons item more =>
      rw [List.forall_mem_cons] at h
      rw [writeAt]
      refine ⟨⟨'[', _, rfl, rfl, by decide, by decide⟩, fun rest => ?_⟩
      have hitems : Yields (items (writeAt indent (level + 1) item ++
          (writeItems indent (level + 1) more ++ (lineBreak indent level ++ ']' :: rest))))
          (item :: more) rest :=
        h.1.items (itemsAfter_writeItems (isSpace_lineBreak indent level) h.2)
      obtain ⟨c, tail, hfirst, -, hc, -⟩ := h.1.head
      -- The closing bracket has to come before the rest, since the items are read up to it.
      have hwritten : '[' :: (lineBreak indent (level + 1) ++ writeAt indent (level + 1) item ++
            writeItems indent (level + 1) more ++ lineBreak indent level ++ [']']) ++ rest =
          '[' :: (lineBreak indent (level + 1) ++ (writeAt indent (level + 1) item ++
            (writeItems indent (level + 1) more ++ (lineBreak indent level ++ ']' :: rest)))) := by
        simp
      rw [hwritten]
      refine value_array ?_
      rw [h.1.rest_skipSpace (isSpace_lineBreak indent (level + 1))]
      rw [hfirst, List.cons_append] at hitems ⊢
      rw [itemsOrNone.eq_def]
      simpa only [hc, if_false] using hitems

/-- A written object is read back. -/
theorem writes_object {members : List (String × Json)} (hkeys : (members.map Prod.fst).Nodup)
    (h : ∀ member ∈ members, Writes (writeAt indent (level + 1) member.2) member.2) :
    Writes (writeAt indent level (.object members)) (.object members) := by
  cases members with
  | nil =>
      rw [writeAt]
      refine ⟨⟨'\x7b', _, rfl, rfl, by decide, by decide⟩, fun rest => value_object hkeys ?_⟩
      change Yields (membersOrNone ('\x7d' :: rest)) [] rest
      rw [membersOrNone.eq_def]
      exact yields_ok rfl rfl
  | cons member more =>
      obtain ⟨key, json⟩ := member
      rw [List.forall_mem_cons] at h
      rw [writeAt]
      refine ⟨⟨'\x7b', _, rfl, rfl, by decide, by decide⟩, fun rest => ?_⟩
      have hmembers : Yields (Json.members (writeText key ++ ':' :: ' ' ::
          (writeAt indent (level + 1) json ++ (writeMembers indent (level + 1) more ++
            (lineBreak indent level ++ '\x7d' :: rest))))) ((key, json) :: more) rest :=
        h.1.members key (membersAfter_writeMembers (isSpace_lineBreak indent level) h.2)
      have hwritten : '\x7b' :: (lineBreak indent (level + 1) ++ writeText key ++ [':', ' '] ++
            writeAt indent (level + 1) json ++ writeMembers indent (level + 1) more ++
            lineBreak indent level ++ ['\x7d']) ++ rest =
          '\x7b' :: (lineBreak indent (level + 1) ++ (writeText key ++ ':' :: ' ' ::
            (writeAt indent (level + 1) json ++ (writeMembers indent (level + 1) more ++
              (lineBreak indent level ++ '\x7d' :: rest))))) := by
        simp
      rw [hwritten]
      refine value_object hkeys ?_
      rw [rest_skipSpace_writeText (isSpace_lineBreak indent (level + 1))]
      rw [writeText_append] at hmembers ⊢
      rw [membersOrNone.eq_def]
      exact hmembers

/-- Every plain value is read back from what is written for it. -/
theorem Plain.writes {json : Json} (h : json.Plain) (indent : Option Int) (level : Nat) :
    Writes (writeAt indent level json) json := by
  induction h generalizing level with
  | null => exact writes_null
  | truth value => exact writes_truth value
  | text value => exact writes_text value
  | array _ ih => exact writes_array fun item hitem => ih item hitem (level + 1)
  | object hkeys _ ih => exact writes_object hkeys fun member hmember => ih member hmember (level + 1)

end Values

/-- **What was written is read back**, whatever the indentation. -/
theorem parse_write {json : Json} (h : json.Plain) (indent : Option Int) :
    Json.parse (Json.write indent json) = .ok json := by
  have hwrites := h.writes indent 0
  have hread := hwrites.reads []
  have hspace := hwrites.rest_skipSpace (List.forall_mem_nil _) []
  obtain ⟨c, tail, hfirst, -, -, hmark⟩ := hwrites.head
  rw [List.append_nil] at hread hspace
  rw [List.nil_append] at hspace
  rw [← hspace] at hread
  obtain ⟨taken, hread, hvalue, hrest⟩ := hread
  have hend : (skipSpace taken.rest).rest = [] := by rw [hrest]; rfl
  have hhead : (writeAt indent 0 json).head? ≠ some '\uFEFF' := by simp [hfirst, hmark]
  have htext : (Json.write indent json).toList = writeAt indent 0 json := String.toList_ofList
  simp only [Json.parse]
  rw [htext, if_neg hhead, hread]
  simp only [hend, hvalue]

end BuilderFields.Json
