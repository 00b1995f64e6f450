import BuilderFields.Proofs.Json.Reading

/-!
# What JSON is written with

A value without numbers is written with ASCII characters and without carriage returns, whatever its strings hold. So a
file of these characters is read back as they are.
-/

namespace BuilderFields.Json

/-- An ASCII character that no reader of text files changes. -/
def IsSafe (c : Char) : Prop :=
  c.toNat < 0x80 ∧ c ≠ '\r'

instance : DecidablePred IsSafe := fun c =>
  inferInstanceAs (Decidable (c.toNat < 0x80 ∧ c ≠ '\r'))

/-- A list of given characters is checked item by item, since the quantifier would be decided over all characters. -/
theorem isSafe_of_all {cs : List Char} (h : cs.all fun c => IsSafe c) : ∀ c ∈ cs, IsSafe c :=
  fun c hc => of_decide_eq_true (List.all_eq_true.mp h c hc)

theorem isSafe_hexDigits (width n : Nat) : ∀ c ∈ Text.hexDigits width n, IsSafe c := by
  have hdigit : ∀ m ∈ List.range 16, IsSafe (Text.hexDigit m) := by decide
  induction width generalizing n with
  | zero => exact List.forall_mem_nil _
  | succ width ih =>
      refine List.forall_mem_append.mpr ⟨ih (n / 16), List.forall_mem_singleton.mpr ?_⟩
      exact hdigit _ (List.mem_range.mpr (Nat.mod_lt n (by decide)))

theorem isSafe_escapeCode (code : Nat) : ∀ c ∈ escapeCode code, IsSafe c := by
  have hunit : ∀ n, ∀ c ∈ '\\' :: 'u' :: Text.hexDigits 4 n, IsSafe c := fun n =>
    List.forall_mem_cons.mpr ⟨by decide, List.forall_mem_cons.mpr ⟨by decide, isSafe_hexDigits 4 n⟩⟩
  unfold escapeCode
  split
  · exact hunit code
  · exact List.forall_mem_append.mpr ⟨hunit _, hunit _⟩

/-- A character is written with safe characters, as an escape if need be. -/
theorem isSafe_writeChar (c : Char) : ∀ d ∈ writeChar c, IsSafe d := by
  unfold writeChar
  split_ifs with hquote hslash hline hreturn htab hback hfeed hprinted
  iterate 7 exact isSafe_of_all rfl
  · have hlast : c.toNat ≤ '~'.toNat := hprinted.2
    exact List.forall_mem_singleton.mpr ⟨Nat.lt_of_le_of_lt hlast (by decide), hreturn⟩
  · exact isSafe_escapeCode c.toNat

theorem isSafe_writeText (value : String) : ∀ c ∈ writeText value, IsSafe c := by
  refine List.forall_mem_cons.mpr ⟨by decide, List.forall_mem_append.mpr ⟨?_, isSafe_of_all rfl⟩⟩
  intro c hc
  obtain ⟨d, -, hmem⟩ := List.mem_flatMap.mp hc
  exact isSafe_writeChar d c hmem

variable {indent : Option Int} {level : Nat}

theorem isSafe_lineBreak : ∀ c ∈ lineBreak indent level, IsSafe c := by
  unfold lineBreak
  split
  · exact List.forall_mem_nil _
  · refine List.forall_mem_cons.mpr ⟨by decide, fun c hc => ?_⟩
    rw [List.eq_of_mem_replicate hc]
    decide

theorem isSafe_separator : ∀ c ∈ separator indent level, IsSafe c := by
  unfold separator
  split
  · exact isSafe_of_all rfl
  · exact List.forall_mem_cons.mpr ⟨by decide, isSafe_lineBreak⟩

theorem isSafe_writeItems {items : List Json}
    (h : ∀ item ∈ items, ∀ c ∈ writeAt indent level item, IsSafe c) :
    ∀ c ∈ writeItems indent level items, IsSafe c := by
  induction items with
  | nil =>
      rw [writeItems]
      exact List.forall_mem_nil _
  | cons item rest ih =>
      rw [List.forall_mem_cons] at h
      rw [writeItems, List.forall_mem_append, List.forall_mem_append]
      exact ⟨⟨isSafe_separator, h.1⟩, ih h.2⟩

theorem isSafe_writeMembers {members : List (String × Json)}
    (h : ∀ member ∈ members, ∀ c ∈ writeAt indent level member.2, IsSafe c) :
    ∀ c ∈ writeMembers indent level members, IsSafe c := by
  induction members with
  | nil =>
      rw [writeMembers]
      exact List.forall_mem_nil _
  | cons member rest ih =>
      rw [List.forall_mem_cons] at h
      simp only [writeMembers, List.forall_mem_append]
      exact ⟨⟨⟨⟨isSafe_separator, isSafe_writeText _⟩, isSafe_of_all rfl⟩, h.1⟩, ih h.2⟩

theorem Plain.isSafe_writeAt {json : Json} (h : json.Plain) (level : Nat) :
    ∀ c ∈ writeAt indent level json, IsSafe c := by
  induction h generalizing level with
  | null =>
      rw [writeAt]
      exact isSafe_of_all rfl
  | truth value =>
      rw [writeAt]
      cases value <;> exact isSafe_of_all rfl
  | text value =>
      rw [writeAt]
      exact isSafe_writeText value
  | @array items _ ih =>
      cases items with
      | nil =>
          rw [writeAt]
          exact isSafe_of_all rfl
      | cons item rest =>
          have hitems := List.forall_mem_cons.mp fun item hitem => ih item hitem (level + 1)
          rw [writeAt]
          refine List.forall_mem_cons.mpr ⟨by decide, ?_⟩
          simp only [List.forall_mem_append]
          exact ⟨⟨⟨⟨isSafe_lineBreak, hitems.1⟩, isSafe_writeItems hitems.2⟩, isSafe_lineBreak⟩,
            isSafe_of_all rfl⟩
  | @object members _ _ ih =>
      cases members with
      | nil =>
          rw [writeAt]
          exact isSafe_of_all rfl
      | cons member rest =>
          have hmembers := List.forall_mem_cons.mp fun member hmember => ih member hmember (level + 1)
          rw [writeAt]
          refine List.forall_mem_cons.mpr ⟨by decide, ?_⟩
          simp only [List.forall_mem_append]
          exact ⟨⟨⟨⟨⟨⟨isSafe_lineBreak, isSafe_writeText _⟩, isSafe_of_all rfl⟩, hmembers.1⟩,
            isSafe_writeMembers hmembers.2⟩, isSafe_lineBreak⟩, isSafe_of_all rfl⟩

/-- A written value has safe characters only. -/
theorem Plain.isSafe_write {json : Json} (h : json.Plain) (indent : Option Int) :
    ∀ c ∈ (write indent json).toList, IsSafe c := by
  rw [write, String.toList_ofList]
  exact h.isSafe_writeAt 0

end BuilderFields.Json
