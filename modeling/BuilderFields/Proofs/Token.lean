import BuilderFields.Text.Quoted
import BuilderFields.Token
import Mathlib.Data.List.TakeWhile

/-!
# The texts of tokens

Where a token stands does not matter to what it is, so a text is also the list of the texts of its tokens. A word ends
before anything that does not continue it, which is where a text may be cut in two: the tokens of both parts are then
the tokens of the whole. And each token is a text with one token, itself.
-/

namespace BuilderFields.Token

def cut (cs : List Char) : List String :=
  (scan 0 cs).map Token.text

def texts (text : String) : List String :=
  cut text.toList

/-- Where a text begins does not matter to its lexemes. -/
theorem map_text_scan_eq (position other : Nat) (cs : List Char) :
    (scan position cs).map Token.text = (scan other cs).map Token.text := by
  induction position, cs using scan.induct generalizing other with
  | case1 position => rw [scan, scan]
  | case2 position c rest hblank ih =>
      rw [scan, scan, if_pos hblank, if_pos hblank]
      exact ih _
  | case3 position c rest hblank hopens tail ih =>
      rw [scan, scan, if_neg hblank, if_neg hblank, if_pos hopens, if_pos hopens]
      simp only [List.map_cons, List.cons.injEq, true_and]
      exact ih _
  | case4 position c rest hblank hopens ih =>
      rw [scan, scan, if_neg hblank, if_neg hblank, if_neg hopens, if_neg hopens]
      simp only [List.map_cons, List.cons.injEq, true_and]
      exact ih _

theorem map_text_scan (position : Nat) (cs : List Char) :
    (scan position cs).map Token.text = cut cs :=
  map_text_scan_eq position 0 cs

@[simp]
theorem texts_empty : texts "" = [] := by
  rw [texts, cut, String.toList_empty, scan, List.map_nil]

theorem map_text_ofText (text : String) : (ofText text).map Token.text = texts text := rfl

/-- A token stands in the text where its position says. -/
theorem prefix_drop_of_mem_scan {position : Nat} {cs : List Char} {token : Token}
    (h : token ∈ scan position cs) :
    ∃ skipped, token.position = position + skipped ∧ token.text.toList <+: cs.drop skipped := by
  induction position, cs using scan.induct with
  | case1 position => simp [scan] at h
  | case2 position c rest hblank ih =>
      rw [scan, if_pos hblank] at h
      obtain ⟨skipped, hposition, hstands⟩ := ih h
      exact ⟨skipped + 1, by omega, hstands⟩
  | case3 position c rest hblank hopens tail ih =>
      rw [scan, if_neg hblank, if_pos hopens] at h
      rcases List.mem_cons.mp h with rfl | h
      · refine ⟨0, rfl, ?_⟩
        rw [String.toList_ofList]
        exact List.prefix_cons_inj c |>.mpr (List.takeWhile_prefix _)
      · obtain ⟨skipped, hposition, hstands⟩ := ih h
        have hsplit : tail ++ rest.dropWhile continuesWord = rest := List.takeWhile_append_dropWhile
        have hdrop : rest.dropWhile continuesWord = rest.drop tail.length :=
          calc rest.dropWhile continuesWord
              = (tail ++ rest.dropWhile continuesWord).drop tail.length := List.drop_left.symm
            _ = rest.drop tail.length := by rw [hsplit]
        rw [hdrop, List.drop_drop] at hstands
        exact ⟨tail.length + skipped + 1, by omega, hstands⟩
  | case4 position c rest hblank hopens ih =>
      rw [scan, if_neg hblank, if_neg hopens] at h
      rcases List.mem_cons.mp h with rfl | h
      · exact ⟨0, rfl, ⟨rest, by simp⟩⟩
      · obtain ⟨skipped, hposition, hstands⟩ := ih h
        exact ⟨skipped + 1, by omega, hstands⟩

/-- A token stands in the text at its position. -/
theorem prefix_drop_of_mem_ofText {text : String} {token : Token} (h : token ∈ ofText text) :
    token.text.toList <+: text.toList.drop token.position := by
  obtain ⟨skipped, hposition, hstands⟩ := prefix_drop_of_mem_scan h
  rwa [hposition, Nat.zero_add]

section Cut

variable {c : Char} {cs rest : List Char}

@[simp]
theorem cut_nil : cut [] = [] := by
  rw [cut, scan, List.map_nil]

theorem cut_cons_of_isBlank (h : Text.isBlank c) (rest : List Char) : cut (c :: rest) = cut rest := by
  rw [cut, scan, if_pos h, map_text_scan]

theorem cut_cons_of_opensWord (hblank : ¬ Text.isBlank c) (h : opensWord c) (rest : List Char) :
    cut (c :: rest) =
      String.ofList (c :: rest.takeWhile continuesWord) :: cut (rest.dropWhile continuesWord) := by
  rw [cut, scan, if_neg hblank, if_pos h, List.map_cons, map_text_scan]

theorem cut_cons_of_not_opensWord (hblank : ¬ Text.isBlank c) (h : ¬ opensWord c)
    (rest : List Char) : cut (c :: rest) = String.singleton c :: cut rest := by
  rw [cut, scan, if_neg hblank, if_neg h, List.map_cons, map_text_scan]

/-- The characters do not continue a word. -/
def Apart (cs : List Char) : Prop :=
  ∀ c ∈ cs.head?, ¬ continuesWord c

theorem takeWhile_eq_nil_of_apart (h : Apart cs) : cs.takeWhile continuesWord = [] := by
  cases cs with
  | nil => rfl
  | cons c rest => exact List.takeWhile_cons_of_neg (h c rfl)

theorem dropWhile_eq_self_of_apart (h : Apart cs) : cs.dropWhile continuesWord = cs := by
  cases cs with
  | nil => rfl
  | cons c rest => exact List.dropWhile_cons_of_neg (h c rfl)

theorem takeWhile_append_of_apart (h : Apart rest) (cs : List Char) :
    (cs ++ rest).takeWhile continuesWord = cs.takeWhile continuesWord := by
  rw [List.takeWhile_append, takeWhile_eq_nil_of_apart h, List.append_nil]
  split
  · rename_i hlength
    exact ((List.takeWhile_prefix _).eq_of_length hlength).symm
  · rfl

theorem dropWhile_append_of_apart (h : Apart rest) (cs : List Char) :
    (cs ++ rest).dropWhile continuesWord = cs.dropWhile continuesWord ++ rest := by
  rw [List.dropWhile_append, dropWhile_eq_self_of_apart h]
  split
  · rename_i hempty
    rw [List.isEmpty_iff.mp hempty, List.nil_append]
  · rfl

/-- A text is cut in two where no word goes on. -/
theorem cut_append (h : Apart rest) (cs : List Char) : cut (cs ++ rest) = cut cs ++ cut rest := by
  induction (0 : Nat), cs using scan.induct with
  | case1 position => rw [cut_nil, List.nil_append, List.nil_append]
  | case2 position c tail hblank ih =>
      rw [List.cons_append, cut_cons_of_isBlank hblank, cut_cons_of_isBlank hblank, ih]
  | case3 position c tail hblank hopens taken ih =>
      rw [List.cons_append, cut_cons_of_opensWord hblank hopens, cut_cons_of_opensWord hblank hopens,
        takeWhile_append_of_apart h, dropWhile_append_of_apart h, ih, List.cons_append]
  | case4 position c tail hblank hopens ih =>
      rw [List.cons_append, cut_cons_of_not_opensWord hblank hopens,
        cut_cons_of_not_opensWord hblank hopens, ih, List.cons_append]

end Cut

/-! ### Tokens as texts -/

/-- The text has one token, itself. -/
def IsLexeme (text : String) : Prop :=
  texts text = [text]

instance (text : String) : Decidable (IsLexeme text) :=
  inferInstanceAs (Decidable (texts text = [text]))

/-- The pieces of a cut are cut no further. -/
theorem isLexeme_of_mem_cut {cs : List Char} {text : String} (h : text ∈ cut cs) :
    IsLexeme text := by
  induction (0 : Nat), cs using scan.induct with
  | case1 position => simp at h
  | case2 position c rest hblank ih =>
      rw [cut_cons_of_isBlank hblank] at h
      exact ih h
  | case3 position c rest hblank hopens taken ih =>
      rw [cut_cons_of_opensWord hblank hopens] at h
      rcases List.mem_cons.mp h with rfl | hrest
      · -- A word is taken up as a whole.
        have hend : (rest.takeWhile continuesWord).dropWhile continuesWord = [] :=
          List.dropWhile_eq_nil_iff.mpr fun _ hmem => List.mem_takeWhile_imp hmem
        rw [IsLexeme, texts, String.toList_ofList, cut_cons_of_opensWord hblank hopens,
          List.takeWhile_idem, hend, cut_nil]
      · exact ih hrest
  | case4 position c rest hblank hopens ih =>
      rw [cut_cons_of_not_opensWord hblank hopens] at h
      rcases List.mem_cons.mp h with rfl | hrest
      · rw [IsLexeme, texts, String.toList_singleton, cut_cons_of_not_opensWord hblank hopens,
          cut_nil]
      · exact ih hrest

def IsMark (mark : String) : Prop :=
  ∃ c, mark = String.singleton c ∧ ¬ Text.isBlank c ∧ ¬ opensWord c ∧ ¬ continuesWord c

/-- A mark separates what stands before it from what stands behind it. -/
theorem IsMark.texts_append {mark : String} (h : IsMark mark) (before after : String) :
    texts (before ++ (mark ++ after)) = texts before ++ mark :: texts after := by
  obtain ⟨c, rfl, hblank, hopens, hcontinues⟩ := h
  have hapart : Apart (c :: after.toList) := by
    rintro _ ⟨⟩
    exact hcontinues
  rw [texts, String.toList_append, String.toList_append, String.toList_singleton,
    List.singleton_append, cut_append hapart, cut_cons_of_not_opensWord hblank hopens]
  rfl

theorem IsMark.texts_append_self {mark : String} (h : IsMark mark) (before : String) :
    texts (before ++ mark) = texts before ++ [mark] := by
  simpa [texts] using h.texts_append before ""

theorem texts_space_append (after : String) : texts (" " ++ after) = texts after := by
  rw [texts, String.toList_append]
  exact cut_cons_of_isBlank (by decide) after.toList

theorem texts_append_space (before after : String) :
    texts (before ++ (" " ++ after)) = texts before ++ texts after := by
  have hapart : Apart (" " ++ after).toList := by
    rw [String.toList_append]
    rintro _ ⟨⟩
    decide
  rw [← texts_space_append after, texts, String.toList_append, cut_append hapart]
  rfl

theorem isMark_comma : IsMark "," :=
  ⟨',', by decide⟩

def separated (groups : List (List String)) : List String :=
  [","].intercalate groups

@[simp]
theorem separated_singleton (group : List String) : separated [group] = group := by
  simp [separated]

theorem separated_cons (first : List String) {rest : List (List String)} (h : rest ≠ []) :
    separated (first :: rest) = first ++ "," :: separated rest := by
  obtain ⟨second, others, rfl⟩ := List.exists_cons_of_ne_nil h
  rw [separated, List.intercalate_cons_cons, List.append_assoc]
  rfl

/-- A joined list is cut into the lexemes of its items, with commas between them. -/
theorem texts_commaJoin (items : List String) :
    texts (Text.commaJoin items) = separated (items.map texts) := by
  unfold Text.commaJoin
  induction items with
  | nil => simp [separated]
  | cons first rest ih =>
      cases rest with
      | nil => simp
      | cons second others =>
          rw [List.map_cons, separated_cons _ (by simp), ← ih, String.intercalate_cons_cons]
          generalize ", ".intercalate (second :: others) = joined
          have hsplit : first ++ ", " ++ joined = first ++ ("," ++ (" " ++ joined)) := by
            rw [show (", " : String) = "," ++ " " from rfl, String.append_assoc, String.append_assoc]
          rw [hsplit, isMark_comma.texts_append, texts_space_append]

end BuilderFields.Token
