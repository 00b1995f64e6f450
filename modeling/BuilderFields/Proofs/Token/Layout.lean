import BuilderFields.Proofs.Token

/-!
# How tokens lie in their text

Cutting a text into tokens covers it from its beginning to its end: blanks, a token, and what is left, which is covered
in the same way. A word goes on as long as it can, so what is left after it continues no word, and any other token is
one character that opens no word.
-/

namespace BuilderFields.Token

inductive TakenBefore (left : List Char) : List Char → Prop
  | word {c tail} (hopens : opensWord c) (htail : ∀ d ∈ tail, continuesWord d) (hleft : Apart left) :
    TakenBefore left (c :: tail)
  | single {c} (hblank : ¬ Text.isBlank c) (hopens : ¬ opensWord c) : TakenBefore left [c]

theorem TakenBefore.exists_cons {left chars : List Char} (h : TakenBefore left chars) :
    ∃ c tail, chars = c :: tail := by
  cases h with
  | word _ _ _ => exact ⟨_, _, rfl⟩
  | single _ _ => exact ⟨_, _, rfl⟩

-- The tokens lie in the characters, the first of which is at the position, with blanks between them.
inductive Laid : Nat → List Char → List Token → Prop
  | blank {position blanks} (hblanks : ∀ c ∈ blanks, Text.isBlank c) : Laid position blanks []
  | token {position blanks chars left tokens} (hblanks : ∀ c ∈ blanks, Text.isBlank c)
      (hchars : TakenBefore left chars)
      (hleft : Laid (position + blanks.length + chars.length) left tokens) :
    Laid position (blanks ++ (chars ++ left))
      (⟨String.ofList chars, position + blanks.length⟩ :: tokens)

theorem Laid.blank_cons {position : Nat} {c : Char} {rest : List Char} {tokens : List Token}
    (hblank : Text.isBlank c) (h : Laid (position + 1) rest tokens) :
    Laid position (c :: rest) tokens := by
  cases h with
  | blank hblanks => exact .blank (List.forall_mem_cons.mpr ⟨hblank, hblanks⟩)
  | @token _ blanks chars left tokens hblanks hchars hleft =>
      have hlength : position + 1 + blanks.length = position + (c :: blanks).length := by
        rw [List.length_cons]
        omega
      rw [hlength] at hleft ⊢
      exact .token (List.forall_mem_cons.mpr ⟨hblank, hblanks⟩) hchars hleft

theorem apart_dropWhile (cs : List Char) : Apart (cs.dropWhile continuesWord) := by
  intro c hc
  have hhead := List.head?_dropWhile_not continuesWord cs
  rw [Option.mem_def.mp hc] at hhead
  simpa using hhead

/-- The tokens of a scan lie in the characters in order, with only blanks between them. -/
theorem laid_scan (position : Nat) (cs : List Char) : Laid position cs (scan position cs) := by
  induction position, cs using scan.induct with
  | case1 position =>
      rw [scan]
      exact .blank (by simp)
  | case2 position c rest hblank ih =>
      rw [scan, if_pos hblank]
      exact ih.blank_cons hblank
  | case3 position c rest hblank hopens tail ih =>
      rw [scan, if_neg hblank, if_pos hopens]
      have hword : TakenBefore (rest.dropWhile continuesWord) (c :: tail) :=
        .word hopens (fun d hd => List.mem_takeWhile_imp hd) (apart_dropWhile rest)
      have hsplit : c :: rest = [] ++ (c :: tail ++ rest.dropWhile continuesWord) := by
        rw [List.nil_append, List.cons_append, List.takeWhile_append_dropWhile]
      have hnext : position + ([] : List Char).length + (c :: tail).length =
          position + 1 + tail.length := by
        rw [List.length_nil, List.length_cons]
        omega
      rw [← hnext] at ih
      rw [hsplit]
      refine .token (by simp) hword ?_
      rwa [← hnext]
  | case4 position c rest hblank hopens ih =>
      rw [scan, if_neg hblank, if_neg hopens]
      have hblanks : ∀ blank ∈ ([] : List Char), Text.isBlank blank := by simp
      exact .token hblanks (.single hblank hopens) ih

/-- The later tokens lie in what is left behind the earlier ones. -/
theorem Laid.exists_drop {position : Nat} {cs : List Char} {before tokens : List Token}
    (h : Laid position cs (before ++ tokens)) :
    ∃ skipped, Laid (position + skipped) (cs.drop skipped) tokens := by
  induction before generalizing position cs with
  | nil => exact ⟨0, h⟩
  | cons first rest ih =>
      cases h with
      | @token _ blanks chars left _ _ _ hleft =>
          obtain ⟨skipped, hlater⟩ := ih hleft
          refine ⟨blanks.length + chars.length + skipped, ?_⟩
          rwa [← List.append_assoc, ← List.length_append, List.drop_length_add_append,
            List.length_append, ← Nat.add_assoc, ← Nat.add_assoc]

theorem laid_ofText (text : String) : Laid 0 text.toList (ofText text) :=
  laid_scan 0 text.toList

/-- The tokens of a text from any one of them on lie in what is left of the text behind those before it. -/
theorem exists_laid_drop {text : String} {before tokens : List Token}
    (h : ofText text = before ++ tokens) :
    ∃ skipped, Laid skipped (text.toList.drop skipped) tokens := by
  have hlaid := laid_ofText text
  rw [h] at hlaid
  obtain ⟨skipped, hlater⟩ := hlaid.exists_drop
  rw [Nat.zero_add] at hlater
  exact ⟨skipped, hlater⟩

end BuilderFields.Token
