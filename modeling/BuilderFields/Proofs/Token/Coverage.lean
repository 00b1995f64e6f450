import BuilderFields.Proofs.Token.Word

/-!
# Tokens cover their text

Nothing of a text is lost when it is cut into tokens: they stand in it one after the other, and only blanks stand
outside them. Where a word begins and ends is a matter of the text alone, for no longer run of characters of a word
has the token in it. What opens no word is a token on its own.
-/

namespace BuilderFields.Token

def stop (token : Token) : Nat :=
  token.position + token.text.length

structure IsRun (text : String) (start stop : Nat) : Prop where
  lt : start < stop
  opens : ∃ c ∈ text.toList[start]?, opensWord c
  continues : ∀ place, start < place → place < stop → ∃ c ∈ text.toList[place]?, continuesWord c

structure IsMaximalRun (text : String) (start stop : Nat) : Prop extends IsRun text start stop where
  maximal : ∀ start' stop', IsRun text start' stop' → start' ≤ start → stop ≤ stop' →
    start' = start ∧ stop' = stop

def Holds (token : Token) (place : Nat) : Prop :=
  token.position ≤ place ∧ place < token.stop

/-- The tokens stand in the text in order, with nothing but blanks outside them, and each of them is a word that goes as
far as it can or one character that begins no word. -/
structure Covers (text : String) (tokens : List Token) : Prop where
  increasing : tokens.Pairwise fun first second => first.position < second.position
  apart : tokens.Pairwise fun first second => first.stop ≤ second.position
  stands : ∀ token ∈ tokens,
    (text.toList.drop token.position).take token.text.length = token.text.toList
  nonempty : ∀ token ∈ tokens, token.text ≠ ""
  solid : ∀ token ∈ tokens, ∀ c ∈ token.text.toList, ¬ Text.isBlank c
  blank_outside : ∀ place c, text.toList[place]? = some c → (∀ token ∈ tokens, ¬ token.Holds place) →
    Text.isBlank c
  kinds : ∀ token ∈ tokens, IsMaximalRun text token.position token.stop ∨
    (∃ c, token.text = String.singleton c ∧ ¬ Text.isBlank c) ∧
      ∀ stop, ¬ IsRun text token.position stop

/-! ### The tokens of a layout -/

section Laid

variable {position : Nat} {cs : List Char} {tokens : List Token}

theorem Laid.position_le (h : Laid position cs tokens) :
    ∀ token ∈ tokens, position ≤ token.position := by
  induction h with
  | blank _ => exact List.forall_mem_nil _
  | token _ _ _ ih =>
      refine List.forall_mem_cons.mpr ⟨Nat.le_add_right _ _, fun token htoken => ?_⟩
      have hlater := ih token htoken
      omega

/-- Tokens do not overlap. -/
theorem Laid.pairwise (h : Laid position cs tokens) :
    tokens.Pairwise fun first second => first.stop ≤ second.position := by
  induction h with
  | blank _ => exact .nil
  | token _ _ hleft ih =>
      refine List.pairwise_cons.mpr ⟨fun second hsecond => ?_, ih⟩
      have hlater := hleft.position_le second hsecond
      rwa [stop, String.length_ofList]

/-- Characters outside the tokens are blank. -/
theorem Laid.isBlank_of_not_holds (h : Laid position cs tokens) {place : Nat} {c : Char}
    (hc : cs[place]? = some c) (hout : ∀ token ∈ tokens, ¬ token.Holds (position + place)) :
    Text.isBlank c := by
  induction h generalizing place with
  | blank hblanks => exact hblanks c (List.mem_of_getElem? hc)
  | @token position blanks chars left tokens hblanks _ _ ih =>
      obtain ⟨hfirst, hlater⟩ := List.forall_mem_cons.mp hout
      simp only [Holds, stop, String.length_ofList] at hfirst
      by_cases hblank : place < blanks.length
      · rw [List.getElem?_append_left hblank] at hc
        exact hblanks c (List.mem_of_getElem? hc)
      -- The place is none of the token's, so it lies behind the token.
      have hbehind : blanks.length + chars.length ≤ place := by omega
      obtain ⟨rest, rfl⟩ := Nat.exists_eq_add_of_le hbehind
      rw [← List.append_assoc, ← List.length_append, List.getElem?_append_right (Nat.le_add_right _ _),
        Nat.add_sub_cancel_left] at hc
      refine ih hc fun token htoken => ?_
      rw [Nat.add_assoc, Nat.add_assoc, ← Nat.add_assoc blanks.length]
      exact hlater token htoken

end Laid

-- These are the characters of the token, and it is taken before what is left of the text behind it.
structure Stands (text : String) (token : Token) (chars left : List Char) : Prop where
  text_eq : token.text = String.ofList chars
  drop_eq : text.toList.drop token.position = chars ++ left
  taken : TakenBefore left chars

/-- Every token stands in the text where it was cut out. -/
theorem exists_stands {text : String} {token : Token} (h : token ∈ ofText text) :
    ∃ chars left, Stands text token chars left := by
  obtain ⟨before, after, hsplit⟩ := List.append_of_mem h
  obtain ⟨skipped, hlaid⟩ := exists_laid_drop hsplit
  generalize hcs : text.toList.drop skipped = cs at hlaid
  cases hlaid with
  | @token _ blanks chars left _ _ hchars _ =>
      refine ⟨chars, left, rfl, ?_, hchars⟩
      rw [← List.drop_drop, hcs, List.drop_left]

theorem continuesWord_of_opensWord {c : Char} (h : opensWord c) : continuesWord c :=
  continuesWord_of_opensName (opensName_of_opensWord h)

theorem TakenBefore.not_isBlank {left chars : List Char} (h : TakenBefore left chars) :
    ∀ c ∈ chars, ¬ Text.isBlank c := by
  cases h with
  | word hopens htail _ =>
      refine List.forall_mem_cons.mpr ⟨?_, fun c hc => not_isBlank_of_continuesWord (htail c hc)⟩
      exact not_isBlank_of_continuesWord (continuesWord_of_opensWord hopens)
  | single hblank _ => exact List.forall_mem_singleton.mpr hblank

namespace Stands

variable {text : String} {token : Token} {chars left : List Char}

theorem stop_eq (h : Stands text token chars left) : token.stop = token.position + chars.length := by
  rw [stop, h.text_eq, String.length_ofList]

theorem getElem?_toList (h : Stands text token chars left) (place : Nat) :
    text.toList[token.position + place]? = (chars ++ left)[place]? := by
  rw [← h.drop_eq, List.getElem?_drop]

theorem position_lt_stop (h : Stands text token chars left) : token.position < token.stop := by
  obtain ⟨c, tail, rfl⟩ := h.taken.exists_cons
  rw [h.stop_eq, List.length_cons]
  omega

theorem take_drop (h : Stands text token chars left) :
    (text.toList.drop token.position).take token.text.length = token.text.toList := by
  rw [h.drop_eq, h.text_eq, String.length_ofList, String.toList_ofList, List.take_left]

theorem text_ne_empty (h : Stands text token chars left) : token.text ≠ "" := by
  obtain ⟨c, tail, rfl⟩ := h.taken.exists_cons
  rw [h.text_eq]
  simp

/-- No blank is part of a token. -/
theorem not_isBlank (h : Stands text token chars left) :
    ∀ c ∈ token.text.toList, ¬ Text.isBlank c := by
  rw [h.text_eq, String.toList_ofList]
  exact h.taken.not_isBlank

/-- A token is a word with nothing behind it that continues it, or a character on its own that opens no word. -/
theorem isRun_or_single (h : Stands text token chars left) :
    (IsRun text token.position token.stop ∧
      ∀ c ∈ text.toList[token.stop]?, ¬ continuesWord c) ∨
    (∃ c, token.text = String.singleton c ∧ ¬ Text.isBlank c) ∧
      ∀ c ∈ text.toList[token.position]?, ¬ opensWord c := by
  have hposition := h.getElem?_toList 0
  rw [Nat.add_zero] at hposition
  cases h.taken with
  | @word c tail hopens htail hleft =>
      refine Or.inl ⟨⟨h.position_lt_stop, ⟨c, hposition, hopens⟩, fun place hafter hbefore => ?_⟩, ?_⟩
      · obtain ⟨further, rfl⟩ := Nat.exists_eq_add_of_lt hafter
        rw [h.stop_eq, List.length_cons] at hbefore
        have hfurther : further < tail.length := by omega
        refine ⟨tail[further], ?_, htail _ (List.getElem_mem hfurther)⟩
        rw [Nat.add_assoc, h.getElem?_toList, List.cons_append, List.getElem?_cons_succ,
          List.getElem?_append_left hfurther, List.getElem?_eq_getElem hfurther]
        rfl
      · rw [h.stop_eq, h.getElem?_toList, List.getElem?_append_right (Nat.le_refl _), Nat.sub_self,
          ← List.head?_eq_getElem?]
        exact hleft
  | @single c hblank hopens =>
      refine Or.inr ⟨⟨c, ?_, hblank⟩, ?_⟩
      · rw [h.text_eq]
        rfl
      · rw [hposition]
        rintro _ ⟨⟩
        exact hopens

end Stands

theorem not_isRun {text : String} {start : Nat} (h : ∀ c ∈ text.toList[start]?, ¬ opensWord c)
    (stop : Nat) : ¬ IsRun text start stop := by
  intro hrun
  obtain ⟨c, hc, hopens⟩ := hrun.opens
  exact h c hc hopens

/-! ### Words go as far as they can -/

section Runs

variable {text : String} {token : Token} {start stop' : Nat}

/-- A run does not go beyond the end of a token in which it begins. -/
theorem stop_le_of_isRun (htoken : token ∈ ofText text) (hrun : IsRun text start stop')
    (hholds : token.Holds start) : stop' ≤ token.stop := by
  obtain ⟨chars, left, hstands⟩ := exists_stands htoken
  obtain ⟨hposition, hbefore⟩ := hholds
  rcases hstands.isRun_or_single with ⟨-, hend⟩ | ⟨⟨c, htext, -⟩, hnone⟩
  · by_contra hlonger
    obtain ⟨c, hc, hcontinues⟩ := hrun.continues token.stop hbefore (Nat.lt_of_not_le hlonger)
    exact hend c hc hcontinues
  · -- The token has one place only, where no run begins.
    have hplace : token.position = start := by
      rw [Token.stop, htext, String.length_singleton] at hbefore
      omega
    exact absurd hrun (not_isRun (hplace ▸ hnone) stop')

/-- Two tokens are the same or do not touch the same characters. -/
theorem eq_or_apart {first second : Token} (hfirst : first ∈ ofText text)
    (hsecond : second ∈ ofText text) :
    first = second ∨ first.stop ≤ second.position ∨ second.stop ≤ first.position := by
  obtain ⟨before, after, hsplit⟩ := List.append_of_mem hsecond
  have hpairwise := (laid_ofText text).pairwise
  rw [hsplit, List.pairwise_append, List.pairwise_cons] at hpairwise
  obtain ⟨-, ⟨hafter, -⟩, hbefore⟩ := hpairwise
  rw [hsplit, List.mem_append, List.mem_cons] at hfirst
  rcases hfirst with hmem | rfl | hmem
  · exact Or.inr (Or.inl (hbefore first hmem second List.mem_cons_self))
  · exact Or.inl rfl
  · exact Or.inr (Or.inr (hafter first hmem))

/-- Every character that is not blank belongs to a token. -/
theorem exists_holds {c : Char} (hc : text.toList[start]? = some c) (hblank : ¬ Text.isBlank c) :
    ∃ token ∈ ofText text, token.Holds start := by
  by_contra hnone
  push Not at hnone
  refine hblank ((laid_ofText text).isBlank_of_not_holds hc fun token htoken => ?_)
  rw [Nat.zero_add]
  exact hnone token htoken

/-- A run of word characters around a token is the token. -/
theorem maximal_of_isRun (htoken : token ∈ ofText text) (hrun : IsRun text start stop')
    (hstart : start ≤ token.position) (hstop : token.stop ≤ stop') :
    start = token.position ∧ stop' = token.stop := by
  obtain ⟨c, hc, hopens⟩ := hrun.opens
  -- The run begins in some token and ends there, so this is the token that is all in the run.
  obtain ⟨first, hfirst, hholds⟩ := exists_holds hc
    (not_isBlank_of_continuesWord (continuesWord_of_opensWord hopens))
  have hends := stop_le_of_isRun hfirst hrun hholds
  obtain ⟨chars, left, hstands⟩ := exists_stands htoken
  have hlt := hstands.position_lt_stop
  obtain ⟨hposition, hbefore⟩ := hholds
  rcases eq_or_apart hfirst htoken with rfl | hapart
  · exact ⟨Nat.le_antisymm hstart hposition, Nat.le_antisymm hends hstop⟩
  · omega

end Runs

/-- **Cutting a text into tokens loses nothing.** -/
theorem covers_ofText (text : String) : Covers text (ofText text) := by
  have hlaid := laid_ofText text
  refine {
    increasing := ?_
    apart := hlaid.pairwise
    stands := fun token htoken => ?_
    nonempty := fun token htoken => ?_
    solid := fun token htoken => ?_
    blank_outside := fun place c hc hout => ?_
    kinds := fun token htoken => ?_ }
  · refine hlaid.pairwise.imp_of_mem fun {first second} hfirst _ hstop => ?_
    obtain ⟨_, _, hstands⟩ := exists_stands hfirst
    exact Nat.lt_of_lt_of_le hstands.position_lt_stop hstop
  · obtain ⟨_, _, hstands⟩ := exists_stands htoken
    exact hstands.take_drop
  · obtain ⟨_, _, hstands⟩ := exists_stands htoken
    exact hstands.text_ne_empty
  · obtain ⟨_, _, hstands⟩ := exists_stands htoken
    exact hstands.not_isBlank
  · refine hlaid.isBlank_of_not_holds hc ?_
    rwa [Nat.zero_add]
  · obtain ⟨_, _, hstands⟩ := exists_stands htoken
    rcases hstands.isRun_or_single with ⟨hrun, -⟩ | ⟨hsingle, hnone⟩
    · exact Or.inl ⟨hrun, fun _ _ => maximal_of_isRun htoken⟩
    · exact Or.inr ⟨hsingle, not_isRun hnone⟩

end BuilderFields.Token
