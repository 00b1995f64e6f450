import BuilderFields.Proofs.TypeExpr.Grammar
import BuilderFields.Signature.Reader

/-!
# The grammar of signatures

A signature is derived from its type parameters, its return type, its name and its parameters, and a type is followed
by a name there. A wildcard and the word of a bound always belong together, so this word is not taken for the name.
With that the readers of signatures read by their rules, and a text is read exactly if its tokens are derived; if they
are not, the fault is at the first token with which no derivation begins.
-/

namespace BuilderFields

namespace Grammar

open Token Rule

inductive TypeParameters : List String → List String → Prop
  | none : TypeParameters [] []
  | some {names inner : List String} (h : Listed word names inner) : TypeParameters names ("<" :: (inner ++ [">"]))

/-- A wildcard is not followed by the word of a bound, which would belong to it. -/
def Unbound (words : List String) (next : String) : Prop :=
  words.getLast? = some "?" → ∀ kind : BoundKind, next ≠ kind.text

inductive IsParameter (scope : List String) : Parameter → List String → Prop
  | mk {name : String} {type : TypeExpr} {words : List String} (htype : IsType scope type words)
      (hname : IsWord name) (hunbound : Unbound words name) : IsParameter scope ⟨name, type⟩ (words ++ [name])

inductive Parameters (scope : List String) : List Parameter → List String → Prop
  | none : Parameters scope [] []
  | some {parameters : List Parameter} {words : List String} (h : Listed (IsParameter scope) parameters words) :
      Parameters scope parameters words

inductive IsSignature (scope : List String) : Signature → List String → Prop
  | mk {name : String} {declared : List String} {parameters : List Parameter} {returnType : TypeExpr}
      {quantifier words inner : List String} (hdeclared : TypeParameters declared quantifier)
      (hreturn : IsType (scope ++ declared) returnType words) (hname : IsWord name) (hunbound : Unbound words name)
      (hparameters : Parameters (scope ++ declared) parameters inner) :
      IsSignature scope ⟨name, declared, parameters, returnType⟩
        (quantifier ++ (words ++ name :: "(" :: (inner ++ [")"])))

section Readers

open Reading

variable {scope names words : List String} {name : String} {type : TypeExpr} {token : Token}
  {tokens rest : List Token}

/-! ### Type parameters -/

theorem listed_word_cons_iff (hname : IsWord name) :
    Listed word names (name :: words) ↔ ∃ others, MoreListed word others words ∧ name :: others = names := by
  rw [← listed_iff_seq]
  constructor
  · rintro ⟨first, used, rest, hwords, ⟨-, rfl⟩, others, hothers, rfl⟩
    obtain ⟨rfl, rfl⟩ := List.cons.inj hwords
    exact ⟨others, hothers, rfl⟩
  · rintro ⟨others, hothers, rfl⟩
    exact ⟨name, [name], words, rfl, ⟨hname, rfl⟩, others, hothers, rfl⟩

theorem isWord_of_listed (h : Listed word names (name :: words)) : IsWord name := by
  obtain ⟨value, rest, hvalue, hwords⟩ := exists_of_listed_cons not_word_nil h
  rwa [(List.cons.inj hwords).1]

theorem lasting_never : Lasting never :=
  fun _ _ _ h => h

theorem not_orComma_never {closing : String} (hclosing : closing ≠ ",") (used : List String) :
    ¬ orComma never used closing :=
  fun h => h.elim hclosing id

theorem listed_word_one_iff (hname : IsWord name) : Listed word names [name] ↔ names = [name] := by
  rw [listed_word_cons_iff hname]
  constructor
  · rintro ⟨others, hothers, rfl⟩
    rw [moreListed_nil_iff.mp hothers]
  · rintro rfl
    exact ⟨[], moreListed_nil_iff.mpr rfl, rfl⟩

theorem reads_identifierList (hlex : Lexical tokens) :
    Reads (Listed word) (orComma never) tokens (identifierList tokens) := by
  have hviable : ∃ names words, Listed word names words := ⟨_, _, .one ⟨isWord_x, rfl⟩⟩
  have hempty : ∀ names, ¬ Listed word names [] := not_listed_nil not_word_nil
  have hempty' : ∀ {token : Token} (names : List String), Listed word names [] → orComma never [] token.text :=
    fun names h => absurd h (hempty names)
  have hfail : ∀ {token : Token} {rest : List Token}, Lexical (token :: rest) → ¬ token.isIdentifier →
      Reads (Listed word) (orComma never) (token :: rest)
        (.error ⟨.identifier, some token⟩ : Except Fault (Taken (token :: rest) (List String))) := by
    intro token rest hlex hidentifier
    refine .fail rfl hviable hempty (forall_mem_head?_cons.mpr fun _ _ h => hidentifier ?_)
    exact (isWord_iff (lexical_cons_iff.mp hlex).1).mp (isWord_of_listed h)
  induction tokens using identifierList.induct with
  | case1 => exact .fail rfl hviable hempty (by simp)
  | case2 name hidentifier =>
      have hname := (isWord_iff (lexical_cons_iff.mp hlex).1).mpr hidentifier
      rw [identifierList, if_pos hidentifier]
      exact .step (.nothing rfl rfl ((listed_word_one_iff hname).mpr rfl)
        (fun names => (listed_word_one_iff hname).mp) (by simp)) hempty'
  | case3 name hidentifier =>
      rw [identifierList, if_neg hidentifier]
      exact hfail hlex hidentifier
  | case4 name comma rest hidentifier hcomma ih =>
      have hname := (isWord_iff (lexical_cons_iff.mp hlex).1).mpr hidentifier
      have hrest := ih (lexical_cons_iff.mp (lexical_cons_iff.mp hlex).2).2
      rw [identifierList, if_pos hidentifier, if_pos hcomma]
      refine .step (.step (.mono (.map hrest (f := (name.text :: ·)) (fun _ => rfl) (fun _ => rfl)
        fun names words => ?_) fun _ used word _ => lasting_never.orComma [name.text, comma.text] used word)
        fun _ _ => Or.inl hcomma) hempty'
      rw [hcomma]
      exact (listed_word_cons_iff hname).trans (exists_congr fun _ => and_congr_left' moreListed_comma_iff)
  | case5 name comma rest hidentifier hcomma =>
      have hname := (isWord_iff (lexical_cons_iff.mp hlex).1).mpr hidentifier
      rw [identifierList, if_pos hidentifier, if_neg hcomma]
      refine .step (.nothing rfl rfl ((listed_word_one_iff hname).mpr rfl)
        (fun names => (listed_word_one_iff hname).mp) (forall_mem_head?_cons.mpr fun names words h => ?_)) hempty'
      obtain ⟨others, hothers, -⟩ := (listed_word_cons_iff hname).mp h
      exact hcomma (eq_comma_of_moreListed hothers)
  | case6 name comma rest hidentifier =>
      rw [identifierList, if_neg hidentifier]
      exact hfail hlex hidentifier

theorem reads_closeParameters (tokens : List Token) : Reads (mark ">") never tokens (closeParameters tokens) := by
  cases tokens with
  | nil => exact .fail rfl ⟨(), _, rfl⟩ (not_mark_nil ">") (by simp)
  | cons closing rest =>
      rw [closeParameters]
      split
      · rename_i hclosing
        refine .fail rfl ⟨(), _, rfl⟩ (not_mark_nil ">") (forall_mem_head?_cons.mpr fun _ words h => ?_)
        rw [hclosing] at h
        exact absurd (List.cons.inj h).1 (by decide)
      · exact reads_expect ">" (closing :: rest)

theorem typeParameters_nil_iff : TypeParameters names [] ↔ names = [] :=
  ⟨fun h => by cases h; rfl, fun h => h ▸ .none⟩

theorem eq_of_typeParameters {first : String} (h : TypeParameters names (first :: words)) : first = "<" := by
  cases h
  rfl

theorem typeParameters_opening_iff :
    TypeParameters names ("<" :: words) ↔ ClosedBy ">" (Listed word) names words := by
  constructor
  · intro h
    cases h with
    | some h => exact ⟨_, rfl, h⟩
  · rintro ⟨inner, rfl, h⟩
    exact .some h

/-- The reader takes exactly the declared names, if there are any. -/
theorem reads_typeParameters (hlex : Lexical tokens) :
    Reads TypeParameters (goesOnWith "<") tokens (typeParameters tokens) := by
  have hunique : ∀ other, TypeParameters other [] → other = [] := fun _ => typeParameters_nil_iff.mp
  cases tokens with
  | nil => exact .nothing rfl rfl .none hunique (by simp)
  | cons opening rest =>
      rw [typeParameters]
      split
      · rename_i hopening
        refine .step ?_ fun _ _ => hopening
        rw [hopening]
        have hclosed : Reads (ClosedBy ">" (Listed word)) never rest (identifierList rest >>= fun names =>
            closeParameters names.rest >>= fun closing =>
              .ok ((names.andThen (closing.map fun _ => names.value)).behind opening)) :=
          reads_closedBy (reads_identifierList (lexical_cons_iff.mp hlex).2) (not_orComma_never (by decide))
            (fun names => reads_closeParameters names.rest) (fun _ _ => rfl) fun _ _ => rfl
        exact .mono (.of_iff hclosed fun _ _ => typeParameters_opening_iff.symm) fun _ _ _ _ h => h.elim
      · rename_i hopening
        exact .nothing rfl rfl .none hunique
          (forall_mem_head?_cons.mpr fun _ _ h => hopening (eq_of_typeParameters h))

/-! ### A type and a name -/

def NameAfter (words : List String) : Rule String := fun name rest =>
  word name rest ∧ Unbound words name

theorem unbound_x (words : List String) : Unbound words "x" := by
  rintro - (_ | _) <;> decide

theorem nameAfter_x (words : List String) : NameAfter words "x" ["x"] :=
  ⟨⟨isWord_x, rfl⟩, unbound_x words⟩

/-- The reader takes the name behind a type, which may not go on with the type. -/
theorem reads_nameAfter (hlex : Lexical tokens) (htype : IsType scope type words)
    (hstop : ∀ token ∈ tokens.head?, ¬ Viable (IsType scope) (words ++ [token.text])) :
    Reads (NameAfter words) never tokens (identifier tokens) := by
  refine .congr (reads_identifier hlex) ⟨_, _, nameAfter_x words⟩ fun name rest hbegins => ?_
  refine ⟨fun hname => ⟨hname, ?_⟩, And.left⟩
  rintro hlast kind rfl
  obtain ⟨-, rfl⟩ := hname
  obtain ⟨token, htoken, htext⟩ := beginsLike_cons_iff.mp hbegins
  refine hstop token htoken ?_
  obtain ⟨whole, hwhole⟩ := exists_isType_bound kind htype hlast
  rw [htext]
  exact ⟨whole, ["?"], by rwa [List.append_assoc]⟩

/-- A word does not continue a type, unless it is a bound behind a question mark. -/
theorem not_typeGoesOn_of_isWord (hname : IsWord name) (hunbound : Unbound words name) : ¬ typeGoesOn words name := by
  rintro (rfl | rfl | rfl | ⟨hlast, kind, rfl⟩)
  · exact absurd hname (by decide +kernel)
  · exact absurd hname (by decide +kernel)
  · exact absurd hname (by decide +kernel)
  · exact hunbound hlast kind rfl

theorem not_typeGoesOn_of_nameAfter {first : String} (h : NameAfter words name (first :: names)) :
    ¬ typeGoesOn words first := by
  obtain ⟨⟨hname, hcons⟩, hunbound⟩ := h
  rw [(List.cons.inj hcons).1]
  exact not_typeGoesOn_of_isWord hname hunbound

theorem isParameter_iff_seq {parameter : Parameter} :
    seq (IsType scope) (fun type used value rest => ∃ name, NameAfter used name rest ∧ ⟨name, type⟩ = value)
      parameter words ↔ IsParameter scope parameter words := by
  constructor
  · rintro ⟨type, used, _, rfl, htype, name, ⟨⟨hname, rfl⟩, hunbound⟩, rfl⟩
    exact .mk htype hname hunbound
  · rintro ⟨htype, hname, hunbound⟩
    exact ⟨_, _, _, rfl, htype, _, ⟨⟨hname, rfl⟩, hunbound⟩, rfl⟩

/-- The reader takes exactly the words of a parameter. -/
theorem reads_parameter (scope : List String) {tokens : List Token} (hlex : Lexical tokens) :
    Reads (IsParameter scope) never tokens (parameter scope tokens) := by
  refine .of_iff (.bind (reads_typeExpr scope hlex) ?_ ?_ (fun type used _ => ⟨_, _, "x", nameAfter_x used, rfl⟩)
    fun type used htokens htype hstop => ?_) fun _ _ => isParameter_iff_seq
  · rintro found used value word rest - ⟨name, hname, -⟩
    exact not_typeGoesOn_of_nameAfter hname
  · rintro found used value word - ⟨name, ⟨⟨-, hnil⟩, -⟩, -⟩
    cases hnil
  · exact .map (reads_nameAfter (Lexical.of_eq hlex htokens) htype hstop) (f := fun name => ⟨name, type.value⟩)
      (fun _ => rfl) (fun _ => rfl) fun _ _ => Iff.rfl

/-! ### Parameters -/

theorem not_isParameter_nil (parameter : Parameter) : ¬ IsParameter scope parameter [] :=
  fun h => not_seq_nil (not_isType_nil scope) parameter (isParameter_iff_seq.mpr h)

mutual

/-- The reader takes exactly the words of a list of parameters. -/
theorem reads_parameterList (scope : List String) {tokens : List Token} (hlex : Lexical tokens) :
    Reads (Listed (IsParameter scope)) (orComma never) tokens (parameterList scope tokens) := by
  rw [parameterList]
  exact reads_listed (reads_parameter scope hlex) (fun _ h => h) lasting_never
    fun first used htokens => reads_moreParameters scope (Lexical.of_eq hlex htokens)
termination_by (tokens.length, 1)
decreasing_by
  have := first.length_le
  simp only [Prod.lex_def]
  omega

theorem reads_moreParameters (scope : List String) {tokens : List Token} (hlex : Lexical tokens) :
    Reads (MoreListed (IsParameter scope)) (orComma never) tokens (moreParameters scope tokens) := by
  match tokens with
  | [] =>
      rw [moreParameters]
      exact reads_moreListed_nothing rfl rfl (by simp)
  | comma :: rest =>
      rw [moreParameters]
      split
      · rename_i hcomma
        exact reads_moreListed_comma (reads_parameterList scope (lexical_cons_iff.mp hlex).2) lasting_never hcomma
      · rename_i hcomma
        exact reads_moreListed_nothing rfl rfl (forall_mem_head?_cons.mpr hcomma)
termination_by (tokens.length, 0)

end

theorem closed_none (scope : List String) : ClosedBy ")" (Parameters scope) [] [")"] :=
  ⟨[], rfl, .none⟩

theorem head_of_isParameter {parameter : Parameter} {first : String}
    (h : IsParameter scope parameter (first :: words)) : first = "?" ∨ IsWord first := by
  obtain ⟨type, used, htype⟩ := exists_of_seq_cons (not_isType_nil scope) (isParameter_iff_seq.mpr h)
  exact head_of_isType htype

theorem closed_paren_iff {parameters : List Parameter} :
    ClosedBy ")" (Parameters scope) parameters (")" :: words) ↔ parameters = [] ∧ words = [] := by
  constructor
  · rintro ⟨inner, hwords, hparameters⟩
    cases inner with
    | nil =>
        refine ⟨?_, (List.cons.inj hwords).2⟩
        cases hparameters with
        | none => rfl
        | some h => exact absurd h (not_listed_nil not_isParameter_nil parameters)
    | cons first inner =>
        obtain ⟨rfl, -⟩ := List.cons.inj hwords
        cases hparameters with
        | some h =>
            obtain ⟨parameter, rest, hparameter⟩ := exists_of_listed_cons not_isParameter_nil h
            exact absurd (head_of_isParameter hparameter) (by decide +kernel)
  · rintro ⟨rfl, rfl⟩
    exact closed_none scope

theorem closed_iff_listed {parameters : List Parameter} (hwords : words.head? ≠ some ")") :
    ClosedBy ")" (Listed (IsParameter scope)) parameters words ↔
      ClosedBy ")" (Parameters scope) parameters words := by
  constructor
  · rintro ⟨inner, rfl, h⟩
    exact ⟨inner, rfl, .some h⟩
  · rintro ⟨inner, rfl, hparameters⟩
    cases hparameters with
    | none => exact absurd rfl hwords
    | some h => exact ⟨inner, rfl, h⟩

theorem reads_parametersAfterParen (scope : List String) {tokens : List Token} (hlex : Lexical tokens) :
    Reads (ClosedBy ")" (Parameters scope)) never tokens (parametersAfterParen scope tokens) := by
  have hviable : ∃ parameters words, ClosedBy ")" (Parameters scope) parameters words :=
    ⟨[], [")"], closed_none scope⟩
  have hempty := not_closedBy_nil ")" (Parameters scope)
  cases tokens with
  | nil => exact .fail rfl hviable hempty (by simp)
  | cons closing rest =>
      rw [parametersAfterParen]
      split
      · rename_i hclosing
        refine .step ?_ fun parameters h => absurd h (hempty parameters)
        rw [hclosing]
        refine .nothing rfl rfl (closed_none scope) (fun other h => (closed_paren_iff.mp h).1) ?_
        exact fun token _ other words h => absurd (closed_paren_iff.mp h).2 (List.cons_ne_nil _ _)
      · rename_i hclosing
        refine .congr (reads_closedBy (reads_parameterList scope hlex) (not_orComma_never (by decide))
          (fun parameters => reads_expect ")" parameters.rest) (fun _ _ => rfl) fun _ _ => rfl) hviable
          fun parameters words hbegins => closed_iff_listed fun hhead => hclosing ?_
        exact Option.some.inj (hbegins ")" hhead)

/-! ### Signatures -/

def AfterReturnType (scope declared : List String) (returnType : TypeExpr) (used : List String) : Rule Signature :=
  seq (NameAfter used) fun name _ => seq (mark "(") fun _ _ value rest =>
    ∃ parameters, ClosedBy ")" (Parameters (scope ++ declared)) parameters rest ∧
      ⟨name, declared, parameters, returnType⟩ = value

def AfterTypeParameters (scope declared : List String) : Rule Signature :=
  seq (IsType (scope ++ declared)) (AfterReturnType scope declared)

theorem isSignature_iff_seq {signature : Signature} :
    seq TypeParameters (fun declared _ => AfterTypeParameters scope declared) signature words ↔
      IsSignature scope signature words := by
  constructor
  · rintro ⟨declared, quantifier, _, rfl, hdeclared, returnType, used, _, rfl, hreturn, name, _, _, rfl,
      ⟨⟨hname, rfl⟩, hunbound⟩, -, _, _, rfl, rfl, parameters, ⟨inner, rfl, hparameters⟩, rfl⟩
    exact .mk hdeclared hreturn hname hunbound hparameters
  · rintro ⟨hdeclared, hreturn, hname, hunbound, hparameters⟩
    exact ⟨_, _, _, rfl, hdeclared, _, _, _, rfl, hreturn, _, [_], _, rfl, ⟨⟨hname, rfl⟩, hunbound⟩,
      (), ["("], _, rfl, rfl, _, ⟨_, rfl, hparameters⟩, rfl⟩

theorem not_nameAfter_nil (words : List String) (name : String) : ¬ NameAfter words name [] :=
  fun h => not_word_nil name h.1

/-- Whatever return type was read, a signature can still be completed. -/
theorem exists_afterReturnType (scope declared : List String) (returnType : TypeExpr) (used : List String) :
    ∃ signature words, AfterReturnType scope declared returnType used signature words :=
  ⟨_, _, "x", _, _, rfl, nameAfter_x used, (), _, _, rfl, rfl, [], closed_none _, rfl⟩

theorem exists_afterTypeParameters (scope declared : List String) :
    ∃ signature words, AfterTypeParameters scope declared signature words := by
  obtain ⟨signature, words, h⟩ := exists_afterReturnType scope declared (.wildcard .upper) ["?"]
  exact ⟨signature, _, _, _, words, rfl, .wildcard, h⟩

/-- The reader takes exactly the words of a signature. -/
theorem reads_signature (scope : List String) {tokens : List Token} (hlex : Lexical tokens) :
    Reads (IsSignature scope) never tokens (signature scope tokens) := by
  -- Each rule starts where the one before it has ended, with tokens that this one does not go on with.
  refine .of_iff (.bind (reads_typeParameters hlex) ?_ ?_
    (fun declared _ _ => exists_afterTypeParameters scope declared) fun declared used₁ htokens₁ _ _ => ?_)
    fun _ _ => isSignature_iff_seq
  · rintro declared used signature word rest - h rfl
    obtain ⟨type, others, htype⟩ := exists_of_seq_cons (not_isType_nil _) h
    exact absurd (head_of_isType htype) (by decide +kernel)
  · exact fun _ _ signature _ _ h => absurd h (not_seq_nil (not_isType_nil _) signature)
  have hlex₁ := Lexical.of_eq hlex htokens₁
  refine .bind (reads_typeExpr (scope ++ declared.value) hlex₁) ?_ ?_
    (fun type used _ => exists_afterReturnType scope declared.value type used)
    fun returnType used₂ htokens₂ htype hstop => ?_
  · rintro type used signature word rest - h
    obtain ⟨name, others, hname⟩ := exists_of_seq_cons (not_nameAfter_nil used) h
    exact not_typeGoesOn_of_nameAfter hname
  · exact fun _ used signature _ _ h => absurd h (not_seq_nil (not_nameAfter_nil used) signature)
  have hlex₂ := Lexical.of_eq hlex₁ htokens₂
  refine .bind (reads_nameAfter hlex₂ htype hstop) (fun _ _ _ _ _ _ _ h => h) (fun _ _ _ _ _ _ h => h.elim)
    (fun _ _ _ => ⟨_, _, (), _, _, rfl, rfl, [], closed_none _, rfl⟩) fun name used₃ htokens₃ _ _ => ?_
  have hlex₃ := Lexical.of_eq hlex₂ htokens₃
  refine .bind (reads_expect "(" name.rest) (fun _ _ _ _ _ _ _ h => h) (fun _ _ _ _ _ _ h => h.elim)
    (fun _ _ _ => ⟨_, _, [], closed_none _, rfl⟩) fun paren used₄ htokens₄ _ _ => ?_
  exact .map (reads_parametersAfterParen _ (Lexical.of_eq hlex₃ htokens₄))
    (f := fun parameters => ⟨name.value, declared.value, parameters, returnType.value⟩) (fun _ => rfl) (fun _ => rfl)
    fun _ _ => Iff.rfl

end Readers

end Grammar

/-- **What is read and where reading stops.** A text is read as a type or as a signature exactly if its tokens are
derived as one, and as the one that is derived. If they are not, the fault stands at the first token with which no
derivation begins any more, or at the end of the text if one begins with all the tokens. -/
theorem parse_derives_or_points :
    (∀ (text : String) (scope : List String),
      (∀ type, TypeExpr.parse text scope = .ok type ↔ Grammar.IsType scope type (Token.texts text)) ∧
      ((∀ type, ¬ Grammar.IsType scope type (Token.texts text)) →
        ∃ error, TypeExpr.parse text scope = .error error ∧
          PointsAt (Grammar.IsType scope) text error.position)) ∧
    ∀ (text : String) (scope : List String),
      (∀ signature, Signature.parse text scope = .ok signature ↔
        Grammar.IsSignature scope signature (Token.texts text)) ∧
      ((∀ signature, ¬ Grammar.IsSignature scope signature (Token.texts text)) →
        ∃ error, Signature.parse text scope = .error error ∧
          PointsAt (Grammar.IsSignature scope) text error.position) :=
  ⟨fun text scope => (Grammar.reads_typeExpr scope (Reading.lexical_ofText text)).whole,
    fun text scope => (Grammar.reads_signature scope (Reading.lexical_ofText text)).whole⟩

end BuilderFields
