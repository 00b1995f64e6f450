import BuilderFields.Proofs.TypeExpr.Grammar

/-!
# Types that are read back from their text

A type need not be read back from its own text: a primitive, a type variable and a declared type without arguments are
all written by name, and nothing keeps a name from being no name at all. The types that are read back are told by
looking at their names alone: each is spelt as a dotted name and is of the kind that the reader takes it for.
-/

namespace BuilderFields

/-! ### Types as they are written -/

namespace TypeExpr

def lexemes (type : TypeExpr) : List String :=
  Token.texts type.text

def listLexemes (types : List TypeExpr) : List String :=
  Token.separated (types.map lexemes)

def argumentLexemes : List TypeExpr → List String
  | [] => []
  | first :: rest => "<" :: (listLexemes (first :: rest) ++ [">"])

theorem argumentLexemes_of_ne_nil {arguments : List TypeExpr} (h : arguments ≠ []) :
    argumentLexemes arguments = "<" :: (listLexemes arguments ++ [">"]) := by
  obtain ⟨first, rest, rfl⟩ := List.exists_cons_of_ne_nil h
  rfl

theorem lexemes_typeVar (name : String) : (typeVar name).lexemes = Token.texts name := by
  rw [lexemes, text]

theorem lexemes_array (component : TypeExpr) :
    (array component).lexemes = component.lexemes ++ ["[", "]"] := by
  have hopening : Token.IsMark "[" := ⟨'[', by decide⟩
  have hclosing : Token.texts "]" = ["]"] := by decide +kernel
  rw [lexemes, text, show ("[]" : String) = "[" ++ "]" from rfl, hopening.texts_append, hclosing]
  rfl

theorem lexemes_wildcard (kind : BoundKind) : (wildcard kind).lexemes = ["?"] := by
  rw [lexemes, text]
  decide +kernel

theorem isLexeme_text_boundKind (kind : BoundKind) : Token.IsLexeme kind.text := by
  cases kind <;> decide +kernel

theorem lexemes_bounded (kind : BoundKind) (bound : TypeExpr) :
    (bounded kind bound).lexemes = "?" :: kind.text :: bound.lexemes := by
  have hmark : Token.IsMark "?" := ⟨'?', by decide⟩
  have hwritten : (bounded kind bound).text =
      "" ++ ("?" ++ (" " ++ (kind.text ++ (" " ++ bound.text)))) := by
    rw [text, String.append_assoc, String.append_assoc, String.empty_append,
      show ("? " : String) = "?" ++ " " from rfl, String.append_assoc]
  rw [lexemes, hwritten, hmark.texts_append, Token.texts_empty, Token.texts_space_append,
    Token.texts_append_space, isLexeme_text_boundKind kind]
  rfl

theorem lexemes_declared (name : String) (arguments : List TypeExpr) :
    (declared name arguments).lexemes = Token.texts name ++ argumentLexemes arguments := by
  cases arguments with
  | nil => rw [lexemes, text, argumentLexemes, List.append_nil]
  | cons first rest =>
      have hopening : Token.IsMark "<" := ⟨'<', by decide⟩
      have hclosing : Token.IsMark ">" := ⟨'>', by decide⟩
      have hall : first.text :: textAll rest = (first :: rest).map text := by
        rw [textAll_eq_map, List.map_cons]
      rw [lexemes, text, String.append_assoc, String.append_assoc, hopening.texts_append,
        hclosing.texts_append_self, Token.texts_commaJoin, hall, List.map_map]
      rfl

end TypeExpr

open Token

namespace Grammar

/-! ### Dotted names -/

section Names

variable {name full : String} {words : List String}

theorem dotted_cons_cons_iff {first word : String} :
    Dotted name full (first :: word :: words) ↔
      first = "." ∧ IsWord word ∧ Dotted (name ++ "." ++ word) full words := by
  rw [dotted_cons_iff]
  constructor
  · rintro ⟨hdot, _, _, hcons, hword, h⟩
    obtain ⟨rfl, rfl⟩ := List.cons.inj hcons
    exact ⟨hdot, hword, h⟩
  · rintro ⟨hdot, hword, h⟩
    exact ⟨hdot, word, words, rfl, hword, h⟩

theorem not_dotted_singleton (name full first : String) : ¬ Dotted name full [first] := by
  intro h
  obtain ⟨-, _, _, hcons, -⟩ := dotted_cons_iff.mp h
  cases hcons

instance decidableDotted (name full : String) : (words : List String) → Decidable (Dotted name full words)
  | [] => decidable_of_iff (full = name) dotted_nil_iff.symm
  | [first] => isFalse (not_dotted_singleton name full first)
  | first :: word :: words =>
    have := decidableDotted (name ++ "." ++ word) full words
    decidable_of_iff (first = "." ∧ IsWord word ∧ Dotted (name ++ "." ++ word) full words)
      dotted_cons_cons_iff.symm

theorem isName_cons_iff {first : String} : IsName name (first :: words) ↔ IsWord first ∧ Dotted first name words := by
  constructor
  · rintro ⟨hfirst, h⟩
    exact ⟨hfirst, h⟩
  · rintro ⟨hfirst, h⟩
    exact .mk hfirst h

instance decidableIsName (name : String) : (words : List String) → Decidable (IsName name words)
  | [] => isFalse (not_isName_nil name)
  | first :: words => decidable_of_iff (IsWord first ∧ Dotted first name words) isName_cons_iff.symm

theorem Dotted.texts_eq (h : Dotted name full words) : texts full = texts name ++ words := by
  have hdot : IsMark "." := ⟨'.', by decide⟩
  induction h with
  | done name => rw [List.append_nil]
  | @dot name word full words hword _ ih =>
      have hlexeme : texts word = [word] := hword.1
      rw [ih, String.append_assoc, hdot.texts_append, hlexeme, List.append_assoc]
      rfl

/-- A dotted name is cut into the words that spell it. -/
theorem IsName.texts_eq (h : IsName name words) : texts name = words := by
  cases h with
  | @mk first _ rest hfirst h =>
      have hlexeme : texts first = [first] := hfirst.1
      rw [h.texts_eq, hlexeme]
      rfl

theorem listed_separated {α : Type} {rule : Rule α} {spell : α → List String} {values : List α}
    (hne : values ≠ []) (h : ∀ value ∈ values, rule value (spell value)) :
    Listed rule values (separated (values.map spell)) := by
  induction values with
  | nil => exact absurd rfl hne
  | cons first rest ih =>
      obtain ⟨hfirst, hrest⟩ := List.forall_mem_cons.mp h
      cases rest with
      | nil =>
          rw [List.map_singleton, separated_singleton]
          exact .one hfirst
      | cons second rest =>
          rw [List.map_cons, separated_cons _ (by simp)]
          exact .more hfirst (ih (List.cons_ne_nil _ _) hrest)

/-- What is listed is spelt item by item, with commas between them. -/
theorem eq_separated_of_listed {α : Type} {rule : Rule α} {spell : α → List String} {values : List α}
    (h : Listed rule values words) (hspell : ∀ value ∈ values, ∀ words, rule value words → words = spell value) :
    words = separated (values.map spell) := by
  induction h with
  | @one value words h =>
      rw [List.map_singleton, separated_singleton]
      exact hspell value List.mem_cons_self words h
  | @more value values words others h hothers ih =>
      have hne : values.map spell ≠ [] := by
        cases hothers <;> simp
      rw [List.map_cons, separated_cons _ hne]
      obtain ⟨hfirst, hrest⟩ := List.forall_mem_cons.mp hspell
      rw [hfirst words h, ih hrest]

theorem exists_of_listed {α : Type} {rule : Rule α} {values : List α} (h : Listed rule values words) :
    ∀ value ∈ values, ∃ words, rule value words := by
  induction h with
  | one h => exact List.forall_mem_singleton.mpr ⟨_, h⟩
  | more h _ ih => exact List.forall_mem_cons.mpr ⟨⟨_, h⟩, ih⟩

end Names

/-! ### Heads and brackets -/

/-- What stands before the brackets of a type that is no wildcard. -/
inductive IsHead (scope : List String) : TypeExpr → List String → Prop
  | primitive {name : String} {words : List String} (hname : IsName name words)
      (hprimitive : name ∈ TypeExpr.primitiveNames) : IsHead scope (.primitive name) words
  | typeVar {name : String} {words : List String} (hname : IsName name words)
      (hprimitive : name ∉ TypeExpr.primitiveNames) (hscope : name ∈ scope) : IsHead scope (.typeVar name) words
  | declared {name : String} {words : List String} (hname : IsName name words)
      (hprimitive : name ∉ TypeExpr.primitiveNames) (hscope : name ∉ scope) : IsHead scope (.declared name []) words
  | generic {name : String} {arguments : List TypeExpr} {words inner : List String} (hname : IsName name words)
      (hprimitive : name ∉ TypeExpr.primitiveNames) (hscope : name ∉ scope)
      (harguments : Listed (IsType scope) arguments inner) :
      IsHead scope (.declared name arguments) (words ++ "<" :: (inner ++ [">"]))

section Heads

variable {scope : List String} {head type whole component : TypeExpr} {words brackets : List String}

theorem IsHead.isType (h : IsHead scope head words) (hbrackets : Brackets head type brackets) :
    IsType scope type (words ++ brackets) := by
  cases h with
  | primitive hname hprimitive => exact .primitive hname hprimitive hbrackets
  | typeVar hname hprimitive hscope => exact .typeVar hname hprimitive hscope hbrackets
  | declared hname hprimitive hscope => exact .declared hname hprimitive hscope hbrackets
  | generic hname hprimitive hscope harguments =>
      rw [List.append_assoc, List.cons_append, List.append_assoc, List.singleton_append]
      exact .generic hname hprimitive hscope harguments hbrackets

/-- A type is a wildcard, or a head with brackets behind it. -/
theorem IsType.cases_head (h : IsType scope type words) :
    (type = .wildcard .upper ∧ words = ["?"]) ∨
      (∃ kind bound rest, type = .bounded kind bound ∧ words = "?" :: kind.text :: rest ∧ IsType scope bound rest) ∨
      ∃ head used brackets, words = used ++ brackets ∧ IsHead scope head used ∧ Brackets head type brackets := by
  cases h with
  | wildcard => exact Or.inl ⟨rfl, rfl⟩
  | bounded h => exact Or.inr (Or.inl ⟨_, _, _, rfl, rfl, h⟩)
  | primitive hname hprimitive hbrackets =>
      exact Or.inr (Or.inr ⟨_, _, _, rfl, .primitive hname hprimitive, hbrackets⟩)
  | typeVar hname hprimitive hscope hbrackets =>
      exact Or.inr (Or.inr ⟨_, _, _, rfl, .typeVar hname hprimitive hscope, hbrackets⟩)
  | declared hname hprimitive hscope hbrackets =>
      exact Or.inr (Or.inr ⟨_, _, _, rfl, .declared hname hprimitive hscope, hbrackets⟩)
  | @generic name arguments type words inner brackets hname hprimitive hscope harguments hbrackets =>
      refine Or.inr (Or.inr ⟨_, words ++ "<" :: (inner ++ [">"]), brackets, ?_,
        .generic hname hprimitive hscope harguments, hbrackets⟩)
      rw [List.append_assoc, List.cons_append, List.append_assoc, List.singleton_append]

theorem Brackets.array (h : Brackets type whole words) : Brackets type (.array whole) (words ++ ["[", "]"]) := by
  induction h with
  | done type => exact .pair (.done _)
  | pair _ ih => exact .pair ih

theorem Brackets.eq_or_array (h : Brackets type whole words) :
    (whole = type ∧ words = []) ∨
      ∃ component before, whole = .array component ∧ words = before ++ ["[", "]"] ∧
        Brackets type component before := by
  induction h with
  | done type => exact Or.inl ⟨rfl, rfl⟩
  | @pair type whole words _ ih =>
      rcases ih with ⟨rfl, rfl⟩ | ⟨component, before, rfl, rfl, hbefore⟩
      · exact Or.inr ⟨type, [], rfl, rfl, .done type⟩
      · exact Or.inr ⟨component, "[" :: "]" :: before, rfl, rfl, .pair hbefore⟩

end Heads

end Grammar

namespace TypeExpr

open Grammar

def isWildcard : TypeExpr → Bool
  | .wildcard _ => true
  | .bounded _ _ => true
  | _ => false

mutual

/-- Every name of the type is read as what it is here, and nothing else stands in the way of reading the type. -/
def isLegible (scope : List String) : TypeExpr → Bool
  | .primitive name => decide (name ∈ primitiveNames)
  | .array component => !component.isWildcard && component.isLegible scope
  | .declared name arguments =>
    decide (IsName name (texts name) ∧ name ∉ primitiveNames ∧ name ∉ scope) && areLegible scope arguments
  | .typeVar name => decide (IsName name (texts name) ∧ name ∉ primitiveNames ∧ name ∈ scope)
  | .wildcard kind => decide (kind = .upper)
  | .bounded _ bound => bound.isLegible scope
  | .intersection _ => false
  | .scalar _ => false

def areLegible (scope : List String) : List TypeExpr → Bool
  | [] => true
  | first :: rest => first.isLegible scope && areLegible scope rest

end

variable {scope words : List String} {head type : TypeExpr}

theorem areLegible_iff {types : List TypeExpr} :
    areLegible scope types ↔ ∀ type ∈ types, type.isLegible scope := by
  induction types with
  | nil => simp [areLegible]
  | cons first rest ih => rw [areLegible, Bool.and_eq_true, List.forall_mem_cons, ih]

theorem isLegible_primitive_iff {name : String} : (primitive name).isLegible scope ↔ name ∈ primitiveNames := by
  simp [isLegible]

theorem isLegible_array_iff {component : TypeExpr} :
    (array component).isLegible scope ↔ component.isWildcard = false ∧ component.isLegible scope := by
  simp [isLegible]

theorem isLegible_declared_iff {name : String} {arguments : List TypeExpr} :
    (declared name arguments).isLegible scope ↔
      (IsName name (texts name) ∧ name ∉ primitiveNames ∧ name ∉ scope) ∧
        ∀ argument ∈ arguments, argument.isLegible scope := by
  simp [isLegible, areLegible_iff]

theorem isLegible_typeVar_iff {name : String} : (typeVar name).isLegible scope ↔
    IsName name (texts name) ∧ name ∉ primitiveNames ∧ name ∈ scope := by
  simp [isLegible]

theorem isName_of_mem_primitiveNames : ∀ name ∈ primitiveNames, IsName name (texts name) := by
  decide +kernel

theorem isWildcard_of_isHead (h : IsHead scope head words) {brackets : List String}
    (hbrackets : Brackets head type brackets) : type.isWildcard = false := by
  rcases hbrackets.eq_or_array with ⟨rfl, -⟩ | ⟨component, before, rfl, -, -⟩
  · cases h <;> rfl
  · rfl

/-- The text of a legible type is derived as the type. -/
theorem isType_lexemes (h : type.isLegible scope) : IsType scope type type.lexemes := by
  induction type using TypeExpr.inductionOn with
  | primitive name =>
      have hprimitive : name ∈ primitiveNames := isLegible_primitive_iff.mp h
      rw [lexemes, text, ← List.append_nil (texts name)]
      exact .primitive (isName_of_mem_primitiveNames name hprimitive) hprimitive (.done _)
  | array component ih =>
      obtain ⟨hwildcard, hcomponent⟩ := isLegible_array_iff.mp h
      rw [lexemes_array]
      rcases (ih hcomponent).cases_head with ⟨rfl, -⟩ | ⟨kind, bound, rest, rfl, -, -⟩ |
        ⟨head, used, brackets, hused, hhead, hbrackets⟩
      · cases hwildcard
      · cases hwildcard
      · rw [hused, List.append_assoc]
        exact hhead.isType hbrackets.array
  | declared name arguments ih =>
      obtain ⟨⟨hname, hprimitive, hscope⟩, harguments⟩ := isLegible_declared_iff.mp h
      rw [lexemes_declared]
      cases arguments with
      | nil => exact .declared hname hprimitive hscope (.done _)
      | cons first rest =>
          have hlisted : Listed (IsType scope) (first :: rest) (listLexemes (first :: rest)) :=
            listed_separated (List.cons_ne_nil _ _) fun argument hargument =>
              ih argument hargument (harguments argument hargument)
          exact .generic hname hprimitive hscope hlisted (.done _)
  | typeVar name =>
      obtain ⟨hname, hprimitive, hscope⟩ := isLegible_typeVar_iff.mp h
      rw [lexemes_typeVar, ← List.append_nil (texts name)]
      exact .typeVar hname hprimitive hscope (.done _)
  | wildcard kind =>
      obtain rfl : kind = .upper := by simpa [isLegible] using h
      rw [lexemes_wildcard]
      exact .wildcard
  | bounded kind bound ih =>
      rw [lexemes_bounded]
      exact .bounded (ih h)
  | intersection bounds => cases h
  | scalar value => cases h

/-- What a derivation of the type says about its names, and which derivations there are of its parts. -/
def Parts (scope words : List String) : TypeExpr → Prop
  | .primitive name => name ∈ primitiveNames ∧ words = texts name
  | .array component =>
    component.isWildcard = false ∧ ∃ rest, IsType scope component rest ∧ words = rest ++ ["[", "]"]
  | .declared name arguments =>
    (IsName name (texts name) ∧ name ∉ primitiveNames ∧ name ∉ scope) ∧
      (arguments = [] ∧ words = texts name ∨
        ∃ inner, Listed (IsType scope) arguments inner ∧ words = texts name ++ "<" :: (inner ++ [">"]))
  | .typeVar name => (IsName name (texts name) ∧ name ∉ primitiveNames ∧ name ∈ scope) ∧ words = texts name
  | .wildcard kind => kind = .upper ∧ words = ["?"]
  | .bounded kind bound => ∃ rest, IsType scope bound rest ∧ words = "?" :: kind.text :: rest
  | .intersection _ => False
  | .scalar _ => False

theorem parts_of_isHead (h : IsHead scope type words) : type.Parts scope words := by
  cases h with
  | primitive hname hprimitive => exact ⟨hprimitive, hname.texts_eq.symm⟩
  | typeVar hname hprimitive hscope =>
      exact ⟨⟨hname.texts_eq.symm ▸ hname, hprimitive, hscope⟩, hname.texts_eq.symm⟩
  | declared hname hprimitive hscope =>
      exact ⟨⟨hname.texts_eq.symm ▸ hname, hprimitive, hscope⟩, Or.inl ⟨rfl, hname.texts_eq.symm⟩⟩
  | @generic name arguments words inner hname hprimitive hscope harguments =>
      refine ⟨⟨hname.texts_eq.symm ▸ hname, hprimitive, hscope⟩, Or.inr ⟨inner, harguments, ?_⟩⟩
      rw [hname.texts_eq]

theorem parts_of_isType (h : IsType scope type words) : type.Parts scope words := by
  rcases h.cases_head with ⟨rfl, rfl⟩ | ⟨kind, bound, rest, rfl, rfl, hbound⟩ |
    ⟨head, used, brackets, rfl, hhead, hbrackets⟩
  · exact ⟨rfl, rfl⟩
  · exact ⟨rest, hbound, rfl⟩
  · rcases hbrackets.eq_or_array with ⟨rfl, rfl⟩ | ⟨component, before, rfl, rfl, hbefore⟩
    · rw [List.append_nil]
      exact parts_of_isHead hhead
    · exact ⟨isWildcard_of_isHead hhead hbefore, _, hhead.isType hbefore, (List.append_assoc ..).symm⟩

/-- Only legible types are derived, and only from what is written for them. -/
theorem isLegible_of_isType (h : IsType scope type words) : type.isLegible scope ∧ words = type.lexemes := by
  induction type using TypeExpr.inductionOn generalizing words with
  | primitive name =>
      obtain ⟨hprimitive, rfl⟩ := parts_of_isType h
      exact ⟨isLegible_primitive_iff.mpr hprimitive, by rw [lexemes, text]⟩
  | array component ih =>
      obtain ⟨hwildcard, rest, hrest, rfl⟩ := parts_of_isType h
      obtain ⟨hcomponent, rfl⟩ := ih hrest
      exact ⟨isLegible_array_iff.mpr ⟨hwildcard, hcomponent⟩, (lexemes_array component).symm⟩
  | declared name arguments ih =>
      obtain ⟨hname, ⟨rfl, rfl⟩ | ⟨inner, hlisted, rfl⟩⟩ := parts_of_isType h
      · refine ⟨isLegible_declared_iff.mpr ⟨hname, List.forall_mem_nil _⟩, ?_⟩
        rw [lexemes_declared, argumentLexemes, List.append_nil]
      · have harguments : ∀ argument ∈ arguments, argument.isLegible scope := by
          intro argument hargument
          obtain ⟨rest, hrest⟩ := exists_of_listed hlisted argument hargument
          exact (ih argument hargument hrest).1
        have hinner : inner = listLexemes arguments :=
          eq_separated_of_listed hlisted fun argument hargument _ hrest => (ih argument hargument hrest).2
        have hne : arguments ≠ [] := by
          rintro rfl
          cases hlisted
        refine ⟨isLegible_declared_iff.mpr ⟨hname, harguments⟩, ?_⟩
        rw [lexemes_declared, argumentLexemes_of_ne_nil hne, hinner]
  | typeVar name =>
      obtain ⟨hname, rfl⟩ := parts_of_isType h
      exact ⟨isLegible_typeVar_iff.mpr hname, (lexemes_typeVar name).symm⟩
  | wildcard kind =>
      obtain ⟨rfl, rfl⟩ := parts_of_isType h
      exact ⟨rfl, (lexemes_wildcard .upper).symm⟩
  | bounded kind bound ih =>
      obtain ⟨rest, hrest, rfl⟩ := parts_of_isType h
      obtain ⟨hbound, rfl⟩ := ih hrest
      exact ⟨hbound, (lexemes_bounded kind bound).symm⟩
  | intersection bounds => exact (parts_of_isType h).elim
  | scalar value => exact (parts_of_isType h).elim

theorem isType_iff : IsType scope type words ↔ type.isLegible scope ∧ words = type.lexemes := by
  constructor
  · exact isLegible_of_isType
  · rintro ⟨h, rfl⟩
    exact isType_lexemes h

theorem genuine_of_isLegible (h : type.isLegible scope) : type.Genuine := by
  induction type using TypeExpr.inductionOn with
  | primitive name => rfl
  | array component ih =>
      rw [Genuine, foreign?]
      exact ih (isLegible_array_iff.mp h).2
  | declared name arguments ih =>
      obtain ⟨-, harguments⟩ := isLegible_declared_iff.mp h
      exact genuine_declared name fun argument hargument =>
        ih argument hargument (harguments argument hargument)
  | typeVar name => rfl
  | wildcard kind => rfl
  | bounded kind bound ih =>
      rw [Genuine, foreign?]
      exact ih h
  | intersection bounds => cases h
  | scalar value => cases h

/-- A text is read as a legible type that is written with the same tokens, and in no other way. -/
theorem parse_eq_ok_iff {text : String} :
    parse text scope = .ok type ↔ type.isLegible scope ∧ texts text = type.lexemes :=
  ((reads_typeExpr scope (Reading.lexical_ofText text)).whole.1 type).trans isType_iff

/-- A type is read back from its text exactly if it is legible. -/
theorem parse_text_iff : parse type.text scope = .ok type ↔ type.isLegible scope :=
  parse_eq_ok_iff.trans (and_iff_left rfl)

end TypeExpr

end BuilderFields
