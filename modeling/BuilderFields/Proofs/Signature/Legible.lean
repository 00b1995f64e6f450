import BuilderFields.Proofs.Signature.Grammar
import BuilderFields.Proofs.TypeExpr.Legible

/-!
# Signatures that are read back from their text

A signature is legible if its types are, with its type parameters as type variables besides those in scope, and if its
names are words. A name behind a type that ends in a wildcard must not be the word of a bound as well. A text is then
read as a legible signature that is written with the same tokens, and in no other way.
-/

namespace BuilderFields

open Token

/-! ### Signatures as they are written -/

namespace Signature

def nameLexemes : List String → List String
  | [] => []
  | first :: rest => "<" :: (separated ((first :: rest).map texts) ++ [">"])

def parameterLexemes (parameters : List Parameter) : List String :=
  separated (parameters.map fun parameter => parameter.type.lexemes ++ texts parameter.name)

def lexemes (signature : Signature) : List String :=
  nameLexemes signature.typeParameters ++ (signature.returnType.lexemes ++
    (texts signature.name ++ "(" :: (parameterLexemes signature.parameters ++ [")"])))

theorem nameLexemes_of_ne_nil {names : List String} (h : names ≠ []) :
    nameLexemes names = "<" :: (separated (names.map texts) ++ [">"]) := by
  obtain ⟨first, rest, rfl⟩ := List.exists_cons_of_ne_nil h
  rfl

theorem texts_quantifier_append (names : List String) (body : String) :
    texts ((if names.isEmpty then "" else "<" ++ Text.commaJoin names ++ "> ") ++ body) =
      nameLexemes names ++ texts body := by
  have hopening : IsMark "<" := ⟨'<', by decide⟩
  have hclosing : IsMark ">" := ⟨'>', by decide⟩
  cases names with
  | nil => simp [nameLexemes]
  | cons first rest =>
      have hwritten : "<" ++ Text.commaJoin (first :: rest) ++ "> " ++ body =
          "" ++ ("<" ++ (Text.commaJoin (first :: rest) ++ (">" ++ (" " ++ body)))) := by
        rw [String.empty_append, String.append_assoc, String.append_assoc,
          show ("> " : String) = ">" ++ " " from rfl, String.append_assoc]
      rw [List.isEmpty_cons, if_neg Bool.false_ne_true, hwritten, hopening.texts_append,
        hclosing.texts_append, texts_space_append, texts_commaJoin, texts_empty, nameLexemes]
      simp

/-- A written signature is cut into its lexemes. -/
theorem texts_text (signature : Signature) : texts signature.text = signature.lexemes := by
  have hopening : IsMark "(" := ⟨'(', by decide⟩
  have hclosing : IsMark ")" := ⟨')', by decide⟩
  have hparameters : (signature.parameters.map fun parameter =>
      parameter.type.text ++ " " ++ parameter.name).map texts =
        signature.parameters.map fun parameter =>
          parameter.type.lexemes ++ texts parameter.name := by
    rw [List.map_map]
    refine List.map_congr_left fun parameter _ => ?_
    rw [Function.comp_apply, String.append_assoc, texts_append_space, TypeExpr.lexemes]
  unfold text
  dsimp only
  rw [String.append_assoc, String.append_assoc, String.append_assoc, String.append_assoc,
    String.append_assoc, texts_quantifier_append, texts_append_space, hopening.texts_append,
    hclosing.texts_append_self, texts_commaJoin, hparameters]
  rfl

end Signature

namespace Grammar

theorem unbound_iff {words : List String} {next : String} :
    Unbound words next ↔
      (next = BoundKind.upper.text ∨ next = BoundKind.lower.text → words.getLast? ≠ some "?") := by
  constructor
  · rintro h (rfl | rfl) hlast
    · exact h hlast .upper rfl
    · exact h hlast .lower rfl
  · rintro h hlast (_ | _) rfl
    · exact h (Or.inl rfl) hlast
    · exact h (Or.inr rfl) hlast

-- The word comes first: it settles most cases, and the tokens before it are costly to cut.
instance (words : List String) (next : String) : Decidable (Unbound words next) :=
  decidable_of_iff _ unbound_iff.symm

end Grammar

namespace Signature

open Grammar

/-- The type is legible and can have this name behind it. -/
def Names (scope : List String) (type : TypeExpr) (name : String) : Prop :=
  type.isLegible scope ∧ IsWord name ∧ Unbound type.lexemes name

def IsLegible (scope : List String) (signature : Signature) : Prop :=
  (∀ name ∈ signature.typeParameters, IsWord name) ∧
    Names (scope ++ signature.typeParameters) signature.returnType signature.name ∧
    ∀ parameter ∈ signature.parameters,
      Names (scope ++ signature.typeParameters) parameter.type parameter.name

instance (scope : List String) (type : TypeExpr) (name : String) : Decidable (Names scope type name) :=
  inferInstanceAs (Decidable (_ ∧ _ ∧ _))

instance (scope : List String) (signature : Signature) : Decidable (signature.IsLegible scope) :=
  inferInstanceAs (Decidable (_ ∧ _ ∧ _))

variable {scope names words : List String} {parameter : Parameter} {parameters : List Parameter}
  {signature : Signature}

theorem typeParameters_iff :
    TypeParameters names words ↔ (∀ name ∈ names, IsWord name) ∧ words = nameLexemes names := by
  constructor
  · intro h
    cases h with
    | none => exact ⟨List.forall_mem_nil _, rfl⟩
    | @some _ inner h =>
        have hwords : ∀ name ∈ names, IsWord name := by
          intro name hname
          obtain ⟨_, hword, -⟩ := exists_of_listed h name hname
          exact hword
        have hinner : inner = separated (names.map texts) :=
          eq_separated_of_listed h fun _ _ _ ⟨hword, hspelt⟩ => hspelt.trans hword.1.symm
        have hne : names ≠ [] := by
          rintro rfl
          cases h
        exact ⟨hwords, by rw [nameLexemes_of_ne_nil hne, hinner]⟩
  · rintro ⟨h, rfl⟩
    cases names with
    | nil => exact .none
    | cons first rest =>
        exact .some (listed_separated (List.cons_ne_nil _ _) fun name hname => ⟨h name hname, (h name hname).1⟩)

theorem isParameter_iff : IsParameter scope parameter words ↔
    Names scope parameter.type parameter.name ∧ words = parameter.type.lexemes ++ texts parameter.name := by
  constructor
  · rintro ⟨htype, hname, hunbound⟩
    obtain ⟨hlegible, rfl⟩ := TypeExpr.isType_iff.mp htype
    have hlexeme : texts _ = [_] := hname.1
    exact ⟨⟨hlegible, hname, hunbound⟩, by rw [hlexeme]⟩
  · rintro ⟨⟨hlegible, hname, hunbound⟩, rfl⟩
    have hlexeme : texts parameter.name = [parameter.name] := hname.1
    rw [hlexeme]
    exact .mk (TypeExpr.isType_lexemes hlegible) hname hunbound

theorem parameters_iff : Parameters scope parameters words ↔
    (∀ parameter ∈ parameters, Names scope parameter.type parameter.name) ∧
      words = parameterLexemes parameters := by
  constructor
  · intro h
    cases h with
    | none => exact ⟨List.forall_mem_nil _, rfl⟩
    | some h =>
        refine ⟨fun parameter hparameter => ?_, ?_⟩
        · obtain ⟨_, hnames⟩ := exists_of_listed h parameter hparameter
          exact (isParameter_iff.mp hnames).1
        · exact eq_separated_of_listed h fun _ _ _ hnames => (isParameter_iff.mp hnames).2
  · rintro ⟨h, rfl⟩
    cases parameters with
    | nil => exact .none
    | cons first rest =>
        exact .some (listed_separated (List.cons_ne_nil _ _) fun parameter hparameter =>
          isParameter_iff.mpr ⟨h parameter hparameter, rfl⟩)

theorem isSignature_iff :
    IsSignature scope signature words ↔ signature.IsLegible scope ∧ words = signature.lexemes := by
  constructor
  · rintro ⟨hdeclared, hreturn, hname, hunbound, hparameters⟩
    obtain ⟨hwords, rfl⟩ := typeParameters_iff.mp hdeclared
    obtain ⟨hlegible, rfl⟩ := TypeExpr.isType_iff.mp hreturn
    obtain ⟨hnames, rfl⟩ := parameters_iff.mp hparameters
    have hlexeme : texts _ = [_] := hname.1
    refine ⟨⟨hwords, ⟨hlegible, hname, hunbound⟩, hnames⟩, ?_⟩
    rw [lexemes, hlexeme]
    rfl
  · rintro ⟨⟨hwords, ⟨hlegible, hname, hunbound⟩, hnames⟩, rfl⟩
    have hlexeme : texts signature.name = [signature.name] := hname.1
    rw [lexemes, hlexeme]
    exact .mk (typeParameters_iff.mpr ⟨hwords, rfl⟩) (TypeExpr.isType_lexemes hlegible) hname hunbound
      (parameters_iff.mpr ⟨hnames, rfl⟩)

/-- A text is read as a legible signature that is written with the same tokens, and in no other way. -/
theorem parse_eq_ok_iff {text : String} :
    parse text scope = .ok signature ↔ signature.IsLegible scope ∧ texts text = signature.lexemes :=
  ((reads_signature scope (Reading.lexical_ofText text)).whole.1 signature).trans isSignature_iff

/-- A signature is read back from its text exactly if it is legible. -/
theorem parse_text_iff : parse signature.text scope = .ok signature ↔ signature.IsLegible scope :=
  parse_eq_ok_iff.trans (and_iff_left signature.texts_text)

theorem canonicalText_of_isLegible (h : signature.IsLegible scope) :
    signature.canonicalText = .ok signature.text := by
  obtain ⟨-, hreturn, hparameters⟩ := h
  have hgenuine : ∀ type ∈ signature.types, type.Genuine := by
    rw [types, List.forall_mem_append, List.forall_mem_map, List.forall_mem_singleton]
    exact ⟨fun parameter hparameter => TypeExpr.genuine_of_isLegible (hparameters parameter hparameter).1,
      TypeExpr.genuine_of_isLegible hreturn.1⟩
  have hnone : TypeExpr.foreignAmong? signature.types = none := by
    rw [TypeExpr.foreignAmong?_eq_findSome?, List.findSome?_eq_none_iff]
    exact hgenuine
  rw [canonicalText, hnone]

end Signature

/-- **Writing undoes reading.** A type or a signature that was read has a canonical text, and reading that text with
the same type variables in scope gives it again. -/
theorem parse_canonicalText :
    (∀ (text : String) (scope : List String) (type : TypeExpr),
      TypeExpr.parse text scope = .ok type →
        ∃ written, type.canonicalText = .ok written ∧ TypeExpr.parse written scope = .ok type) ∧
    ∀ (text : String) (scope : List String) (signature : Signature),
      Signature.parse text scope = .ok signature →
        ∃ written, signature.canonicalText = .ok written ∧
          Signature.parse written scope = .ok signature := by
  constructor
  · intro text scope type h
    have hlegible : type.isLegible scope := (TypeExpr.parse_eq_ok_iff.mp h).1
    exact ⟨type.text, TypeExpr.canonicalText_eq_ok_iff.mpr ⟨TypeExpr.genuine_of_isLegible hlegible, rfl⟩,
      TypeExpr.parse_text_iff.mpr hlegible⟩
  · intro text scope signature h
    have hlegible : signature.IsLegible scope := (Signature.parse_eq_ok_iff.mp h).1
    exact ⟨signature.text, Signature.canonicalText_of_isLegible hlegible, Signature.parse_text_iff.mpr hlegible⟩

/-! ### `<U>a . b< ?extends  T[ ]>f (U x,int y)`, where `T` is a type variable -/

namespace Spaced

def returned : TypeExpr :=
  .declared "a.b" [.bounded .upper (.array (.typeVar "T"))]

def signature : Signature :=
  ⟨"f", ["U"], [⟨"x", .typeVar "U"⟩, ⟨"y", .primitive "int"⟩], returned⟩

theorem parse_returned : TypeExpr.parse "a . b< ?extends  T[ ]>" ["T"] = .ok returned :=
  TypeExpr.parse_eq_ok_iff.mpr (by decide +kernel)

theorem parse_signature :
    Signature.parse "<U>a . b< ?extends  T[ ]>f (U x,int y)" ["T"] = .ok signature :=
  Signature.parse_eq_ok_iff.mpr (by decide +kernel)

theorem parse_written :
    TypeExpr.parse "a . b< ?extends  T[ ]>" ["T"] = .ok returned ∧
      TypeExpr.parse "a.b<? extends T[]>" ["T"] = .ok returned ∧
      Signature.parse "<U>a . b< ?extends  T[ ]>f (U x,int y)" ["T"] = .ok signature ∧
      Signature.parse "<U> a.b<? extends T[]> f(U x, int y)" ["T"] = .ok signature := by
  obtain ⟨htypes, hsignatures⟩ := parse_canonicalText
  obtain ⟨type, htype, hagain⟩ := htypes _ _ _ parse_returned
  obtain ⟨written, hwritten, hparse⟩ := hsignatures _ _ _ parse_signature
  obtain rfl : "a.b<? extends T[]>" = type := Except.ok.inj htype
  obtain rfl : "<U> a.b<? extends T[]> f(U x, int y)" = written := Except.ok.inj hwritten
  exact ⟨parse_returned, hagain, parse_signature, hparse⟩

end Spaced

end BuilderFields
