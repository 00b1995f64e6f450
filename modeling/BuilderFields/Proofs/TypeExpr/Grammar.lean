import BuilderFields.Proofs.Rule
import BuilderFields.Proofs.TypeExpr

/-!
# The grammar of types

Types are derived by rules that know nothing of readers, and each reader is shown to read by its rule. After a type
that is complete the only tokens that it might go on with are a dot, an opening bracket of either kind, and the words
of bounds after a question mark, none of which ever follows a type elsewhere in the grammar.
-/

namespace BuilderFields

namespace Reading

open Token

/-- The texts of the tokens are tokens. -/
def Lexical (tokens : List Token) : Prop :=
  ∀ text ∈ tokens.map Token.text, IsLexeme text

theorem lexical_ofText (text : String) : Lexical (ofText text) :=
  fun _ h => isLexeme_of_mem_cut h

theorem Lexical.of_append {tokens rest : List Token} {used : List String} (h : Lexical tokens)
    (hrest : tokens.map Token.text = used ++ rest.map Token.text) : Lexical rest :=
  fun _ hmem => h _ (hrest ▸ List.mem_append_right _ hmem)

end Reading

namespace Grammar

open Token Rule

def IsWord (word : String) : Prop :=
  IsLexeme word ∧ isIdentifier ⟨word, 0⟩

def word : Rule String := fun value words =>
  IsWord value ∧ words = [value]

def mark (text : String) : Rule Unit := fun _ words =>
  words = [text]

inductive Dotted : String → String → List String → Prop
  | done (name : String) : Dotted name name []
  | dot {name word full : String} {words : List String} (hword : IsWord word)
      (h : Dotted (name ++ "." ++ word) full words) : Dotted name full ("." :: word :: words)

inductive IsName : String → List String → Prop
  | mk {first name : String} {words : List String} (hfirst : IsWord first) (h : Dotted first name words) :
      IsName name (first :: words)

inductive Listed {α : Type} (rule : α → List String → Prop) : List α → List String → Prop
  | one {value : α} {words : List String} (h : rule value words) : Listed rule [value] words
  | more {value : α} {values : List α} {words others : List String} (h : rule value words)
      (hothers : Listed rule values others) : Listed rule (value :: values) (words ++ "," :: others)

inductive Brackets : TypeExpr → TypeExpr → List String → Prop
  | done (type : TypeExpr) : Brackets type type []
  | pair {type whole : TypeExpr} {words : List String} (h : Brackets (.array type) whole words) :
      Brackets type whole ("[" :: "]" :: words)

/-- Types, with the names in `scope` as type variables. -/
inductive IsType (scope : List String) : TypeExpr → List String → Prop
  | wildcard : IsType scope (.wildcard .upper) ["?"]
  | bounded {kind : BoundKind} {bound : TypeExpr} {words : List String} (h : IsType scope bound words) :
      IsType scope (.bounded kind bound) ("?" :: kind.text :: words)
  | primitive {name : String} {type : TypeExpr} {words brackets : List String} (hname : IsName name words)
      (hprimitive : name ∈ TypeExpr.primitiveNames) (hbrackets : Brackets (.primitive name) type brackets) :
      IsType scope type (words ++ brackets)
  | typeVar {name : String} {type : TypeExpr} {words brackets : List String} (hname : IsName name words)
      (hprimitive : name ∉ TypeExpr.primitiveNames) (hscope : name ∈ scope)
      (hbrackets : Brackets (.typeVar name) type brackets) : IsType scope type (words ++ brackets)
  | declared {name : String} {type : TypeExpr} {words brackets : List String} (hname : IsName name words)
      (hprimitive : name ∉ TypeExpr.primitiveNames) (hscope : name ∉ scope)
      (hbrackets : Brackets (.declared name []) type brackets) : IsType scope type (words ++ brackets)
  | generic {name : String} {arguments : List TypeExpr} {type : TypeExpr} {words inner brackets : List String}
      (hname : IsName name words) (hprimitive : name ∉ TypeExpr.primitiveNames) (hscope : name ∉ scope)
      (harguments : Listed (IsType scope) arguments inner)
      (hbrackets : Brackets (.declared name arguments) type brackets) :
      IsType scope type (words ++ "<" :: (inner ++ ">" :: brackets))

/-! ### Words and names -/

def never : List String → String → Prop := fun _ _ =>
  False

def goesOnWith (mark : String) : List String → String → Prop := fun _ word =>
  word = mark

instance (word : String) : Decidable (IsWord word) :=
  inferInstanceAs (Decidable (IsLexeme word ∧ isIdentifier ⟨word, 0⟩))

theorem isWord_x : IsWord "x" := by
  decide +kernel

/-- A lexeme is a word exactly if the reader takes it for an identifier. -/
theorem isWord_iff {token : Token} (hlex : IsLexeme token.text) : IsWord token.text ↔ token.isIdentifier :=
  and_iff_right hlex

section Names

open Reading

variable {token : Token} {tokens rest : List Token}

theorem lexical_cons_iff : Lexical (token :: rest) ↔ IsLexeme token.text ∧ Lexical rest := by
  rw [Lexical, List.map_cons, List.forall_mem_cons]
  rfl

theorem Lexical.of_eq {used : List Token} (h : Lexical tokens) (htokens : tokens = used ++ rest) : Lexical rest :=
  h.of_append (htokens ▸ List.map_append)

theorem not_word_nil (value : String) : ¬ word value [] :=
  fun h => List.cons_ne_nil _ _ h.2.symm

theorem reads_identifier (hlex : Lexical tokens) : Reads word never tokens (identifier tokens) := by
  cases tokens with
  | nil => exact .fail rfl ⟨_, _, isWord_x, rfl⟩ not_word_nil (by simp)
  | cons token rest =>
      have hword := isWord_iff (lexical_cons_iff.mp hlex).1
      rw [identifier]
      split
      · rename_i hidentifier
        refine .step (.nothing rfl rfl ⟨hword.mpr hidentifier, rfl⟩ ?_ ?_)
          fun value h => absurd h (not_word_nil value)
        · rintro other ⟨-, hother⟩
          exact (List.cons.inj hother).1.symm
        · rintro next - other words ⟨-, hother⟩
          cases hother
      · rename_i hidentifier
        refine .fail rfl ⟨_, _, isWord_x, rfl⟩ not_word_nil (forall_mem_head?_cons.mpr ?_)
        rintro value words ⟨hvalue, hwords⟩
        obtain ⟨rfl, -⟩ := List.cons.inj hwords
        exact hidentifier (hword.mp hvalue)

theorem not_mark_nil (text : String) (value : Unit) : ¬ mark text value [] :=
  fun h => List.cons_ne_nil _ _ h.symm

theorem reads_expect (wanted : String) (tokens : List Token) :
    Reads (mark wanted) never tokens (expect wanted tokens) := by
  cases tokens with
  | nil => exact .fail rfl ⟨(), _, rfl⟩ (not_mark_nil wanted) (by simp)
  | cons token rest =>
      rw [expect]
      split
      · rename_i htext
        refine .step (.nothing rfl rfl ?_ (fun _ _ => rfl) ?_) fun value h => absurd h (not_mark_nil wanted value)
        · rw [after, mark, htext]
        · rintro next - other words hother
          cases hother
      · rename_i htext
        refine .fail rfl ⟨(), _, rfl⟩ (not_mark_nil wanted) (forall_mem_head?_cons.mpr ?_)
        intro value words hwords
        exact htext (List.cons.inj hwords).1

theorem dotted_nil_iff {name full : String} : Dotted name full [] ↔ full = name :=
  ⟨fun h => by cases h; rfl, fun h => h ▸ .done name⟩

theorem dotted_cons_iff {name full first : String} {words : List String} :
    Dotted name full (first :: words) ↔ first = "." ∧
      ∃ word rest, words = word :: rest ∧ IsWord word ∧ Dotted (name ++ "." ++ word) full rest := by
  constructor
  · intro h
    cases h with
    | dot hword h => exact ⟨rfl, _, _, rfl, hword, h⟩
  · rintro ⟨rfl, word, rest, rfl, hword, h⟩
    exact .dot hword h

theorem dotted_dot_iff {name full word : String} {words : List String} (hword : IsWord word) :
    Dotted name full ("." :: word :: words) ↔ Dotted (name ++ "." ++ word) full words := by
  constructor
  · intro h
    obtain ⟨-, _, _, hcons, -, hrest⟩ := dotted_cons_iff.mp h
    obtain ⟨rfl, rfl⟩ := List.cons.inj hcons
    exact hrest
  · exact .dot hword

theorem not_dotted_dot (name full : String) : ¬ Dotted name full ["."] := by
  intro h
  obtain ⟨-, _, _, hcons, -⟩ := dotted_cons_iff.mp h
  cases hcons

theorem reads_dottedAfter (name : String) {tokens : List Token} (hlex : Lexical tokens) :
    Reads (Dotted name) (goesOnWith ".") tokens (dottedAfter name tokens) := by
  have hunique : ∀ other, Dotted name other [] → other = name := fun _ => dotted_nil_iff.mp
  match tokens with
  | [] => exact .nothing rfl rfl (.done name) hunique (by simp)
  | [dot] =>
      rw [dottedAfter]
      split
      · rename_i hdot
        refine .step (.fail rfl ?_ ?_ (by simp)) fun _ _ => hdot <;> rw [hdot]
        · exact ⟨_, _, Dotted.dot isWord_x (.done _)⟩
        · exact not_dotted_dot name
      · rename_i hdot
        refine .nothing rfl rfl (.done name) hunique (forall_mem_head?_cons.mpr fun other words h => ?_)
        exact hdot (dotted_cons_iff.mp h).1
  | dot :: word :: rest =>
      obtain ⟨-, hlexWord, hlexRest⟩ : IsLexeme dot.text ∧ IsLexeme word.text ∧ Lexical rest := by
        rwa [lexical_cons_iff, lexical_cons_iff] at hlex
      rw [dottedAfter]
      split
      · rename_i hdot
        refine .step ?_ fun _ _ => hdot
        rw [hdot]
        split
        · rename_i hidentifier
          have hword := (isWord_iff hlexWord).mpr hidentifier
          have hrest := reads_dottedAfter (name ++ "." ++ word.text) hlexRest
          refine .step (.of_iff (.keep hrest (fun _ => rfl) fun _ => rfl) fun full words => ?_)
            fun full h => absurd h (not_dotted_dot name full)
          exact (dotted_dot_iff hword).symm
        · rename_i hidentifier
          refine .fail rfl ⟨_, _, Dotted.dot isWord_x (.done _)⟩ (not_dotted_dot name)
            (forall_mem_head?_cons.mpr fun full words h => ?_)
          obtain ⟨-, _, _, hcons, hword, -⟩ := dotted_cons_iff.mp h
          obtain ⟨rfl, -⟩ := List.cons.inj hcons
          exact hidentifier ((isWord_iff hlexWord).mp hword)
      · rename_i hdot
        refine .nothing rfl rfl (.done name) hunique (forall_mem_head?_cons.mpr fun other words h => ?_)
        exact hdot (dotted_cons_iff.mp h).1

theorem isName_iff_seq {name : String} {words : List String} :
    seq word (fun first _ => Dotted first) name words ↔ IsName name words := by
  constructor
  · rintro ⟨first, _, rest, rfl, ⟨hfirst, rfl⟩, h⟩
    exact .mk hfirst h
  · rintro ⟨hfirst, h⟩
    exact ⟨_, _, _, rfl, ⟨hfirst, rfl⟩, h⟩

/-- The reader takes the longest dotted name. -/
theorem reads_dottedName (hlex : Lexical tokens) : Reads IsName (goesOnWith ".") tokens (dottedName tokens) := by
  have hseq : Reads (seq word fun first _ => Dotted first) (goesOnWith ".") tokens (dottedName tokens) := by
    refine .bind (reads_identifier hlex) (fun _ _ _ _ _ _ _ h => h) (fun _ _ _ _ _ _ h => h.elim)
      (fun first _ _ => ⟨first, [], .done first⟩) fun taken used htokens _ _ => ?_
    exact .keep (reads_dottedAfter taken.value (Lexical.of_eq hlex htokens)) (fun _ => rfl) fun _ => rfl
  exact hseq.of_iff fun _ _ => isName_iff_seq

end Names

/-! ### Brackets -/

section Brackets

open Reading

variable {type whole : TypeExpr} {words : List String}

theorem brackets_nil_iff : Brackets type whole [] ↔ whole = type :=
  ⟨fun h => by cases h; rfl, fun h => h ▸ .done type⟩

theorem brackets_cons_iff {first : String} :
    Brackets type whole (first :: words) ↔
      first = "[" ∧ ∃ rest, words = "]" :: rest ∧ Brackets (.array type) whole rest := by
  constructor
  · intro h
    cases h with
    | pair h => exact ⟨rfl, _, rfl, h⟩
  · rintro ⟨rfl, rest, rfl, h⟩
    exact .pair h

theorem brackets_pair_iff : Brackets type whole ("[" :: "]" :: words) ↔ Brackets (.array type) whole words := by
  constructor
  · intro h
    obtain ⟨-, _, hcons, hrest⟩ := brackets_cons_iff.mp h
    obtain ⟨-, rfl⟩ := List.cons.inj hcons
    exact hrest
  · exact .pair

theorem not_brackets_opening (type whole : TypeExpr) : ¬ Brackets type whole ["["] := by
  intro h
  obtain ⟨-, _, hcons, -⟩ := brackets_cons_iff.mp h
  cases hcons

/-- The reader takes all pairs of brackets. -/
theorem reads_dimensionsAfter (type : TypeExpr) (tokens : List Token) :
    Reads (Brackets type) (goesOnWith "[") tokens (dimensionsAfter type tokens) := by
  have hunique : ∀ other, Brackets type other [] → other = type := fun _ => brackets_nil_iff.mp
  match tokens with
  | [] => exact .nothing rfl rfl (.done type) hunique (by simp)
  | [opening] =>
      rw [dimensionsAfter]
      split
      · rename_i hopening
        refine .step (.fail rfl ?_ ?_ (by simp)) fun _ _ => hopening <;> rw [hopening]
        · exact ⟨_, _, Brackets.pair (.done _)⟩
        · exact not_brackets_opening type
      · rename_i hopening
        refine .nothing rfl rfl (.done type) hunique (forall_mem_head?_cons.mpr fun other words h => ?_)
        exact hopening (brackets_cons_iff.mp h).1
  | opening :: closing :: rest =>
      rw [dimensionsAfter]
      split
      · rename_i hopening
        refine .step ?_ fun _ _ => hopening
        rw [hopening]
        split
        · rename_i hclosing
          have hrest := reads_dimensionsAfter (.array type) rest
          refine .step ?_ fun whole h => absurd h (not_brackets_opening type whole)
          rw [hclosing]
          exact .of_iff (.keep hrest (fun _ => rfl) fun _ => rfl) fun _ _ => brackets_pair_iff.symm
        · rename_i hclosing
          refine .fail rfl ⟨_, _, Brackets.pair (.done _)⟩ (not_brackets_opening type)
            (forall_mem_head?_cons.mpr fun whole words h => ?_)
          obtain ⟨-, _, hcons, -⟩ := brackets_cons_iff.mp h
          exact hclosing (List.cons.inj hcons).1
      · rename_i hopening
        refine .nothing rfl rfl (.done type) hunique (forall_mem_head?_cons.mpr fun other words h => ?_)
        exact hopening (brackets_cons_iff.mp h).1

end Brackets

/-! ### Lists -/

section Lists

variable {α : Type} {rule : Rule α} {values : List α} {words : List String}

def MoreListed (rule : Rule α) : Rule (List α) := fun values words =>
  values = [] ∧ words = [] ∨ ∃ rest, words = "," :: rest ∧ Listed rule values rest

theorem moreListed_comma_iff : MoreListed rule values ("," :: words) ↔ Listed rule values words := by
  constructor
  · rintro (⟨-, h⟩ | ⟨rest, h, hlisted⟩)
    · cases h
    · obtain ⟨-, rfl⟩ := List.cons.inj h
      exact hlisted
  · exact fun h => Or.inr ⟨words, rfl, h⟩

theorem eq_comma_of_moreListed {first : String} (h : MoreListed rule values (first :: words)) : first = "," := by
  rcases h with ⟨-, h⟩ | ⟨rest, h, -⟩
  · cases h
  · exact (List.cons.inj h).1

theorem moreListed_nil_iff : MoreListed rule values [] ↔ values = [] := by
  simp [MoreListed]

theorem listed_iff_seq :
    seq rule (fun first _ values rest => ∃ others, MoreListed rule others rest ∧ first :: others = values)
      values words ↔ Listed rule values words := by
  constructor
  · rintro ⟨first, used, _, rfl, hfirst, others, ⟨rfl, rfl⟩ | ⟨rest, rfl, hothers⟩, rfl⟩
    · rw [List.append_nil]
      exact .one hfirst
    · exact .more hfirst hothers
  · intro h
    cases h with
    | one h => exact ⟨_, _, [], (List.append_nil _).symm, h, [], Or.inl ⟨rfl, rfl⟩, rfl⟩
    | more h hothers => exact ⟨_, _, _, rfl, h, _, Or.inr ⟨_, rfl, hothers⟩, rfl⟩

theorem not_listed_nil (hempty : ∀ value, ¬ rule value []) (values : List α) : ¬ Listed rule values [] :=
  fun h => not_seq_nil hempty values (listed_iff_seq.mpr h)

theorem exists_of_listed_cons (hempty : ∀ value, ¬ rule value []) {first : String}
    (h : Listed rule values (first :: words)) : ∃ value rest, rule value (first :: rest) :=
  exists_of_seq_cons hempty (listed_iff_seq.mpr h)

def orComma (goesOn : List String → String → Prop) : List String → String → Prop := fun used word =>
  word = "," ∨ goesOn used word

/-- What might go on goes on as well after anything before it. -/
def Lasting (goesOn : List String → String → Prop) : Prop :=
  ∀ before used word, goesOn used word → goesOn (before ++ used) word

variable {goesOn : List String → String → Prop}

theorem Lasting.orComma (h : Lasting goesOn) : Lasting (orComma goesOn) :=
  fun before used word => Or.imp_right (h before used word)

variable {input tokens : List Token}

/-- A comma-separated list is read if its items are. -/
theorem reads_listed {x : Except Fault (Taken input α)}
    {more : (first : Taken input α) → Except Fault (Taken first.rest (List α))}
    (hx : Reads rule goesOn tokens x) (hcomma : ∀ used, ¬ goesOn used ",") (hlasting : Lasting goesOn)
    (hmore : ∀ taken used, tokens = used ++ taken.rest →
      Reads (MoreListed rule) (orComma goesOn) taken.rest (more taken)) :
    Reads (Listed rule) (orComma goesOn) tokens (x >>= fun first => more first >>= fun others =>
      .ok (first.andThen (others.map fun values => first.value :: values))) := by
  refine .of_iff (.bind hx ?_ (fun _ _ _ _ _ _ => Or.inr) ?_ fun taken used htokens _ _ => ?_)
    fun _ _ => listed_iff_seq
  · rintro found used value word rest - ⟨others, hothers, -⟩
    rw [eq_comma_of_moreListed hothers]
    exact hcomma used
  · exact fun found used _ => ⟨[found], [], [], moreListed_nil_iff.mpr rfl, rfl⟩
  · refine .mono (.map (hmore taken used htokens) (f := (taken.value :: ·)) (fun _ => rfl) (fun _ => rfl)
      fun _ _ => Iff.rfl) fun _ rest word _ => hlasting.orComma (used.map Token.text) rest word

theorem reads_moreListed_comma {comma : Token} {x : Except Fault (Taken input (List α))}
    (h : Reads (Listed rule) (orComma goesOn) tokens x) (hlasting : Lasting goesOn) (hcomma : comma.text = ",") :
    Reads (MoreListed rule) (orComma goesOn) (comma :: tokens)
      (x >>= fun values => .ok (values.behind comma)) := by
  refine .step ?_ fun _ _ => Or.inl hcomma
  rw [hcomma]
  exact .mono (.of_iff (.keep h (fun _ => rfl) fun _ => rfl) fun _ _ => moreListed_comma_iff.symm)
    fun _ used word _ => hlasting.orComma [","] used word

theorem reads_moreListed_nothing {taken : Taken input (List α)} (hvalue : taken.value = [])
    (hrest : taken.rest = tokens) (htokens : ∀ token ∈ tokens.head?, token.text ≠ ",") :
    Reads (MoreListed rule) (orComma goesOn) tokens (.ok taken) :=
  .nothing hvalue hrest (moreListed_nil_iff.mpr rfl) (fun _ => moreListed_nil_iff.mp)
    fun token htoken _ _ h => htokens token htoken (eq_comma_of_moreListed h)

def ClosedBy (closing : String) (rule : Rule α) : Rule α := fun value words =>
  ∃ inner, words = inner ++ [closing] ∧ rule value inner

theorem not_closedBy_nil (closing : String) (rule : Rule α) (value : α) : ¬ ClosedBy closing rule value [] := by
  rintro ⟨inner, hwords, -⟩
  exact List.append_ne_nil_of_right_ne_nil _ (List.cons_ne_nil _ _) hwords.symm

theorem closedBy_iff_seq {closing : String} {value : α} :
    seq rule (fun found _ value rest => mark closing () rest ∧ found = value) value words ↔
      ClosedBy closing rule value words := by
  constructor
  · rintro ⟨found, inner, _, rfl, h, rfl, rfl⟩
    exact ⟨inner, rfl, h⟩
  · rintro ⟨inner, rfl, h⟩
    exact ⟨value, inner, [closing], rfl, h, rfl, rfl⟩

/-- What is read in front of a closing mark is read together with it. -/
theorem reads_closedBy {closing : String} {input' : List Token} {x : Except Fault (Taken input α)}
    {close : (found : Taken input α) → Except Fault (Taken found.rest Unit)}
    {g : (found : Taken input α) → Taken found.rest Unit → Taken input' α} (hx : Reads rule goesOn tokens x)
    (hclosing : ∀ used, ¬ goesOn used closing)
    (hclose : ∀ found : Taken input α, Reads (mark closing) never found.rest (close found))
    (hvalue : ∀ found taken, (g found taken).value = found.value)
    (hrest : ∀ found taken, (g found taken).rest = taken.rest) :
    Reads (ClosedBy closing rule) never tokens
      (x >>= fun found => close found >>= fun taken => .ok (g found taken)) := by
  refine .of_iff (.bind hx ?_ ?_ (fun found _ _ => ⟨found, [closing], rfl, rfl⟩) fun found used _ _ _ => ?_)
    fun _ _ => closedBy_iff_seq
  · rintro found used value word rest - ⟨hmark, -⟩
    rw [(List.cons.inj hmark).1]
    exact hclosing used
  · rintro found used value word - ⟨hmark, -⟩
    cases hmark
  · refine .map (hclose found) (f := fun _ => found.value) (hvalue found) (hrest found) fun _ _ => ?_
    exact ⟨fun h => ⟨(), h⟩, fun ⟨_, h⟩ => h⟩

end Lists

/-! ### Types -/

section Types

open Reading

variable {scope : List String} {name : String} {type : TypeExpr} {arguments : List TypeExpr} {words : List String}

def Arguments (scope : List String) : Rule (List TypeExpr) := fun arguments words =>
  arguments = [] ∧ words = [] ∨
    ∃ rest, words = "<" :: rest ∧ ClosedBy ">" (Listed (IsType scope)) arguments rest

def AfterName (scope : List String) (name : String) : Rule TypeExpr :=
  if name ∈ TypeExpr.primitiveNames then Brackets (.primitive name)
  else if name ∈ scope then Brackets (.typeVar name)
  else seq (Arguments scope) fun arguments _ => Brackets (.declared name arguments)

theorem afterName_of_primitive (h : name ∈ TypeExpr.primitiveNames) :
    AfterName scope name = Brackets (.primitive name) :=
  if_pos h

theorem afterName_of_mem (hprimitive : name ∉ TypeExpr.primitiveNames) (h : name ∈ scope) :
    AfterName scope name = Brackets (.typeVar name) :=
  (if_neg hprimitive).trans (if_pos h)

theorem afterName_of_notMem (hprimitive : name ∉ TypeExpr.primitiveNames) (h : name ∉ scope) :
    AfterName scope name = seq (Arguments scope) fun arguments _ => Brackets (.declared name arguments) :=
  (if_neg hprimitive).trans (if_neg h)

/-- A type other than a wildcard. -/
def Named (scope : List String) : Rule TypeExpr :=
  seq IsName fun name _ => AfterName scope name

/-- The tokens that a type might go on with. -/
def typeGoesOn : List String → String → Prop := fun used word =>
  word = "." ∨ word = "[" ∨ word = "<" ∨ used.getLast? = some "?" ∧ ∃ kind : BoundKind, word = kind.text

theorem named_of_afterName {used rest : List String} (hname : IsName name used)
    (hafter : AfterName scope name type rest) : Named scope type (used ++ rest) :=
  ⟨name, used, rest, rfl, hname, hafter⟩

theorem arguments_nil_iff : Arguments scope arguments [] ↔ arguments = [] := by
  simp [Arguments]

theorem eq_of_arguments {first : String} (h : Arguments scope arguments (first :: words)) : first = "<" := by
  rcases h with ⟨-, h⟩ | ⟨inner, h, -⟩
  · cases h
  · exact (List.cons.inj h).1

theorem arguments_opening_iff :
    Arguments scope arguments ("<" :: words) ↔ ClosedBy ">" (Listed (IsType scope)) arguments words := by
  constructor
  · rintro (⟨-, h⟩ | ⟨rest, h, hclosed⟩)
    · cases h
    · obtain ⟨-, rfl⟩ := List.cons.inj h
      exact hclosed
  · exact fun h => Or.inr ⟨words, rfl, h⟩

theorem afterName_nil (scope : List String) (name : String) : ∃ type, AfterName scope name type [] := by
  unfold AfterName
  split
  · exact ⟨_, .done _⟩
  split
  · exact ⟨_, .done _⟩
  · exact ⟨_, [], [], [], rfl, arguments_nil_iff.mpr rfl, .done _⟩

theorem eq_of_afterName {first : String} (h : AfterName scope name type (first :: words)) :
    first = "[" ∨ first = "<" := by
  unfold AfterName at h
  split at h
  · exact Or.inl (brackets_cons_iff.mp h).1
  split at h
  · exact Or.inl (brackets_cons_iff.mp h).1
  · obtain ⟨arguments, used, rest, hwords, harguments, hbrackets⟩ := h
    cases used with
    | nil =>
        rw [List.nil_append] at hwords
        rw [← hwords] at hbrackets
        exact Or.inl (brackets_cons_iff.mp hbrackets).1
    | cons opening used =>
        obtain ⟨rfl, -⟩ := List.cons.inj hwords
        exact Or.inr (eq_of_arguments harguments)

theorem isType_of_named (h : Named scope type words) : IsType scope type words := by
  obtain ⟨name, used, rest, rfl, hname, hafter⟩ := h
  unfold AfterName at hafter
  split at hafter
  · exact .primitive hname ‹_› hafter
  split at hafter
  · exact .typeVar hname ‹_› ‹_› hafter
  · obtain ⟨arguments, _, brackets, rfl, ⟨rfl, rfl⟩ | ⟨_, rfl, inner, rfl, hlisted⟩, hbrackets⟩ := hafter
    · exact .declared hname ‹_› ‹_› hbrackets
    · rw [List.cons_append, List.append_assoc, List.singleton_append]
      exact .generic hname ‹_› ‹_› hlisted hbrackets

theorem not_isName_nil (name : String) : ¬ IsName name [] :=
  fun h => nomatch h

theorem isWord_of_isName {first : String} (h : IsName name (first :: words)) : IsWord first := by
  cases h with
  | mk hfirst h => exact hfirst

theorem not_isWord_question : ¬ IsWord "?" := by
  decide +kernel

/-- Types that do not begin with a question mark begin with a name. -/
theorem named_of_isType (h : IsType scope type words) (hwords : words.head? ≠ some "?") :
    Named scope type words := by
  cases h with
  | wildcard => exact absurd rfl hwords
  | bounded h => exact absurd rfl hwords
  | primitive hname hprimitive hbrackets =>
      refine named_of_afterName hname ?_
      rwa [afterName_of_primitive hprimitive]
  | typeVar hname hprimitive hscope hbrackets =>
      refine named_of_afterName hname ?_
      rwa [afterName_of_mem hprimitive hscope]
  | declared hname hprimitive hscope hbrackets =>
      refine named_of_afterName hname ?_
      rw [afterName_of_notMem hprimitive hscope]
      exact ⟨[], [], _, rfl, arguments_nil_iff.mpr rfl, hbrackets⟩
  | @generic name arguments type used inner brackets hname hprimitive hscope harguments hbrackets =>
      refine named_of_afterName hname ?_
      rw [afterName_of_notMem hprimitive hscope]
      refine ⟨arguments, "<" :: (inner ++ [">"]), brackets, ?_, Or.inr ⟨_, rfl, inner, rfl, harguments⟩, hbrackets⟩
      rw [List.cons_append, List.append_assoc, List.singleton_append]

theorem isWord_of_named {first : String} (h : Named scope type (first :: words)) : IsWord first := by
  obtain ⟨name, rest, hname⟩ := exists_of_seq_cons not_isName_nil h
  exact isWord_of_isName hname

theorem isType_iff_named (hwords : words.head? ≠ some "?") : IsType scope type words ↔ Named scope type words :=
  ⟨fun h => named_of_isType h hwords, isType_of_named⟩

theorem not_isType_nil (scope : List String) (type : TypeExpr) : ¬ IsType scope type [] :=
  fun h => not_seq_nil not_isName_nil type (named_of_isType h (by simp))

/-- A type begins with a question mark or a word. -/
theorem head_of_isType {first : String} (h : IsType scope type (first :: words)) : first = "?" ∨ IsWord first := by
  by_cases hfirst : first = "?"
  · exact Or.inl hfirst
  · exact Or.inr (isWord_of_named (named_of_isType h fun hhead => hfirst (Option.some.inj hhead)))

/-- A question mark is a type on its own or with a bound behind it. -/
theorem isType_question_iff : IsType scope type ("?" :: words) ↔
    type = .wildcard .upper ∧ words = [] ∨
      ∃ kind bound rest, words = kind.text :: rest ∧ IsType scope bound rest ∧ .bounded kind bound = type := by
  constructor
  · intro h
    generalize hall : "?" :: words = all at h
    have hnot : ∀ {name used rest}, IsName name used → "?" :: words ≠ used ++ rest := by
      rintro name used rest ⟨hfirst, -⟩ heq
      obtain ⟨rfl, -⟩ := List.cons.inj heq
      exact not_isWord_question hfirst
    cases h with
    | wildcard => exact Or.inl ⟨rfl, (List.cons.inj hall).2⟩
    | bounded h => exact Or.inr ⟨_, _, _, (List.cons.inj hall).2, h, rfl⟩
    | primitive hname => exact absurd hall (hnot hname)
    | typeVar hname => exact absurd hall (hnot hname)
    | declared hname => exact absurd hall (hnot hname)
    | generic hname => exact absurd hall (hnot hname)
  · rintro (⟨rfl, rfl⟩ | ⟨kind, bound, rest, rfl, h, rfl⟩)
    · exact .wildcard
    · exact .bounded h

theorem lasting_typeGoesOn : Lasting typeGoesOn := by
  intro before used word h
  refine h.imp_right (Or.imp_right (Or.imp_right (And.imp_left fun hlast => ?_)))
  rw [List.getLast?_append, hlast, Option.some_or]

/-- A type is only continued by one of five words. -/
theorem mem_of_typeGoesOn {used : List String} {word : String} (h : typeGoesOn used word) :
    word ∈ [".", "[", "<", "extends", "super"] := by
  rcases h with rfl | rfl | rfl | ⟨-, kind, rfl⟩
  · decide
  · decide
  · decide
  · cases kind <;> decide

theorem not_typeGoesOn_comma (used : List String) : ¬ typeGoesOn used "," :=
  fun h => absurd (mem_of_typeGoesOn h) (by decide)

theorem not_orComma_closing (used : List String) : ¬ orComma typeGoesOn used ">" := by
  rintro (h | h)
  · exact absurd h (by decide)
  · exact absurd (mem_of_typeGoesOn h) (by decide)

theorem text_of_boundKind? {token : Token} {kind : BoundKind} (h : boundKind? token = some kind) :
    token.text = kind.text := by
  unfold boundKind? at h
  split at h
  · cases h
    assumption
  split at h
  · cases h
    assumption
  · cases h

theorem boundKind?_eq_some_iff {token : Token} {kind : BoundKind} :
    boundKind? token = some kind ↔ token.text = kind.text := by
  refine ⟨text_of_boundKind?, fun h => ?_⟩
  cases kind with
  | upper => rw [boundKind?, if_pos h]
  | lower =>
      have hupper : token.text ≠ BoundKind.upper.text := by
        rw [h]
        decide
      rw [boundKind?, if_neg hupper, if_pos h]

theorem isType_bound_iff {token : Token} {kind : BoundKind} (hkind : boundKind? token = some kind) :
    IsType scope type ("?" :: token.text :: words) ↔
      ∃ bound, IsType scope bound words ∧ .bounded kind bound = type := by
  rw [isType_question_iff]
  constructor
  · rintro (⟨-, h⟩ | ⟨other, bound, rest, h, hbound, rfl⟩)
    · cases h
    · obtain ⟨htext, rfl⟩ := List.cons.inj h
      obtain rfl : kind = other := Option.some.inj (hkind.symm.trans (boundKind?_eq_some_iff.mpr htext))
      exact ⟨bound, hbound, rfl⟩
  · rintro ⟨bound, hbound, rfl⟩
    exact Or.inr ⟨kind, bound, words, by rw [boundKind?_eq_some_iff.mp hkind], hbound, rfl⟩

theorem not_isType_marked {token : Token} (hkind : boundKind? token = none) :
    ¬ IsType scope type ("?" :: token.text :: words) := by
  rw [isType_question_iff]
  rintro (⟨-, h⟩ | ⟨kind, bound, rest, h, -, -⟩)
  · cases h
  · have hsome := boundKind?_eq_some_iff.mpr (List.cons.inj h).1
    rw [hkind] at hsome
    cases hsome

theorem isType_single_iff : IsType scope type ["?"] ↔ type = .wildcard .upper := by
  rw [isType_question_iff]
  constructor
  · rintro (⟨h, -⟩ | ⟨kind, bound, rest, h, -, -⟩)
    · exact h
    · cases h
  · exact fun h => Or.inl ⟨h, rfl⟩

theorem named_iff_isType {tokens : List Token} {mark : Token} (hmark : ¬ mark.text = "?")
    (hwords : BeginsLike words (mark :: tokens)) : Named scope type words ↔ IsType scope type words := by
  refine (isType_iff_named fun hhead => hmark ?_).symm
  exact Option.some.inj (hwords "?" hhead)

/-! Only wildcards, and types bounded by them in the end, end in a question mark. -/

theorem getLast?_append_ne {first second : List String} {word : String} (hfirst : first.getLast? ≠ some word)
    (hsecond : second.getLast? ≠ some word) : (first ++ second).getLast? ≠ some word := by
  rw [List.getLast?_append]
  cases hlast : second.getLast? with
  | none => exact hfirst
  | some last => rwa [Option.some_or, ← hlast]

theorem getLast?_singleton_ne {word : String} (h : IsWord word) : [word].getLast? ≠ some "?" := by
  rintro ⟨⟩
  exact not_isWord_question h

theorem Dotted.getLast?_ne {full : String} (h : Dotted name full words) : words.getLast? ≠ some "?" := by
  induction h with
  | done name => exact (Option.some_ne_none _).symm
  | @dot name word full words hword _ ih =>
      have hdot : ["."].getLast? ≠ some "?" := by decide
      exact getLast?_append_ne hdot (getLast?_append_ne (getLast?_singleton_ne hword) ih)

theorem IsName.getLast?_ne (h : IsName name words) : words.getLast? ≠ some "?" := by
  cases h with
  | mk hfirst h => exact getLast?_append_ne (getLast?_singleton_ne hfirst) h.getLast?_ne

theorem Brackets.getLast?_ne {whole : TypeExpr} (h : Brackets type whole words) : words.getLast? ≠ some "?" := by
  induction h with
  | done type => exact (Option.some_ne_none _).symm
  | pair _ ih =>
      have hpair : ["[", "]"].getLast? ≠ some "?" := by decide
      exact getLast?_append_ne hpair ih

/-- A named type does not end in a question mark. -/
theorem Named.getLast?_ne (h : Named scope type words) : words.getLast? ≠ some "?" := by
  obtain ⟨name, used, rest, rfl, hname, hafter⟩ := h
  refine getLast?_append_ne hname.getLast?_ne ?_
  unfold AfterName at hafter
  split at hafter
  · exact hafter.getLast?_ne
  split at hafter
  · exact hafter.getLast?_ne
  · obtain ⟨arguments, _, brackets, rfl, ⟨-, rfl⟩ | ⟨_, rfl, inner, rfl, -⟩, hbrackets⟩ := hafter
    · exact hbrackets.getLast?_ne
    · refine getLast?_append_ne ?_ hbrackets.getLast?_ne
      rw [← List.cons_append, List.getLast?_concat]
      decide

/-- A type that ends in a question mark may go on with the word of a bound and another wildcard. -/
theorem exists_isType_bound (kind : BoundKind) {type : TypeExpr} {words : List String} (h : IsType scope type words)
    (hlast : words.getLast? = some "?") : ∃ whole, IsType scope whole (words ++ [kind.text, "?"]) := by
  by_cases hhead : words.head? = some "?"
  · obtain ⟨rest, rfl⟩ : ∃ rest, words = "?" :: rest := List.head?_eq_some_iff.mp hhead
    rcases isType_question_iff.mp h with ⟨-, rfl⟩ | ⟨other, bound, rest, rfl, hbound, -⟩
    · exact ⟨_, .bounded .wildcard⟩
    · obtain ⟨first, others, rfl⟩ : ∃ first others, rest = first :: others :=
        List.exists_cons_of_ne_nil fun hnil => not_isType_nil scope bound (hnil ▸ hbound)
      obtain ⟨whole, hwhole⟩ := exists_isType_bound kind hbound hlast
      exact ⟨_, .bounded hwhole⟩
  · exact absurd hlast (named_of_isType h hhead).getLast?_ne
termination_by words.length

/-! The readers call one another, at times on the same tokens. So they are proved together, on the number of tokens and
then in the order in which they are called. -/

mutual

/-- The reader takes exactly the words of a type. -/
theorem reads_typeExpr (scope : List String) {tokens : List Token} (hlex : Lexical tokens) :
    Reads (IsType scope) typeGoesOn tokens (typeExpr scope tokens) := by
  have hempty : ∀ type, IsType scope type [] → ∀ word, typeGoesOn [] word :=
    fun type h => absurd h (not_isType_nil scope type)
  match tokens with
  | [] =>
      rw [typeExpr]
      exact .fail rfl ⟨_, _, .wildcard⟩ (not_isType_nil scope) (by simp)
  | [mark] =>
      rw [typeExpr]
      split
      · rename_i hmark
        refine .step ?_ fun type h => hempty type h _
        rw [hmark]
        exact .nothing rfl rfl .wildcard (fun _ => isType_single_iff.mp) (by simp)
      · rename_i hmark
        exact .congr (reads_named scope hlex) ⟨_, _, .wildcard⟩ fun _ _ => named_iff_isType hmark
  | mark :: next :: rest =>
      rw [typeExpr]
      split
      · rename_i hmark
        refine .step ?_ fun type h => hempty type h _
        rw [hmark]
        split
        · rename_i kind hkind
          have hrest : Lexical rest := (lexical_cons_iff.mp (lexical_cons_iff.mp hlex).2).2
          have hbound := reads_typeExpr scope hrest
          refine .step (.mono (.map hbound (f := TypeExpr.bounded kind) (fun _ => rfl) (fun _ => rfl) fun _ _ =>
            isType_bound_iff hkind) fun _ used word _ => lasting_typeGoesOn ["?", next.text] used word) fun _ _ => ?_
          exact Or.inr (Or.inr (Or.inr ⟨rfl, kind, text_of_boundKind? hkind⟩))
        · rename_i hkind
          exact .nothing rfl rfl .wildcard (fun _ => isType_single_iff.mp)
            (forall_mem_head?_cons.mpr fun _ _ => not_isType_marked hkind)
      · rename_i hmark
        exact .congr (reads_named scope hlex) ⟨_, _, .wildcard⟩ fun _ _ => named_iff_isType hmark
termination_by (tokens.length, 2)

theorem reads_named (scope : List String) {tokens : List Token} (hlex : Lexical tokens) :
    Reads (Named scope) typeGoesOn tokens (named scope tokens) := by
  rw [named]
  refine .bind (reads_dottedName hlex) ?_ (fun _ _ _ _ _ _ => Or.inl) ?_ fun name used htokens _ _ => ?_
  · rintro found used value word rest - hafter rfl
    exact absurd (eq_of_afterName hafter) (by decide)
  · intro found used _
    obtain ⟨type, h⟩ := afterName_nil scope found
    exact ⟨type, [], h⟩
  · split
    · rename_i hprimitive
      rw [afterName_of_primitive hprimitive]
      exact .mono (.keep (reads_dimensionsAfter _ _) (fun _ => rfl) fun _ => rfl)
        fun _ _ _ _ h => Or.inr (Or.inl h)
    split
    · rename_i hprimitive hscope
      rw [afterName_of_mem hprimitive hscope]
      exact .mono (.keep (reads_dimensionsAfter _ _) (fun _ => rfl) fun _ => rfl)
        fun _ _ _ _ h => Or.inr (Or.inl h)
    · rename_i hprimitive hscope
      rw [afterName_of_notMem hprimitive hscope]
      have harguments := reads_typeArguments scope (Lexical.of_eq hlex htokens)
      refine .bind harguments ?_ (fun _ _ _ _ _ _ h => Or.inr (Or.inr (Or.inl h)))
        (fun _ _ _ => ⟨_, [], .done _⟩) fun arguments others _ _ _ => ?_
      · rintro found used value word rest - hbrackets rfl
        exact absurd (brackets_cons_iff.mp hbrackets).1 (by decide)
      · exact .mono (.keep (reads_dimensionsAfter _ _) (fun _ => rfl) fun _ => rfl)
          fun _ _ _ _ h => Or.inr (Or.inl h)
termination_by (tokens.length, 1)
decreasing_by
  have := name.length_le
  simp only [Prod.lex_def]
  omega

theorem reads_typeArguments (scope : List String) {tokens : List Token} (hlex : Lexical tokens) :
    Reads (Arguments scope) (goesOnWith "<") tokens (typeArguments scope tokens) := by
  have hunique : ∀ other, Arguments scope other [] → other = [] := fun _ => arguments_nil_iff.mp
  match tokens with
  | [] =>
      rw [typeArguments]
      exact .nothing rfl rfl (arguments_nil_iff.mpr rfl) hunique (by simp)
  | opening :: rest =>
      rw [typeArguments]
      split
      · rename_i hopening
        refine .step ?_ fun _ _ => hopening
        rw [hopening]
        have hclosed : Reads (ClosedBy ">" (Listed (IsType scope))) never rest (typeList scope rest >>= fun types =>
            expect ">" types.rest >>= fun closing =>
              .ok ((types.andThen (closing.map fun _ => types.value)).behind opening)) :=
          reads_closedBy (reads_typeList scope (lexical_cons_iff.mp hlex).2) not_orComma_closing
            (fun types => reads_expect ">" types.rest) (fun _ _ => rfl) fun _ _ => rfl
        exact .mono (.of_iff hclosed fun _ _ => arguments_opening_iff.symm) fun _ _ _ _ h => h.elim
      · rename_i hopening
        exact .nothing rfl rfl (arguments_nil_iff.mpr rfl) hunique
          (forall_mem_head?_cons.mpr fun _ _ h => hopening (eq_of_arguments h))
termination_by (tokens.length, 0)

/-- The reader takes exactly the words of a list of types. -/
theorem reads_typeList (scope : List String) {tokens : List Token} (hlex : Lexical tokens) :
    Reads (Listed (IsType scope)) (orComma typeGoesOn) tokens (typeList scope tokens) := by
  rw [typeList]
  exact reads_listed (reads_typeExpr scope hlex) not_typeGoesOn_comma lasting_typeGoesOn
    fun first used htokens => reads_moreTypes scope (Lexical.of_eq hlex htokens)
termination_by (tokens.length, 3)
decreasing_by
  · exact Prod.Lex.right _ (by decide)
  · have := first.length_le
    simp only [Prod.lex_def]
    omega

theorem reads_moreTypes (scope : List String) {tokens : List Token} (hlex : Lexical tokens) :
    Reads (MoreListed (IsType scope)) (orComma typeGoesOn) tokens (moreTypes scope tokens) := by
  match tokens with
  | [] =>
      rw [moreTypes]
      exact reads_moreListed_nothing rfl rfl (by simp)
  | comma :: rest =>
      rw [moreTypes]
      split
      · rename_i hcomma
        exact reads_moreListed_comma (reads_typeList scope (lexical_cons_iff.mp hlex).2) lasting_typeGoesOn hcomma
      · rename_i hcomma
        exact reads_moreListed_nothing rfl rfl (forall_mem_head?_cons.mpr hcomma)
termination_by (tokens.length, 0)

end

end Types

end Grammar

end BuilderFields
