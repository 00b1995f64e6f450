import BuilderFields.Proofs.Outcome
import BuilderFields.Proofs.Token
import BuilderFields.TypeExpr.Reader

/-!
# Rules of a grammar and what reads them

A rule says which values which tokens stand for. A reader takes something of its rule from the front of its tokens and
decides by the next token alone whether there is more of it, so it is right only if what comes next never begins with a
token that something of the rule might go on with. That is how its correctness is stated, for everything that may come
next: whatever begins with the tokens that were taken, and goes on like those that are left, has taken the same ones,
and nothing begins with the tokens before a fault and goes on like those at the fault. In this form it passes from the
parts of a rule to the whole, and for the whole text it says which texts are read and where reading stops.
-/

namespace BuilderFields

/-- Which values the texts of some tokens stand for. -/
abbrev Rule (α : Type) : Type :=
  α → List String → Prop

namespace Rule

variable {α β γ : Type}

/-- Something of the rule begins with these tokens. -/
def Viable (rule : Rule α) (start : List String) : Prop :=
  ∃ value rest, rule value (start ++ rest)

def seq (first : Rule α) (second : α → List String → Rule β) : Rule β := fun value words =>
  ∃ found used rest, words = used ++ rest ∧ first found used ∧ second found used value rest

def after (rule : Rule α) (word : String) : Rule α := fun value words =>
  rule value (word :: words)

def done (found : α) (_ : List String) : Rule α := fun value words =>
  value = found ∧ words = []

/-- What can be completed can be completed from any beginning of it. -/
theorem Viable.of_append {rule : Rule α} {start rest : List String} (h : Viable rule (start ++ rest)) :
    Viable rule start := by
  obtain ⟨value, words, hrule⟩ := h
  exact ⟨value, rest ++ words, by rwa [← List.append_assoc]⟩

theorem viable_of_rule {rule : Rule α} {value : α} {words : List String} (h : rule value words) :
    Viable rule words :=
  ⟨value, [], by rwa [List.append_nil]⟩

theorem seq_assoc {first : Rule α} {second : α → List String → Rule β} {next : β → List String → Rule γ}
    {value : γ} {words : List String} :
    seq (seq first second) next value words ↔
      seq first (fun found used => seq (second found used) fun other rest => next other (used ++ rest))
        value words := by
  constructor
  · rintro ⟨other, _, rest, rfl, ⟨found, used, middle, rfl, hfirst, hsecond⟩, hnext⟩
    exact ⟨found, used, middle ++ rest, List.append_assoc .., hfirst, other, middle, rest, rfl, hsecond, hnext⟩
  · rintro ⟨found, used, _, rfl, hfirst, other, middle, rest, rfl, hsecond, hnext⟩
    exact ⟨other, used ++ middle, rest, (List.append_assoc ..).symm,
      ⟨found, used, middle, rfl, hfirst, hsecond⟩, hnext⟩

theorem seq_done_iff {rule : Rule α} {value : α} {words : List String} :
    seq rule done value words ↔ rule value words := by
  constructor
  · rintro ⟨found, used, _, rfl, hrule, rfl, rfl⟩
    rwa [List.append_nil]
  · exact fun h => ⟨value, words, [], (List.append_nil words).symm, h, rfl, rfl⟩

/-- One rule and then another begin as the first does, if that takes any tokens. -/
theorem exists_of_seq_cons {first : Rule α} {second : α → List String → Rule β}
    (hempty : ∀ found, ¬ first found []) {value : β} {word : String} {words : List String}
    (h : seq first second value (word :: words)) : ∃ found used, first found (word :: used) := by
  obtain ⟨found, used, rest, hwords, hfound, -⟩ := h
  cases used with
  | nil => exact absurd hfound (hempty found)
  | cons head used =>
      obtain ⟨rfl, -⟩ := List.cons.inj hwords
      exact ⟨found, used, hfound⟩

theorem not_seq_nil {first : Rule α} {second : α → List String → Rule β} (hempty : ∀ found, ¬ first found [])
    (value : β) : ¬ seq first second value [] := by
  rintro ⟨found, used, rest, hwords, hfound, -⟩
  rw [(List.append_eq_nil_iff.mp hwords.symm).1] at hfound
  exact hempty found hfound

/-- What comes next never begins with a token that something of the rule might go on with. -/
def Apart (rule : Rule α) (goesOn : List String → String → Prop) (next : α → List String → Rule β) : Prop :=
  ∀ found used value word rest, rule found used → next found used value (word :: rest) → ¬ goesOn used word

theorem apart_done {rule : Rule α} {goesOn : List String → String → Prop} : Apart rule goesOn done := by
  rintro found used value word rest - ⟨-, hcons⟩
  cases hcons

/-- What comes after two rules, seen from the first: the second and then what comes after it. -/
theorem Apart.seq {first : Rule α} {second : α → List String → Rule β} {next : β → List String → Rule γ}
    {goesOn goesOn' : List String → String → Prop} (hapart : Apart first goesOn second)
    (hempty : ∀ found used value word, first found used → second found used value [] →
      goesOn used word → goesOn' used word)
    (hnext : Apart (Rule.seq first second) goesOn' next) :
    Apart first goesOn fun found used =>
      Rule.seq (second found used) fun other rest => next other (used ++ rest) := by
  rintro found used value word rest hfirst ⟨other, middle, tail, hwords, hsecond, hother⟩ hgoes
  cases middle with
  | nil =>
      rw [List.nil_append] at hwords
      subst hwords
      have hphrase : Rule.seq first second other (used ++ []) := ⟨found, used, [], rfl, hfirst, hsecond⟩
      refine hnext other (used ++ []) value word rest hphrase hother ?_
      rw [List.append_nil]
      exact hempty found used other word hfirst hsecond hgoes
  | cons head middle =>
      obtain ⟨rfl, rfl⟩ := List.cons.inj hwords
      exact hapart found used other word middle hfirst hsecond hgoes

end Rule

/-- The words are over, or their first is that of the tokens. -/
def BeginsLike (words : List String) (tokens : List Token) : Prop :=
  ∀ word ∈ words.head?, tokens.head?.map Token.text = some word

theorem beginsLike_nil (tokens : List Token) : BeginsLike [] tokens := by
  simp [BeginsLike]

theorem beginsLike_cons_iff {word : String} {words : List String} {tokens : List Token} :
    BeginsLike (word :: words) tokens ↔ ∃ token ∈ tokens.head?, token.text = word := by
  simp [BeginsLike]

theorem BeginsLike.of_append {words rest : List String} {tokens : List Token} (h : BeginsLike (words ++ rest) tokens) :
    BeginsLike words tokens := by
  cases words with
  | nil => exact beginsLike_nil tokens
  | cons word words => exact h

theorem beginsLike_append {used rest : List Token} {words : List String} (h : BeginsLike words rest) :
    BeginsLike (used.map Token.text ++ words) (used ++ rest) := by
  cases used with
  | nil => exact h
  | cons first used => exact beginsLike_cons_iff.mpr ⟨first, rfl, rfl⟩

theorem forall_mem_head?_cons {token : Token} {rest : List Token} {P : Token → Prop} :
    (∀ first ∈ (token :: rest).head?, P first) ↔ P token := by
  simp

theorem beginsLike_map {tokens : List Token} : BeginsLike (tokens.map Token.text) tokens := by
  cases tokens with
  | nil => exact beginsLike_nil []
  | cons token tokens => exact beginsLike_cons_iff.mpr ⟨token, rfl, rfl⟩

open Rule

theorem not_viable_append {α : Type} {rule : Rule α} {before : List String} {rest : List Token}
    (h : ∀ value words, words ≠ [] → BeginsLike words rest → ¬ rule value (before ++ words)) :
    ∀ token ∈ rest.head?, ¬ Viable rule (before ++ [token.text]) := by
  rintro token htoken ⟨value, words, hvalue⟩
  rw [List.append_assoc] at hvalue
  exact h value _ (List.cons_ne_nil _ _) (beginsLike_cons_iff.mpr ⟨token, htoken, rfl⟩) hvalue

/-- What a reader gives is right by a rule, with any tokens left over, if `goesOn` names those that something of the
rule might go on with. -/
inductive Reads {α : Type} {input : List Token} (rule : Rule α) (goesOn : List String → String → Prop)
    (tokens : List Token) : Except Fault (Taken input α) → Prop
  /-- The tokens used stand for the value, and whatever begins with them and goes on like the tokens that are left is
  this value and then what comes next. -/
  | ok {taken} (used : List Token) (htokens : tokens = used ++ taken.rest)
      (hrule : rule taken.value (used.map Token.text))
      (honly : ∀ {β : Type} (next : α → List String → Rule β), Apart rule goesOn next →
        ∀ value words, BeginsLike words taken.rest → seq rule next value (used.map Token.text ++ words) →
          next taken.value (used.map Token.text) value words) :
      Reads rule goesOn tokens (.ok taken)
  /-- Something of the rule begins with the tokens before the fault, and nothing begins with them and goes on like the
  tokens at the fault. -/
  | error {fault} (before rest : List Token) (htokens : tokens = before ++ rest)
      (hfound : fault.found = rest.head?) (hviable : Viable rule (before.map Token.text))
      (hnone : ∀ {β : Type} (next : α → List String → Rule β), Apart rule goesOn next →
        ∀ value words, BeginsLike words rest → ¬ seq rule next value (before.map Token.text ++ words)) :
      Reads rule goesOn tokens (.error fault)

namespace Reads

variable {α β : Type} {input input' : List Token} {rule : Rule α} {goesOn goesOn' : List String → String → Prop}
  {tokens : List Token}

/-- Nothing has to be taken. -/
theorem nothing {value : α} {taken : Taken input α} (hvalue : taken.value = value)
    (hrest : taken.rest = tokens) (hrule : rule value []) (hunique : ∀ other, rule other [] → other = value)
    (hstop : ∀ token ∈ tokens.head?, ∀ other words, ¬ rule other (token.text :: words)) :
    Reads rule goesOn tokens (.ok taken) := by
  subst hvalue
  refine .ok [] hrest.symm hrule ?_
  rintro β next - value words hbegins ⟨found, used, rest, hwords, hfound, hnext⟩
  rw [List.map_nil, List.nil_append] at hwords
  subst hwords
  cases used with
  | nil => rwa [hunique found hfound] at hnext
  | cons word used =>
      rw [List.cons_append, hrest, beginsLike_cons_iff] at hbegins
      obtain ⟨token, htoken, rfl⟩ := hbegins
      exact absurd hfound (hstop token htoken found used)

/-- The first token cannot begin anything of the rule. -/
theorem fail {fault : Fault} (hfound : fault.found = tokens.head?) (hviable : ∃ value words, rule value words)
    (hempty : ∀ value, ¬ rule value [])
    (hstop : ∀ token ∈ tokens.head?, ∀ value words, ¬ rule value (token.text :: words)) :
    Reads rule goesOn tokens (.error fault : Except Fault (Taken input α)) := by
  refine .error [] tokens rfl hfound hviable ?_
  rintro β next - value words hbegins ⟨found, used, rest, hwords, hrule, -⟩
  rw [List.map_nil, List.nil_append] at hwords
  subst hwords
  cases used with
  | nil => exact hempty found hrule
  | cons word used =>
      rw [List.cons_append, beginsLike_cons_iff] at hbegins
      obtain ⟨token, htoken, rfl⟩ := hbegins
      exact hstop token htoken found used hrule

/-- After its first token a reader goes on with what the rule wants then. -/
theorem step {token : Token} {x : Except Fault (Taken input α)}
    (h : Reads (after rule token.text) (fun used => goesOn (token.text :: used)) tokens x)
    (hempty : ∀ value, rule value [] → goesOn [] token.text) : Reads rule goesOn (token :: tokens) x := by
  have hshift : ∀ {β : Type} {next : α → List String → Rule β}, Apart rule goesOn next →
      Apart (after rule token.text) (fun used => goesOn (token.text :: used))
        (fun found used => next found (token.text :: used)) :=
    fun hapart found used value word rest hrule => hapart found (token.text :: used) value word rest hrule
  have hseq : ∀ {β : Type} {next : α → List String → Rule β}, Apart rule goesOn next → ∀ {value words},
      seq rule next value (token.text :: words) →
        seq (after rule token.text) (fun found used => next found (token.text :: used)) value words := by
    rintro β next hapart value words ⟨found, used, rest, hwords, hrule, hnext⟩
    cases used with
    | nil =>
        -- Then the token is the first of what comes next, and nothing of the rule may go on with that.
        rw [List.nil_append] at hwords
        subst hwords
        exact absurd (hempty found hrule) (hapart found [] value _ _ hrule hnext)
    | cons word used =>
        obtain ⟨rfl, rfl⟩ := List.cons.inj hwords
        exact ⟨found, used, rest, rfl, hrule, hnext⟩
  cases h with
  | ok used htokens hrule honly =>
      refine .ok (token :: used) (by rw [htokens, List.cons_append]) hrule ?_
      intro β next hapart value words hbegins hphrase
      exact honly _ (hshift hapart) value words hbegins (hseq hapart hphrase)
  | error before rest htokens hfound hviable hnone =>
      refine .error (token :: before) rest (by rw [htokens, List.cons_append]) hfound hviable ?_
      intro β next hapart value words hbegins hphrase
      exact hnone _ (hshift hapart) value words hbegins (hseq hapart hphrase)

/-- Rules that are the same for what begins like the tokens are read alike. -/
theorem congr {rule' : Rule α} {x : Except Fault (Taken input α)} (h : Reads rule goesOn tokens x)
    (hviable : ∃ value words, rule' value words)
    (hrule : ∀ value words, BeginsLike words tokens → (rule value words ↔ rule' value words)) :
    Reads rule' goesOn tokens x := by
  have hapart : ∀ {β : Type} {next : α → List String → Rule β}, Apart rule' goesOn next →
      Apart rule goesOn fun found used value words => rule' found used ∧ next found used value words :=
    fun hapart found used value word rest _ hnext =>
      hapart found used value word rest hnext.1 hnext.2
  have hseq : ∀ {β : Type} {next : α → List String → Rule β} {value words}, BeginsLike words tokens →
      seq rule' next value words →
        seq rule (fun found used value words => rule' found used ∧ next found used value words) value words := by
    rintro β next value words hbegins ⟨found, used, rest, rfl, hfound, hnext⟩
    exact ⟨found, used, rest, rfl, (hrule found used hbegins.of_append).mpr hfound, hfound, hnext⟩
  cases h with
  | ok used htokens hfound honly =>
      have hbegins : ∀ {words}, BeginsLike words _ → BeginsLike (used.map Token.text ++ words) tokens :=
        fun hwords => htokens ▸ beginsLike_append hwords
      refine .ok used htokens ((hrule _ _ (hbegins (beginsLike_nil _)).of_append).mp hfound) ?_
      intro β next hnext value words hwords hphrase
      exact (honly _ (hapart hnext) value words hwords (hseq (hbegins hwords) hphrase)).2
  | error before rest htokens hfound hstart hnone =>
      have hbegins : ∀ {words}, BeginsLike words rest → BeginsLike (before.map Token.text ++ words) tokens :=
        fun hwords => htokens ▸ beginsLike_append hwords
      refine .error before rest htokens hfound ?_ ?_
      · cases before with
        | nil => exact hviable
        | cons first before =>
            obtain ⟨value, words, hvalue⟩ := hstart
            refine ⟨value, words, (hrule value _ ?_).mp hvalue⟩
            rw [List.map_cons, List.cons_append, beginsLike_cons_iff, htokens]
            exact ⟨first, rfl, rfl⟩
      · intro β next hnext value words hwords hphrase
        exact hnone _ (hapart hnext) value words hwords (hseq (hbegins hwords) hphrase)

/-- A reader of a rule is a reader of any rule that says the same. -/
theorem of_iff {rule' : Rule α} {x : Except Fault (Taken input α)} (h : Reads rule goesOn tokens x)
    (hrule : ∀ value words, rule value words ↔ rule' value words) : Reads rule' goesOn tokens x := by
  obtain rfl : rule = rule' := funext fun value => funext fun words => propext (hrule value words)
  exact h

/-- More tokens may be named as ones that something of the rule might go on with. -/
theorem mono {x : Except Fault (Taken input α)} (h : Reads rule goesOn tokens x)
    (hle : ∀ found used word, rule found used → goesOn used word → goesOn' used word) :
    Reads rule goesOn' tokens x := by
  have hapart : ∀ {β : Type} {next : α → List String → Rule β}, Apart rule goesOn' next →
      Apart rule goesOn next :=
    fun hapart found used value word rest hrule hnext hgoes =>
      hapart found used value word rest hrule hnext (hle found used word hrule hgoes)
  cases h with
  | ok used htokens hrule honly =>
      exact .ok used htokens hrule fun next hnext => honly next (hapart hnext)
  | error before rest htokens hfound hviable hnone =>
      exact .error before rest htokens hfound hviable fun next hnext => hnone next (hapart hnext)

/-- Something is made of what was read. -/
theorem map {rule' : Rule β} {x : Except Fault (Taken input α)} (h : Reads rule goesOn tokens x) {f : α → β}
    {g : Taken input α → Taken input' β} (hvalue : ∀ taken, (g taken).value = f taken.value)
    (hrest : ∀ taken, (g taken).rest = taken.rest)
    (hrule : ∀ value words, rule' value words ↔ ∃ found, rule found words ∧ f found = value) :
    Reads rule' goesOn tokens (x >>= fun taken => .ok (g taken)) := by
  have hapart : ∀ {γ : Type} {next : β → List String → Rule γ}, Apart rule' goesOn next →
      Apart rule goesOn fun found => next (f found) :=
    fun hapart found used value word rest hfound =>
      hapart (f found) used value word rest ((hrule _ _).mpr ⟨found, hfound, rfl⟩)
  have hseq : ∀ {γ : Type} {next : β → List String → Rule γ} {value words},
      seq rule' next value words → seq rule (fun found => next (f found)) value words := by
    rintro γ next value words ⟨other, used, rest, rfl, hother, hnext⟩
    obtain ⟨found, hfound, rfl⟩ := (hrule _ _).mp hother
    exact ⟨found, used, rest, rfl, hfound, hnext⟩
  cases h with
  | @ok taken used htokens hfound honly =>
      refine .ok used (by rw [hrest, htokens]) ((hrule _ _).mpr ⟨_, hfound, (hvalue taken).symm⟩) ?_
      intro γ next hnext value words hwords hphrase
      rw [hrest] at hwords
      rw [hvalue]
      exact honly _ (hapart hnext) value words hwords (hseq hphrase)
  | error before rest htokens hfound hviable hnone =>
      refine .error before rest htokens hfound ?_ ?_
      · obtain ⟨found, words, hfound⟩ := hviable
        exact ⟨f found, words, (hrule _ _).mpr ⟨found, hfound, rfl⟩⟩
      · intro γ next hnext value words hwords hphrase
        exact hnone _ (hapart hnext) value words hwords (hseq hphrase)

/-- Only the tokens at hand are handed on otherwise. -/
theorem keep {x : Except Fault (Taken input α)} (h : Reads rule goesOn tokens x)
    {g : Taken input α → Taken input' α} (hvalue : ∀ taken, (g taken).value = taken.value)
    (hrest : ∀ taken, (g taken).rest = taken.rest) :
    Reads rule goesOn tokens (x >>= fun taken => .ok (g taken)) :=
  .map h (f := id) hvalue hrest fun _ _ => by simp

section Bind

variable {first : Rule α} {second : α → List String → Rule β}

/-- One reader after another reads one rule after another, if the second never begins with what the first might go on
with. -/
theorem bind {x : Except Fault (Taken input α)} {f : Taken input α → Except Fault (Taken input' β)}
    (hx : Reads first goesOn tokens x) (hapart : Apart first goesOn second)
    (hempty : ∀ found used value word, first found used → second found used value [] →
      goesOn used word → goesOn' used word)
    (hproductive : ∀ found used, first found used → ∃ value rest, second found used value rest)
    (hf : ∀ taken used, tokens = used ++ taken.rest → first taken.value (used.map Token.text) →
      (∀ token ∈ taken.rest.head?, ¬ Viable first (used.map Token.text ++ [token.text])) →
        Reads (second taken.value (used.map Token.text)) (fun rest => goesOn' (used.map Token.text ++ rest))
          taken.rest (f taken)) :
    Reads (seq first second) goesOn' tokens (x >>= f) := by
  cases hx with
  | error before rest htokens hfound hviable hnone =>
      refine .error before rest htokens hfound ?_ ?_
      · obtain ⟨found, words, hfirst⟩ := hviable
        obtain ⟨value, others, hsecond⟩ := hproductive _ _ hfirst
        exact ⟨value, words ++ others, found, _, others, (List.append_assoc ..).symm, hfirst, hsecond⟩
      · intro γ next hnext value words hwords hphrase
        exact hnone _ (hapart.seq hempty hnext) value words hwords (seq_assoc.mp hphrase)
  | @ok taken used htokens hfirst honly =>
      have hstop : ∀ token ∈ taken.rest.head?, ¬ Viable first (used.map Token.text ++ [token.text]) :=
        not_viable_append fun value words hwords hbegins hvalue =>
          hwords (honly done apart_done value words hbegins (seq_done_iff.mpr hvalue)).2
      -- What follows the second rule once the first has taken its tokens.
      have hlater : ∀ {γ : Type} {next : β → List String → Rule γ}, Apart (seq first second) goesOn' next →
          Apart (second taken.value (used.map Token.text)) (fun rest => goesOn' (used.map Token.text ++ rest))
            (fun other rest => next other (used.map Token.text ++ rest)) :=
        fun hnext other rest value word tail hsecond =>
          hnext other _ value word tail ⟨_, _, rest, rfl, hfirst, hsecond⟩
      have hreads := hf taken used htokens hfirst hstop
      change Reads (seq first second) goesOn' tokens (f taken)
      generalize f taken = y at hreads
      cases hreads with
      | error before rest hrest hfound hviable hnone =>
          refine .error (used ++ before) rest (by rw [htokens, hrest, List.append_assoc]) hfound ?_ ?_
          · obtain ⟨value, words, hsecond⟩ := hviable
            rw [List.map_append]
            exact ⟨value, words, _, _, _, List.append_assoc .., hfirst, hsecond⟩
          · intro γ next hnext value words hwords hphrase
            rw [List.map_append, List.append_assoc, seq_assoc] at hphrase
            have hbegins : BeginsLike (before.map Token.text ++ words) taken.rest := hrest ▸ beginsLike_append hwords
            exact hnone _ (hlater hnext) value words hwords
              (honly _ (hapart.seq hempty hnext) value _ hbegins hphrase)
      | @ok later others hrest hsecond honly' =>
          refine .ok (used ++ others) (by rw [htokens, hrest, List.append_assoc]) ?_ ?_
          · rw [List.map_append]
            exact ⟨_, _, _, rfl, hfirst, hsecond⟩
          · intro γ next hnext value words hwords hphrase
            rw [List.map_append, List.append_assoc, seq_assoc] at hphrase
            have hbegins : BeginsLike (others.map Token.text ++ words) taken.rest := hrest ▸ beginsLike_append hwords
            rw [List.map_append]
            exact honly' _ (hlater hnext) value words hwords
              (honly _ (hapart.seq hempty hnext) value _ hbegins hphrase)

end Bind

end Reads

/-! ### The whole text -/

open Token

/-- The position is where the first token stands with which nothing of the rule begins any more, or the end of the
text if something begins with all the tokens. -/
inductive PointsAt {α : Type} (rule : Rule α) (text : String) : Nat → Prop
  | token (before rest : List Token) (token : Token) (htokens : ofText text = before ++ token :: rest)
      (hstands : token.text.toList <+: text.toList.drop token.position)
      (hviable : ∀ start, start <+: before → Viable rule (start.map Token.text))
      (hnot : ¬ Viable rule ((before ++ [token]).map Token.text)) : PointsAt rule text token.position
  | end (hviable : Viable rule (texts text)) : PointsAt rule text text.length

section Whole

variable {α : Type} {rule : Rule α} {goesOn : List String → String → Prop} {text : String}
  {reader : (tokens : List Token) → Except Fault (Taken tokens α)}

/-- A fault points at the first token that no completion goes on with. -/
theorem pointsAt_of_not_viable {before rest : List Token} {fault : Fault}
    (htokens : ofText text = before ++ rest) (hfound : fault.found = rest.head?)
    (hviable : Viable rule (before.map Token.text))
    (hnot : ∀ token ∈ rest.head?, ¬ Viable rule (before.map Token.text ++ [token.text])) :
    PointsAt rule text (SyntaxFault.position ⟨text, fault⟩) := by
  rw [SyntaxFault.position]
  cases rest with
  | nil =>
      rw [List.append_nil] at htokens
      rw [hfound, List.head?_nil]
      refine .end ?_
      rw [← map_text_ofText, htokens]
      exact hviable
  | cons token rest =>
      rw [hfound, List.head?_cons]
      have hmem : token ∈ ofText text := by simp [htokens]
      refine .token before rest token htokens (prefix_drop_of_mem_ofText hmem) ?_ ?_
      · rintro start ⟨others, rfl⟩
        rw [List.map_append] at hviable
        exact hviable.of_append
      · rw [List.map_append]
        exact hnot token rfl

/-- A reader of the whole text gives what the tokens stand for by the rule, or points at the first token that is
wrong. -/
theorem Reads.whole (h : Reads rule goesOn (ofText text) (reader (ofText text))) :
    (∀ value, Reading.whole reader text = .ok value ↔ rule value (texts text)) ∧
      ((∀ value, ¬ rule value (texts text)) →
        ∃ error, Reading.whole reader text = .error error ∧ PointsAt rule text error.position) := by
  unfold Reading.whole
  generalize reader (ofText text) = x at h
  cases h with
  | error before rest htokens hfound hviable hnone =>
      have hnone' : ∀ value words, BeginsLike words rest → ¬ rule value (before.map Token.text ++ words) :=
        fun value words hbegins hvalue =>
          hnone done apart_done value words hbegins (seq_done_iff.mpr hvalue)
      have hpoints := pointsAt_of_not_viable htokens hfound hviable
        (not_viable_append fun value words _ => hnone' value words)
      refine ⟨fun value => ?_, fun _ => ⟨_, rfl, hpoints⟩⟩
      refine iff_of_false (fun hok => nomatch hok) ?_
      rw [← map_text_ofText, htokens, List.map_append]
      exact hnone' value _ beginsLike_map
  | @ok taken used htokens hrule honly =>
      have honly' : ∀ value words, BeginsLike words taken.rest → rule value (used.map Token.text ++ words) →
          value = taken.value ∧ words = [] :=
        fun value words hbegins hvalue =>
          honly done apart_done value words hbegins (seq_done_iff.mpr hvalue)
      have htexts : texts text = used.map Token.text ++ taken.rest.map Token.text :=
        (congrArg (List.map Token.text) htokens).trans List.map_append
      have hvalues : ∀ value, rule value (texts text) → value = taken.value ∧ taken.rest.map Token.text = [] :=
        fun value hvalue => honly' value _ beginsLike_map (htexts ▸ hvalue)
      cases hrest : taken.rest with
      | nil =>
          have hwhole : rule taken.value (texts text) := by
            rw [htexts, hrest, List.map_nil, List.append_nil]
            exact hrule
          refine ⟨fun value => ?_, fun hnone => absurd hwhole (hnone _)⟩
          simp only [hrest, Except.ok.injEq]
          exact ⟨fun heq => heq ▸ hwhole, fun hvalue => (hvalues value hvalue).1.symm⟩
      | cons token rest =>
          have hpoints : PointsAt rule text (SyntaxFault.position ⟨text, ⟨.endOfText, some token⟩⟩) :=
            pointsAt_of_not_viable htokens (by rw [hrest]; rfl) (viable_of_rule hrule)
              (not_viable_append fun value words hwords hbegins hvalue =>
                hwords (honly' value words hbegins hvalue).2)
          simp only [hrest]
          refine ⟨fun value => ?_, fun _ => ⟨_, rfl, hpoints⟩⟩
          refine iff_of_false (fun hok => nomatch hok) fun hvalue => ?_
          have hnil := (hvalues value hvalue).2
          rw [hrest] at hnil
          cases hnil

end Whole

end BuilderFields
