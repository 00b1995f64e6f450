import BuilderFields.Log.Setup
import BuilderFields.Proofs.Log.Lineage
import BuilderFields.Proofs.Outcome
import BuilderFields.Proofs.Text.LetterCase

/-!
# What a filter text means

A filter text lists modules with rules, and bare levels. A record goes by the rule that was given last for the nearest
listed module that encloses its own, and by the last bare level if there is none. A sink goes by the text in lower
case, in which the rules are the same but the modules may be called otherwise: it does what the text says exactly when
the same rule governs the module either way.
-/

namespace BuilderFields

namespace LogLevel

theorem number_injective : Function.Injective number := by
  intro level other h
  cases level <;> cases other <;> first | rfl | exact absurd h (by decide)

theorem trace_number_le (level : LogLevel) : trace.number ≤ level.number := by
  cases level <;> decide

end LogLevel

namespace LogRule

variable {rule other : LogRule}

theorem trace_number_le_of_allows {number : Int} (h : rule.allows number) :
    LogLevel.trace.number ≤ number := by
  cases rule with
  | silent => cases h
  | atLeast level =>
      have hnumber : level.number ≤ number := by simpa [allows] using h
      exact Int.le_trans (LogLevel.trace_number_le level) hnumber

/-- Different rules differ in what they say about the records of some level. -/
theorem eq_of_allows (h : ∀ level : LogLevel, rule.allows level.number = other.allows level.number) :
    rule = other := by
  have hself : ∀ level : LogLevel, (atLeast level).allows level.number = true := fun level =>
    decide_eq_true (Int.le_refl _)
  cases rule with
  | silent =>
      cases other with
      | silent => rfl
      | atLeast level => exact absurd ((h level).trans (hself level)) (by simp [allows])
  | atLeast level =>
      cases other with
      | silent => exact absurd ((h level).symm.trans (hself level)) (by simp [allows])
      | atLeast level' =>
          have hle : level.number ≤ level'.number := of_decide_eq_true ((h level').trans (hself level'))
          have hge : level'.number ≤ level.number :=
            of_decide_eq_true ((h level).symm.trans (hself level))
          rw [LogLevel.number_injective (Int.le_antisymm hle hge)]

end LogRule

namespace LogFilter

/-! ### What is listed -/

def pieces (text : String) : List (List Char) :=
  (Text.splitOnChar ',' text.toList).map Text.trimBlanks

def moduleText (piece : List Char) : List Char :=
  Text.trimBlanks (piece.takeWhile fun c => c ≠ '=')

def ruleText (piece : List Char) : List Char :=
  Text.trimBlanks (piece.dropWhile fun c => c ≠ '=').tail

def assigned? (piece : List Char) : Option (String × String) :=
  if '=' ∈ piece then
    some (String.ofList (moduleText piece), String.ofList (ruleText piece))
  else
    none

def bareLevel? (piece : List Char) : Option String :=
  if piece = [] ∨ '=' ∈ piece then none else some (String.ofList piece)

def levelNamed? (name : String) : Option LogLevel :=
  LogLevel.ofName? (Text.upper (Text.lower name))

/-- A module is silenced by the word false, in any letter case as well. -/
def ruleNamed? (name : String) : Option LogRule :=
  if Text.lower name = "false" then some .silent else (levelNamed? name).map .atLeast

def modulesOf (pieces : List (List Char)) : List String :=
  pieces.filterMap fun piece => (assigned? piece).map Prod.fst

def rulesOf (pieces : List (List Char)) : List LogRule :=
  pieces.filterMap fun piece => (assigned? piece).bind fun entry => ruleNamed? entry.2

def levelsOf (pieces : List (List Char)) : List LogLevel :=
  pieces.filterMap fun piece => (bareLevel? piece).bind levelNamed?

structure Listing where
  entries : List (String × LogRule)
  level : LogLevel

/-- The rules and the level that a text gives, with the modules called as they are in another one. -/
def listingAs (other text : String) : Listing where
  entries := (modulesOf (pieces other)).zip (rulesOf (pieces text))
  level := (levelsOf (pieces text)).getLast?.getD .info

@[simp] theorem entries_listingAs (other text : String) :
    (listingAs other text).entries = (modulesOf (pieces other)).zip (rulesOf (pieces text)) := rfl

@[simp] theorem level_listingAs (other text : String) :
    (listingAs other text).level = (levelsOf (pieces text)).getLast?.getD .info := rfl

def listing (text : String) : Listing :=
  listingAs text text

namespace Listing

/-- Of several rules for one module the last one counts. -/
def rule? (listing : Listing) (name : String) : Option LogRule :=
  ((listing.entries.filter fun entry => entry.1 = name).map Prod.snd).getLast?

/-- The longest listed name that encloses the module. -/
def Nearest (listing : Listing) (name module : String) : Prop :=
  Encloses name module ∧ (∃ entry ∈ listing.entries, entry.1 = name) ∧
    ∀ entry ∈ listing.entries, Encloses entry.1 module → entry.1.length ≤ name.length

/-- The rule of the nearest listed module, and the bare level if none is listed. -/
def Governs (listing : Listing) (module : String) (rule : LogRule) : Prop :=
  (∃ name, listing.Nearest name module ∧ listing.rule? name = some rule) ∨
    (∀ entry ∈ listing.entries, ¬ Encloses entry.1 module) ∧ rule = .atLeast listing.level

variable {listing : Listing} {name module : String} {rule other : LogRule}

theorem rule?_eq_none_iff : listing.rule? name = none ↔ ∀ entry ∈ listing.entries, entry.1 ≠ name := by
  rw [rule?, List.getLast?_eq_none_iff, List.map_eq_nil_iff, List.filter_eq_nil_iff]
  simp only [decide_eq_true_eq, ne_eq]

theorem Nearest.unique {name' : String} (h : listing.Nearest name module)
    (h' : listing.Nearest name' module) : name = name' := by
  obtain ⟨hencloses, ⟨entry, hentry, rfl⟩, hlongest⟩ := h
  obtain ⟨hencloses', ⟨entry', hentry', rfl⟩, hlongest'⟩ := h'
  exact hencloses.eq_of_length_eq hencloses'
    (Nat.le_antisymm (hlongest' entry hentry hencloses) (hlongest entry' hentry' hencloses'))

/-- A module is governed by one rule. -/
theorem Governs.unique (h : listing.Governs module rule) (h' : listing.Governs module other) :
    rule = other := by
  rcases h with ⟨name, hnearest, hrule⟩ | ⟨hnone, rfl⟩
  · rcases h' with ⟨name', hnearest', hother⟩ | ⟨hnone, rfl⟩
    · obtain rfl := hnearest.unique hnearest'
      exact Option.some.inj (hrule.symm.trans hother)
    · obtain ⟨hencloses, ⟨entry, hentry, rfl⟩, -⟩ := hnearest
      exact absurd hencloses (hnone entry hentry)
  · rcases h' with ⟨name', ⟨hencloses, ⟨entry, hentry, rfl⟩, -⟩, -⟩ | ⟨-, rfl⟩
    · exact absurd hencloses (hnone entry hentry)
    · rfl

def Allows (listing : Listing) (module : String) (number : Int) : Prop :=
  ∃ rule, listing.Governs module rule ∧ rule.allows number

theorem Governs.allows_iff {number : Int} (h : listing.Governs module rule) :
    listing.Allows module number ↔ rule.allows number := by
  constructor
  · rintro ⟨other, hother, hallows⟩
    rwa [h.unique hother]
  · exact fun hallows => ⟨rule, h, hallows⟩

def Found (listing : Listing) (filter : LogFilter) : Prop :=
  ∀ name, filter.rules.get? name =
    (listing.rule? name).or (if name = "" then some (.atLeast listing.level) else none)

theorem governs_of_ruleFor? {filter : LogFilter} (hfound : listing.Found filter)
    (h : filter.ruleFor? module = some rule) : listing.Governs module rule := by
  obtain ⟨nearer, name, farther, hlineage, hrule, hnearer⟩ := List.findSome?_eq_some_iff.mp h
  have hencloses : Encloses name module := mem_lineage_iff.mp (by simp [hlineage])
  have hunlisted : ∀ entry ∈ listing.entries, entry.1 ∉ nearer := by
    intro entry hentry hmem
    have hnone := hnearer _ hmem
    rw [hfound, Option.or_eq_none_iff, rule?_eq_none_iff] at hnone
    exact hnone.1 entry hentry rfl
  -- What is listed and encloses the module comes no earlier on its lineage, so it is no longer.
  have hlongest : ∀ entry ∈ listing.entries, Encloses entry.1 module → entry.1.length ≤ name.length := by
    intro entry hentry hentryEncloses
    have hmem := mem_lineage_iff.mpr hentryEncloses
    have hpairwise := pairwise_lineage module
    rw [hlineage, List.pairwise_append] at hpairwise
    rw [hlineage, List.mem_append, List.mem_cons] at hmem
    rcases hmem with hmem | rfl | hmem
    · exact absurd hmem (hunlisted entry hentry)
    · exact Nat.le_refl _
    · exact List.rel_of_pairwise_cons hpairwise.2.1 hmem
  rw [hfound] at hrule
  cases hlast : listing.rule? name with
  | some found =>
      rw [hlast, Option.some_or, Option.some.injEq] at hrule
      subst hrule
      have hlisted : ∃ entry ∈ listing.entries, entry.1 = name := by
        by_contra hnone
        push Not at hnone
        rw [rule?_eq_none_iff.mpr hnone] at hlast
        cases hlast
      exact Or.inl ⟨name, ⟨hencloses, hlisted, hlongest⟩, hlast⟩
  | none =>
      rw [hlast, Option.none_or] at hrule
      split at hrule
      · rename_i hempty
        obtain rfl := Option.some.inj hrule
        refine Or.inr ⟨fun entry hentry hentryEncloses => ?_, rfl⟩
        have hlength := hlongest entry hentry hentryEncloses
        rw [hempty, String.length_empty, Nat.le_zero, String.length_eq_zero_iff] at hlength
        exact rule?_eq_none_iff.mp hlast entry hentry (hlength.trans hempty.symm)
      · cases hrule

theorem exists_ruleFor? {filter : LogFilter} (hfound : listing.Found filter) (module : String) :
    ∃ rule, filter.ruleFor? module = some rule := by
  have hempty : "" ∈ lineage module := mem_lineage_iff.mpr (Or.inr (Or.inr rfl))
  rw [← Option.isSome_iff_exists, ruleFor?, List.findSome?_isSome_iff]
  refine ⟨"", hempty, ?_⟩
  rw [hfound, if_pos rfl]
  cases listing.rule? "" <;> rfl

/-- The filter looks up the rule that governs the module. -/
theorem ruleFor?_eq_some_iff {filter : LogFilter} (hfound : listing.Found filter) :
    filter.ruleFor? module = some rule ↔ listing.Governs module rule := by
  refine ⟨governs_of_ruleFor? hfound, fun h => ?_⟩
  obtain ⟨found, hrule⟩ := exists_ruleFor? hfound module
  rw [hrule, (governs_of_ruleFor? hfound hrule).unique h]

/-- The filter keeps a record exactly if the listing allows it. -/
theorem keeps_iff {filter : LogFilter} (hfound : listing.Found filter) {number : Int} :
    filter.keeps module number = true ↔ listing.Allows module number := by
  obtain ⟨rule, hrule⟩ := exists_ruleFor? hfound module
  rw [((ruleFor?_eq_some_iff hfound).mp hrule).allows_iff, keeps, hrule]

/-- A draft with the rules and the level of a listing becomes a filter with its rules. -/
theorem found_toFilter {draft : Draft} (hrules : draft.rules = Entries.ofList listing.entries)
    (hlevel : draft.level = listing.level) : listing.Found draft.toFilter := by
  have hget : ∀ name, draft.rules.get? name = listing.rule? name := by
    intro name
    rw [hrules]
    exact Entries.get?_ofList _ name
  intro name
  rw [← hget, ← hlevel, Draft.toFilter]
  dsimp only
  by_cases hcontains : draft.rules.contains ""
  · rw [if_pos hcontains]
    by_cases hname : name = ""
    · obtain ⟨rule, hrule⟩ := Option.isSome_iff_exists.mp hcontains
      rw [hname, hrule, Option.some_or]
    · rw [if_neg hname, Option.or_none]
  · rw [if_neg hcontains, Entries.get?_put]
    by_cases hname : name = ""
    · have hnone : draft.rules.get? "" = none := by
        rwa [Entries.contains, Bool.not_eq_true, Option.isSome_eq_false_iff, Option.isNone_iff_eq_none]
          at hcontains
      rw [if_pos hname, if_pos hname, hname, hnone, Option.none_or]
    · rw [if_neg hname, if_neg hname, Option.or_none]

/-- Every module is governed by a rule. -/
theorem exists_governs (listing : Listing) (module : String) : ∃ rule, listing.Governs module rule := by
  have hfound : listing.Found (Draft.toFilter ⟨"", listing.level, Entries.ofList listing.entries⟩) :=
    found_toFilter rfl rfl
  obtain ⟨rule, hrule⟩ := exists_ruleFor? hfound module
  exact ⟨rule, (ruleFor?_eq_some_iff hfound).mp hrule⟩

/-- With this set-up a record of the module is written if the listing allows it, and not if it does not. -/
def Decides (listing : Listing) (setup : LogSetup) (module : String) : Prop :=
  ∀ severity message,
    setup.write ⟨severity, module, message⟩ = [⟨severity, module, message⟩] ∧
        listing.Allows module severity.number ∨
      setup.write ⟨severity, module, message⟩ = [] ∧ ¬ listing.Allows module severity.number

end Listing

/-! ### Reading a text -/

section Reading

open Text

variable {piece piece' : List Char} {draft next : Draft}

theorem readLevel_eq_ok_iff {name : String} {level : LogLevel} :
    readLevel name = .ok level ↔ upper name = level.name := by
  rw [show upper name = level.name ↔ _ from eq_comm.trans LogLevel.ofName?_eq_some_iff.symm]
  unfold readLevel
  cases LogLevel.ofName? (upper name) <;> simp

theorem notMem_of_upper_eq_name {name : String} {level : LogLevel} (h : upper name = level.name) {c d : Char}
    (hupper : d ∈ upperChar c) (hd : d ∉ level.name.toList) : c ∉ name.toList := by
  intro hmem
  refine hd ?_
  rw [← h, upper, String.toList_ofList]
  exact List.mem_flatMap.mpr ⟨c, hmem, hupper⟩

/-- A level that is read from lower case has the same name in any case. -/
theorem levelNamed?_of_readLevel {level : LogLevel} (h : Expands LowerImage piece piece')
    (hlevel : readLevel (String.ofList piece') = .ok level) :
    lower (String.ofList piece) = String.ofList piece' ∧
      levelNamed? (String.ofList piece) = some level := by
  have hupper := readLevel_eq_ok_iff.mp hlevel
  have hcapital : 'Σ' ∉ level.name.toList := by
    cases level <;> decide
  have hsigma : 'σ' ∉ piece' := by
    simpa using notMem_of_upper_eq_name hupper (c := 'σ') (by decide) hcapital
  have hfinal : 'ς' ∉ piece' := by
    simpa using notMem_of_upper_eq_name hupper (c := 'ς') (by decide) hcapital
  have hlower : (lower (String.ofList piece)).toList = piece' :=
    toList_lower_of_expands (by rwa [String.toList_ofList]) hsigma hfinal
  have heq : lower (String.ofList piece) = String.ofList piece' := by
    rw [← hlower, String.ofList_toList]
  refine ⟨heq, ?_⟩
  rw [levelNamed?, heq, hupper]
  exact LogLevel.ofName?_name level

theorem keeps_equals : Keeps '=' LowerImage :=
  keeps_lowerImage (by decide)

theorem expands_moduleText (h : Expands LowerImage piece piece') :
    Expands LowerImage (moduleText piece) (moduleText piece') :=
  (h.takeWhile keeps_equals.respects).trimBlanks respects_isBlank_lowerImage

theorem exists_dropWhile_eq_cons (h : '=' ∈ piece) :
    ∃ rest, (piece.dropWhile fun c => c ≠ '=') = '=' :: rest := by
  have hne : (piece.dropWhile fun c => c ≠ '=') ≠ [] := by
    rw [Ne, List.dropWhile_eq_nil_iff]
    exact fun hall => absurd rfl (of_decide_eq_true (hall _ h))
  obtain ⟨c, rest, hcons⟩ := List.exists_cons_of_ne_nil hne
  have hc := List.head?_dropWhile_not (fun c => decide (c ≠ '=')) piece
  rw [hcons] at hc
  obtain rfl : c = '=' := by simpa using hc
  exact ⟨rest, hcons⟩

theorem expands_ruleText (h : Expands LowerImage piece piece') (hmem : '=' ∈ piece) :
    Expands LowerImage (ruleText piece) (ruleText piece') := by
  obtain ⟨rest, hrest⟩ := exists_dropWhile_eq_cons hmem
  have hdropped := h.dropWhile keeps_equals.respects
  rw [hrest] at hdropped
  obtain ⟨image, rest', himage, hexpands, heq⟩ := expands_cons_iff.mp hdropped
  rw [(keeps_equals _ _ himage).2.1 rfl, List.singleton_append] at heq
  rw [ruleText, ruleText, hrest, heq, List.tail_cons, List.tail_cons]
  exact hexpands.trimBlanks respects_isBlank_lowerImage

theorem ruleNamed?_of_read {rule : LogRule} (h : Expands LowerImage piece piece')
    (hrule : (if String.ofList piece' = "false" then .ok .silent
      else LogRule.atLeast <$> readLevel (String.ofList piece')) = Except.ok rule) :
    ruleNamed? (String.ofList piece) = some rule := by
  unfold ruleNamed?
  split at hrule
  · rename_i hfalse
    have hpiece : piece' = "false".toList := by rw [← hfalse, String.toList_ofList]
    have hlower : (lower (String.ofList piece)).toList = piece' :=
      toList_lower_of_expands (by rwa [String.toList_ofList]) (by rw [hpiece]; decide)
        (by rw [hpiece]; decide)
    rw [if_pos (String.toList_injective (hlower.trans hpiece))]
    exact congrArg some (Except.ok.inj hrule)
  · rename_i hfalse
    cases hlevel : readLevel (String.ofList piece') with
    | error error => simp [hlevel] at hrule
    | ok level =>
        obtain ⟨hlower, hnamed⟩ := levelNamed?_of_readLevel h hlevel
        rw [hlevel] at hrule
        rw [hlower, if_neg hfalse, hnamed]
        exact congrArg some (Except.ok.inj hrule)

theorem add_of_notMem (hne : piece ≠ []) (hmem : '=' ∉ piece) :
    draft.add (String.ofList piece) = (readLevel (String.ofList piece)).map fun level =>
      { draft with levelText := String.ofList piece, level := level } := by
  have hempty : ¬ (String.ofList piece).isEmpty := by
    rw [String.isEmpty_iff, String.ofList_eq_empty_iff]
    exact hne
  have hdrop : (piece.dropWhile fun c => c ≠ '=') = [] :=
    List.dropWhile_eq_nil_iff.mpr fun c hc => decide_eq_true fun heq => hmem (heq ▸ hc)
  rw [Draft.add, if_neg hempty, String.toList_ofList]
  simp only [hdrop]
  cases readLevel (String.ofList piece) <;> rfl

theorem add_of_mem (hmem : '=' ∈ piece) :
    draft.add (String.ofList piece) =
      (if String.ofList (ruleText piece) = "false" then Except.ok LogRule.silent
        else LogRule.atLeast <$> readLevel (String.ofList (ruleText piece))).map fun rule =>
      { draft with rules := draft.rules.put (String.ofList (moduleText piece)) rule } := by
  have hempty : ¬ (String.ofList piece).isEmpty := by
    rw [String.isEmpty_iff, String.ofList_eq_empty_iff]
    exact List.ne_nil_of_mem hmem
  obtain ⟨rest, hrest⟩ := exists_dropWhile_eq_cons hmem
  rw [Draft.add, if_neg hempty, String.toList_ofList, ruleText, hrest, List.tail_cons]
  by_cases hfalse : String.ofList (trimBlanks rest) = "false"
  · simp only [if_pos hfalse]
    rfl
  · simp only [if_neg hfalse]
    cases readLevel (String.ofList (trimBlanks rest)) <;> rfl

structure Draft.Adds (draft next : Draft) (pieces pieces' : List (List Char)) : Prop where
  rules : next.rules = draft.rules.putAll ((modulesOf pieces').zip (rulesOf pieces))
  level : next.level = (levelsOf pieces).getLast?.getD draft.level
  length_eq : (modulesOf pieces').length = (rulesOf pieces).length

/-- One piece adds to the draft what it lists. -/
theorem adds_add (h : Expands LowerImage piece piece')
    (hadd : draft.add (String.ofList piece') = .ok next) : draft.Adds next [piece] [piece'] := by
  by_cases hmem : '=' ∈ piece
  · have hmem' := (h.mem_iff keeps_equals).mpr hmem
    rw [add_of_mem hmem'] at hadd
    obtain ⟨rule, hrule, hnext⟩ := map_eq_ok_iff.mp hadd
    have hnamed := ruleNamed?_of_read (expands_ruleText h hmem) hrule
    subst hnext
    constructor <;> simp [modulesOf, rulesOf, levelsOf, assigned?, bareLevel?, hmem, hmem', hnamed,
      Entries.putAll_cons]
  · have hmem' : '=' ∉ piece' := fun h' => hmem ((h.mem_iff keeps_equals).mp h')
    by_cases hne : piece = []
    · obtain rfl := (h.eq_nil_iff keeps_equals.respects).mpr hne
      obtain rfl := Except.ok.inj hadd
      constructor <;> simp [modulesOf, rulesOf, levelsOf, assigned?, bareLevel?, hne]
    · have hne' : piece' ≠ [] := fun h' => hne ((h.eq_nil_iff keeps_equals.respects).mp h')
      rw [add_of_notMem hne' hmem'] at hadd
      obtain ⟨level, hlevel, hnext⟩ := map_eq_ok_iff.mp hadd
      have hnamed := (levelNamed?_of_readLevel h hlevel).2
      subst hnext
      constructor <;> simp [modulesOf, rulesOf, levelsOf, assigned?, bareLevel?, hmem, hmem', hne, hnamed]

@[simp] theorem modulesOf_append (first second : List (List Char)) :
    modulesOf (first ++ second) = modulesOf first ++ modulesOf second :=
  List.filterMap_append

@[simp] theorem rulesOf_append (first second : List (List Char)) :
    rulesOf (first ++ second) = rulesOf first ++ rulesOf second :=
  List.filterMap_append

@[simp] theorem levelsOf_append (first second : List (List Char)) :
    levelsOf (first ++ second) = levelsOf first ++ levelsOf second :=
  List.filterMap_append

theorem Draft.Adds.trans {last : Draft} {first second first' second' : List (List Char)}
    (h : draft.Adds next first first') (hlater : next.Adds last second second') :
    draft.Adds last (first ++ second) (first' ++ second') where
  rules := by
    rw [hlater.rules, h.rules, ← Entries.putAll_append, modulesOf_append, rulesOf_append,
      List.zip_append h.length_eq]
  level := by
    rw [hlater.level, h.level, levelsOf_append, List.getLast?_append]
    cases (levelsOf second).getLast? <;> rfl
  length_eq := by
    rw [modulesOf_append, rulesOf_append, List.length_append, List.length_append, h.length_eq,
      hlater.length_eq]

/-- The pieces add to the draft what they list, one after the other. -/
theorem adds_of_foldlM {pieces pieces' : List (List Char)}
    (h : List.Forall₂ (Expands LowerImage) pieces pieces')
    (hfold : (pieces'.map String.ofList).foldlM Draft.add draft = .ok next) :
    draft.Adds next pieces pieces' := by
  induction h generalizing draft with
  | nil =>
      obtain rfl := Except.ok.inj hfold
      exact ⟨rfl, rfl, rfl⟩
  | cons hpiece _ ih =>
      rw [List.map_cons, List.foldlM_cons] at hfold
      obtain ⟨between, hadd, hrest⟩ := exists_of_bind_eq_ok hfold
      exact (adds_add hpiece hadd).trans (ih hrest)

/-- The pieces of a lower-cased text are expansions of the pieces of the text. -/
theorem expands_pieces (text : String) :
    List.Forall₂ (Expands LowerImage) (pieces text) (pieces (lower text)) := by
  have hcomma : Keeps ',' LowerImage := keeps_lowerImage (by decide)
  rw [pieces, pieces, List.forall₂_map_left_iff, List.forall₂_map_right_iff]
  exact ((expands_lower text).splitOnChar hcomma).imp fun _ _ h =>
    h.trimBlanks respects_isBlank_lowerImage

theorem parts_eq_map (text : String) : parts text = (pieces (lower text)).map String.ofList := by
  rw [parts, pieces, List.map_map]
  rfl

/-- A filter that is read has the rules of the text, found under the modules in lower case. -/
theorem found_of_parse {text : String} {filter : LogFilter} (h : parse text = .ok filter) :
    (listingAs (lower text) text).Found filter := by
  obtain ⟨draft, hfold, hfilter⟩ := exists_of_bind_eq_ok h
  obtain rfl := Except.ok.inj hfilter
  rw [parts_eq_map] at hfold
  obtain ⟨hrules, hlevel, -⟩ := adds_of_foldlM (expands_pieces text) hfold
  refine Listing.found_toFilter ?_ ?_
  · rw [hrules, entries_listingAs, Entries.ofList, Draft.initial]
  · rw [hlevel, level_listingAs, Draft.initial]

theorem modulesOf_eq_of_lower {pieces pieces' : List (List Char)}
    (h : List.Forall₂ (Expands LowerImage) pieces pieces')
    (hlower : ∀ name ∈ modulesOf pieces, lower name = name) : modulesOf pieces' = modulesOf pieces := by
  induction h with
  | nil => rfl
  | @cons piece piece' pieces pieces' hpiece _ ih =>
      by_cases hmem : '=' ∈ piece
      · have hmem' := (hpiece.mem_iff keeps_equals).mpr hmem
        have hhead : modulesOf (piece :: pieces) = String.ofList (moduleText piece) :: modulesOf pieces := by
          simp [modulesOf, assigned?, hmem]
        have hhead' :
            modulesOf (piece' :: pieces') = String.ofList (moduleText piece') :: modulesOf pieces' := by
          simp [modulesOf, assigned?, hmem']
        rw [hhead, List.forall_mem_cons] at hlower
        have hmodule : moduleText piece' = moduleText piece := by
          have htext : (String.ofList (moduleText piece)).toList = moduleText piece := String.toList_ofList
          have hexpands := expands_moduleText hpiece
          rw [← htext] at hexpands
          exact (eq_of_expands_of_lower_eq hlower.1 hexpands).trans htext
        rw [hhead, hhead', hmodule, ih hlower.2]
      · have hmem' : '=' ∉ piece' := fun h' => hmem ((hpiece.mem_iff keeps_equals).mp h')
        have hskip : modulesOf (piece :: pieces) = modulesOf pieces := by
          simp [modulesOf, assigned?, hmem]
        have hskip' : modulesOf (piece' :: pieces') = modulesOf pieces' := by
          simp [modulesOf, assigned?, hmem']
        rw [hskip] at hlower
        rw [hskip, hskip', ih hlower]

/-- Lower-casing does no harm to a listing whose modules are lower case. -/
theorem listingAs_lower_of_lower {text : String}
    (hlower : ∀ name ∈ modulesOf (pieces text), lower name = name) :
    listingAs (lower text) text = listing text := by
  rw [listing, listingAs, listingAs, modulesOf_eq_of_lower (expands_pieces text) hlower]

end Reading

/-! ### What is written -/

section Writing

variable {filter : LogFilter}

/-- A configured set-up writes a record if the sink and the filter both let it through. -/
theorem write_install (setup : LogSetup) (filter : LogFilter) (record : LogRecord) :
    (setup.install filter).write record =
      if LogSetup.sinkLevel.number ≤ record.severity.number ∧
          filter.keeps record.module record.severity.number = true then
        [record]
      else
        [] :=
  List.append_nil _

/-- What a filter allows is never below the level of the sink. -/
theorem Listing.decides_install {listing : Listing} (hfound : listing.Found filter) (setup : LogSetup)
    (module : String) : listing.Decides (setup.install filter) module := by
  intro severity message
  rw [write_install]
  by_cases hallows : listing.Allows module severity.number
  · obtain ⟨rule, -, hrule⟩ := id hallows
    have hlevel := LogRule.trace_number_le_of_allows hrule
    exact Or.inl ⟨if_pos ⟨hlevel, (keeps_iff hfound).mpr hallows⟩, hallows⟩
  · exact Or.inr ⟨if_neg fun h => hallows ((keeps_iff hfound).mp h.2), hallows⟩

/-- Two listings that decide alike have the same rule for the module. -/
theorem Listing.Decides.governs_iff {listing other : Listing} {setup : LogSetup} {module : String}
    (h : listing.Decides setup module) (h' : other.Decides setup module) (rule : LogRule) :
    listing.Governs module rule ↔ other.Governs module rule := by
  obtain ⟨found, hfound⟩ := listing.exists_governs module
  obtain ⟨found', hfound'⟩ := other.exists_governs module
  have hsame : found = found' := by
    refine LogRule.eq_of_allows fun level => Bool.eq_iff_iff.mpr ?_
    rw [← hfound.allows_iff, ← hfound'.allows_iff]
    rcases h (.named level) "" with ⟨hwrite, hallows⟩ | ⟨hwrite, hallows⟩ <;>
      rcases h' (.named level) "" with ⟨hwrite', hallows'⟩ | ⟨hwrite', hallows'⟩
    · exact iff_of_true hallows hallows'
    · exact absurd (hwrite.symm.trans hwrite') (List.cons_ne_nil _ _)
    · exact absurd (hwrite'.symm.trans hwrite) (List.cons_ne_nil _ _)
    · exact iff_of_false hallows hallows'
  subst hsame
  constructor
  · exact fun hrule => hrule.unique hfound ▸ hfound'
  · exact fun hrule => hrule.unique hfound' ▸ hfound

/-- A sink goes by the rules of the text, found under the modules in lower case. So it goes by the text as it is
written exactly when the module has the same rule under the names as they are written, and always when these are in
lower case. -/
theorem listing_decides_iff {text : String} (h : parse text = .ok filter) (setup : LogSetup) (module : String) :
    (listingAs (Text.lower text) text).Decides (setup.install filter) module ∧
      ((listing text).Decides (setup.install filter) module ↔
        ∀ rule, (listing text).Governs module rule ↔
          (listingAs (Text.lower text) text).Governs module rule) ∧
      ((∀ name ∈ modulesOf (pieces text), Text.lower name = name) →
        (listing text).Decides (setup.install filter) module) := by
  have hdecides := Listing.decides_install (found_of_parse h) setup module
  refine ⟨hdecides, ⟨fun hlisting => hlisting.governs_iff hdecides, fun halike => ?_⟩, fun hlower => ?_⟩
  · have hallows : ∀ number, (listing text).Allows module number ↔
        (listingAs (Text.lower text) text).Allows module number := fun number =>
      exists_congr fun rule => and_congr_left' (halike rule)
    intro severity message
    rw [hallows]
    exact hdecides severity message
  · rwa [← listingAs_lower_of_lower hlower]

namespace Capital

/-! A module is silenced after it was given a level, and one below it is not; then a module whose name has a
capital letter. -/

def silencing : String :=
  "Warning, app = Info,app.db=DEBUG,,app=False"

def silencingFilter : LogFilter where
  levelText := "warning"
  rules := [("app", .silent), ("app.db", .atLeast .debug), ("", .atLeast .warning)]

theorem parse_silencing : parse silencing = .ok silencingFilter := by
  decide +kernel

theorem listing_decides_silencing :
    parse silencing = .ok silencingFilter ∧
      (listing silencing).Decides (LogSetup.initial.install silencingFilter) "app.db.pool" :=
  ⟨parse_silencing,
    (listing_decides_iff parse_silencing LogSetup.initial "app.db.pool").2.2 (by decide +kernel)⟩

def capital : String :=
  "info,Foo=debug"

/-- The rule of the module is kept under another name, so its records are held back though the text allows them. -/
theorem not_decides_capital :
    ∃ filter, parse capital = .ok filter ∧ (listing capital).Allows "Foo" LogLevel.debug.number ∧
      (LogSetup.initial.install filter).write ⟨.named .debug, "Foo", "hi"⟩ = [] ∧
      ¬ (listing capital).Decides (LogSetup.initial.install filter) "Foo" := by
  have hentries : (listing capital).entries = [("Foo", .atLeast .debug)] := by
    decide +kernel
  have hgoverns : (listing capital).Governs "Foo" (.atLeast .debug) := by
    refine Or.inl ⟨"Foo", ⟨Or.inl rfl, ?_, ?_⟩, ?_⟩
    · simp [hentries]
    · simp [hentries]
    · simp [Listing.rule?, hentries]
  have hallows : (listing capital).Allows "Foo" LogLevel.debug.number := ⟨_, hgoverns, rfl⟩
  have hwrite : (LogSetup.initial.install
      ⟨"info", [("foo", .atLeast .debug), ("", .atLeast .info)]⟩).write ⟨.named .debug, "Foo", "hi"⟩ = [] := by
    decide +kernel
  refine ⟨_, by decide +kernel, hallows, hwrite, fun hdecides => ?_⟩
  rcases hdecides (.named .debug) "hi" with ⟨hwritten, -⟩ | ⟨-, hnot⟩
  · exact absurd (hwritten.symm.trans hwrite) (List.cons_ne_nil _ _)
  · exact hnot hallows

end Capital

end Writing

end LogFilter

end BuilderFields
