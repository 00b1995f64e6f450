import BuilderFields.CommandLine
import BuilderFields.Proofs.Json.Writing
import BuilderFields.Proofs.Plan.Document
import BuilderFields.Proofs.Request.Failing
import BuilderFields.Proofs.Text.Utf8
import BuilderFields.Proofs.TypeExpr.Legible

/-!
# Planning a request file

A method that cannot be planned leaves no trace in the output: what is printed is what would be printed for the document
without the methods that fail. The exit status tells whether there were any, or whether the strict setting minds a type
that the document of the plans has as null.
-/

namespace BuilderFields

namespace CommandLine

/-! ### Planning one method after the other -/

def plansOf (methods : List MethodRequest) : List MethodPlan :=
  methods.filterMap fun method => method.plan.outcome.toOption

theorem plans_planMethods (methods : List MethodRequest) :
    (planMethods methods).plans = plansOf methods := by
  unfold plansOf
  induction methods with
  | nil => rfl
  | cons method rest ih =>
      cases hplan : method.plan.outcome <;> simp [planMethods, hplan, Except.toOption, ih]

theorem plansOf_filter (methods : List MethodRequest) :
    plansOf (methods.filter fun method => method.plan.outcome.isOk) = plansOf methods := by
  unfold plansOf
  rw [List.filterMap_filter]
  refine List.filterMap_congr fun method _ => ?_
  cases method.plan.outcome <;> simp [Except.isOk, Except.toBool, Except.toOption]

/-- There are errors exactly if some method fails. -/
theorem length_errors_planMethods_pos_iff {methods : List MethodRequest} :
    0 < (planMethods methods).errors.length ↔ ∃ method ∈ methods, method.Fails := by
  induction methods with
  | nil => simp [planMethods]
  | cons method rest ih =>
      cases hplan : method.plan.outcome <;> simp [planMethods, hplan, MethodRequest.Fails, ih]

/-- The exit status is one after a failure, and under strict settings also for an indeterminate plan. -/
theorem exitStatus_eq_one_iff {plans : List MethodPlan} {failures : Nat} {settings : Settings} :
    exitStatus plans failures settings = 1 ↔
      0 < failures ∨ settings.strict = true ∧ ∃ plan ∈ plans, plan.indeterminate ≠ [] := by
  unfold exitStatus
  split_ifs with hfailures hstrict <;> simp_all

theorem exitStatus_eq_zero_or_one (plans : List MethodPlan) (failures : Nat) (settings : Settings) :
    exitStatus plans failures settings = 0 ∨ exitStatus plans failures settings = 1 := by
  unfold exitStatus
  split_ifs <;> simp

/-! ### The command -/

/-- The arguments ask for the plans of a request file, which holds this document, and the settings load. -/
def PlansDocument (surroundings : Surroundings) (args : List String) (asJson : Bool)
    (settings : Settings) (json : Json) : Prop :=
  ∃ path options notices bytes text,
    Invocation.parse args = .ok (.plan path asJson options) ∧
    loadSettings surroundings options = .ok (settings, notices) ∧
    surroundings.look (displayPath path) = .file bytes ∧
    decodeText bytes = .ok text ∧ Json.parse text = .ok json

section Command

variable {surroundings : Surroundings} {args : List String} {asJson : Bool} {settings : Settings}
  {filter : LogFilter} {json : Json} {request : Request}

theorem readRequest_eq_ok {bytes : List UInt8} {text : String} (htext : decodeText bytes = .ok text)
    (hjson : Json.parse text = .ok json) (h : Request.ofJson json = .ok request) :
    readRequest bytes = .ok request := by
  have hparse : Request.parse text = .ok request :=
    bind_eq_ok_iff.mpr ⟨json, mapError_eq_ok_iff.mpr hjson, h⟩
  exact bind_eq_ok_iff.mpr ⟨text, mapError_eq_ok_iff.mpr htext, mapError_eq_ok_iff.mpr hparse⟩

theorem withSettings_eq_ok {options : SettingOptions} {notices : List String}
    (command : Settings → CommandReport)
    (hsettings : loadSettings surroundings options = .ok (settings, notices))
    (hfilter : LogFilter.parse settings.logFilter = .ok filter) :
    withSettings surroundings options command = .ok { command settings with
      records := (LogSetup.initial.install filter).write (LogSetup.announcement filter) ++
        (LogSetup.initial.install filter).writeAll (command settings).records
      notices := notices } := by
  have hperform : LogSetup.initial.perform (.configure settings.logFilter) =
      (LogSetup.initial.install filter,
        (LogSetup.initial.install filter).write (LogSetup.announcement filter), none) := by
    simp only [LogSetup.perform, hfilter]
  refine bind_eq_ok_iff.mpr ⟨_, hsettings, ?_⟩
  dsimp only
  rw [hperform]

/-- A request that is read and planned under valid settings is reported on. -/
theorem exists_report {surroundings : Surroundings} {args : List String}
    (h : PlansDocument surroundings args asJson settings json)
    (hfilter : LogFilter.parse settings.logFilter = .ok filter)
    (hrequest : Request.ofJson json = .ok request) :
    ∃ report, run surroundings args = .ok report ∧
      report.exit = exitStatus (plansOf request.methods) (planMethods request.methods).errors.length
        settings ∧
      report.output = (planOutput asJson settings (plansOf request.methods)).map Text.plainText := by
  obtain ⟨path, options, notices, bytes, text, hparse, hsettings, hfile, htext, hjson⟩ := h
  have hreport := withSettings_eq_ok
    (fun settings => planReport settings path bytes asJson) hsettings hfilter
  have hread := readRequest_eq_ok htext hjson hrequest
  have hinvocation : runInvocation surroundings (.plan path asJson options) =
      withSettings surroundings options fun settings => planReport settings path bytes asJson := by
    simp only [runInvocation, hfile]
  refine ⟨_, bind_eq_ok_iff.mpr ⟨_, mapError_eq_ok_iff.mpr hparse,
    bind_eq_ok_iff.mpr ⟨_, hinvocation.trans hreport, rfl⟩⟩, ?_, ?_⟩
  · simp only [printable, planReport, hread, plans_planMethods]
  · simp only [printable, planReport, hread, plans_planMethods]

end Command

/-! ### A request for `open`, whose parameter is of an unsupported type, and `close` -/

namespace OpenClose

def opening : Json :=
  .object [("name", .text "open"), ("parameters", .array [
    .object [("name", .text "any"), ("type", .text "?"), ("style", .text "StringAppending")]])]

def closing : Json :=
  .object [("name", .text "close")]

def document : Json :=
  .object [("methods", .array [opening, closing])]

def remaining : Json :=
  .object [("methods", .array [closing])]

def infos : List FieldInfo :=
  [⟨⟨"any", .wildcard .upper⟩, some FieldStyle.stringAppending⟩]

def methods : List MethodRequest :=
  [⟨"open", infos.map FieldInfo.parameter, Request.chosenStyles infos⟩, ⟨"close", [], []⟩]

def request : Request where
  styles := FieldStyle.builtinTable
  methods := methods

def holding (json : Json) : Surroundings where
  environment := []
  look path :=
    if path = "request.json" then .file (Text.asciiBytes (Json.write none json).toList) else .missing

def arguments : List String :=
  ["plan", "request.json", "--json", "--strict"]

def settings : Settings :=
  { Settings.defaults with strict := true }

theorem parse_wildcard : TypeExpr.parse "?" [] = .ok (.wildcard .upper) :=
  TypeExpr.parse_eq_ok_iff.mpr (by decide +kernel)

theorem ofJson_document : Request.ofJson document = .ok request := by
  have hopening : Request.MethodEntry (Request.tableMeaning FieldStyle.builtinTable) opening "open" infos :=
    ⟨_, [], _, rfl, rfl, rfl, rfl, .cons ⟨_, _, rfl, rfl, rfl, parse_wildcard, .named rfl rfl⟩ .nil⟩
  have hclosing : Request.MethodEntry (Request.tableMeaning FieldStyle.builtinTable) closing "close" [] :=
    ⟨_, [], _, rfl, rfl, rfl, rfl, .nil⟩
  exact Request.ofJson_eq_ok_iff.mpr ⟨[], [opening, closing], ⟨_, rfl, rfl, rfl⟩, rfl,
    .cons ⟨infos, hopening, rfl, rfl⟩ (.cons ⟨[], hclosing, rfl, rfl⟩ .nil)⟩

theorem isOk_outcomes :
    (methods.map fun method => method.plan.outcome.isOk) = [false, true] := by
  decide +kernel

theorem withoutFailing_document : Request.withoutFailing request.methods document = remaining := by
  have houtcomes := isOk_outcomes
  simp only [methods, List.map_cons, List.map_nil, List.cons.injEq] at houtcomes
  simp [Request.withoutFailing, Request.plannable, document, remaining, request, methods, houtcomes]

theorem plansDocument_holding {json : Json} (h : json.Plain) :
    PlansDocument (holding json) arguments true settings json := by
  have hsafe := h.isSafe_write none
  exact ⟨"request.json", ⟨none, true⟩, [], _, Json.write none json, rfl, rfl, rfl,
    decodeText_asciiBytes (fun c hc => (hsafe c hc).1) (fun hc => (hsafe _ hc).2 rfl),
    Json.parse_write h none⟩

theorem exists_fails : ∃ method ∈ request.methods, method.Fails :=
  ⟨_, List.mem_cons_self, MethodRequest.fails_iff.mpr (List.cons.inj isOk_outcomes).1⟩

end OpenClose

end CommandLine

end BuilderFields
