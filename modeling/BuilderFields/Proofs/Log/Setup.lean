import BuilderFields.Proofs.Log.Filter

/-!
# Logging over a run

A call changes the set-up only if it configures a filter that can be read, and then sink and interceptor are one each,
whatever was there before. So after a run the set-up is that of the last such filter, and every later log call is
written once if this filter keeps it: a message is filled in where it is logged and is not looked at again when the
interceptor hands it on.
-/

namespace BuilderFields

namespace LogCall

/-- The filter that a call installs, none if it does not configure or its text cannot be read. -/
def filter? : LogCall → Option LogFilter
  | configure text => (LogFilter.parse text).toOption
  | direct .. => none
  | standard .. => none

def record? : LogCall → Option (Except LogError LogRecord)
  | configure _ => none
  | direct module level message arguments =>
    some <| match LogLevel.ofName? level with
      | none => .error (.noSuchLevel level)
      | some level =>
        match Template.braces message arguments with
        | .error fault => .error (.template fault)
        | .ok text => .ok ⟨.named level, module, text⟩
  | standard module level message arguments =>
    some <| match Template.percents message arguments with
      | .error fault => .error (.template fault)
      | .ok text => .ok ⟨LogSetup.standardSeverity level, module, text⟩

/-- Standard loggers are not open for the call, whose message is not even looked at. -/
def Shut : LogCall → Prop
  | standard _ level _ _ => level < LogSetup.standardThreshold
  | _ => False

instance : DecidablePred Shut := fun call =>
  match call with
  | configure _ => inferInstanceAs (Decidable False)
  | direct .. => inferInstanceAs (Decidable False)
  | standard _ level _ _ => inferInstanceAs (Decidable (level < LogSetup.standardThreshold))

end LogCall

namespace LogFilter

/-- A filter that is read keeps nothing below the level of the sink. -/
theorem sinkLevel_le_of_keeps {text module : String} {filter : LogFilter} {number : Int}
    (hparse : parse text = .ok filter) (hkeeps : filter.keeps module number = true) :
    LogSetup.sinkLevel.number ≤ number := by
  obtain ⟨rule, -, hallows⟩ := (Listing.keeps_iff (found_of_parse hparse)).mp hkeeps
  exact LogRule.trace_number_le_of_allows hallows

end LogFilter

namespace LogSetup

theorem standardSeverity_number (level : Int) : (standardSeverity level).number = level := by
  unfold standardSeverity
  split
  · rename_i known hfind
    simpa [Severity.number] using List.find?_some hfind
  · rfl

def only (filter : LogFilter) : LogSetup where
  sinks := [filter]
  interceptors := 1

def after (setup : LogSetup) (calls : List LogCall) : LogSetup :=
  calls.foldl (fun setup call => (setup.perform call).1) setup

def lastFilter? (calls : List LogCall) : Option LogFilter :=
  (calls.filterMap LogCall.filter?).getLast?

variable {setup : LogSetup} {filter : LogFilter} {call : LogCall}

theorem perform_configure_of_error {text : String} {error : UnknownLevel}
    (h : LogFilter.parse text = .error error) :
    setup.perform (.configure text) = (setup, [], some (.unknownLevel error)) := by
  rw [perform, h]

theorem perform_configure_of_ok {text : String} (h : LogFilter.parse text = .ok filter) :
    setup.perform (.configure text) =
      (setup.install filter, (setup.install filter).write (announcement filter), none) := by
  rw [perform, h]

/-- Only a filter that can be read changes the set-up. -/
theorem state_perform (setup : LogSetup) (call : LogCall) :
    (setup.perform call).1 = (call.filter?.map setup.install).getD setup := by
  cases call with
  | configure text =>
      cases hparse : LogFilter.parse text with
      | error error => rw [perform_configure_of_error hparse, LogCall.filter?, hparse]; rfl
      | ok filter => rw [perform_configure_of_ok hparse, LogCall.filter?, hparse]; rfl
  | direct module level message arguments =>
      rw [perform]
      split
      · rfl
      · split <;> rfl
  | standard module level message arguments =>
      rw [perform]
      split
      · rfl
      · split <;> rfl

/-- After installing there is one sink and one interceptor, whatever filter was there before. -/
theorem install_eq_only (h : setup.interceptors ≤ 1) (filter : LogFilter) : setup.install filter = only filter := by
  rw [install, intercept, only]
  split
  · rfl
  · rename_i hinterceptors
    have hone : setup.interceptors = 1 := Nat.le_antisymm h (Nat.one_le_iff_ne_zero.mpr hinterceptors)
    exact congrArg (LogSetup.mk [filter]) hone

/-- What one call does to a set-up with at most one interceptor. -/
theorem state_perform_eq (h : setup.interceptors ≤ 1) (call : LogCall) :
    (setup.perform call).1 = (call.filter?.map only).getD setup := by
  rw [state_perform]
  cases call.filter? with
  | none => rfl
  | some filter => exact install_eq_only h filter

/-- What a run leaves is the set-up with the last filter that could be read. -/
theorem after_eq (h : setup.interceptors ≤ 1) (calls : List LogCall) :
    setup.after calls = ((lastFilter? calls).map only).getD setup := by
  induction calls generalizing setup with
  | nil => rfl
  | cons call calls ih =>
      have hstep := state_perform_eq h call
      rw [after, List.foldl_cons, hstep]
      cases hfilter : call.filter? with
      | none =>
          rw [lastFilter?, List.filterMap_cons_none hfilter]
          exact ih h
      | some filter =>
          have hrest : (only filter).after calls = ((lastFilter? calls).map only).getD (only filter) :=
            ih (Nat.le_refl 1)
          rw [lastFilter?, List.filterMap_cons_some hfilter, List.getLast?_cons]
          refine hrest.trans ?_
          rw [lastFilter?]
          cases (calls.filterMap LogCall.filter?).getLast? <;> rfl

theorem exists_parse_of_lastFilter? {calls : List LogCall} (h : lastFilter? calls = some filter) :
    ∃ text, LogFilter.parse text = .ok filter := by
  obtain ⟨call, -, hfilter⟩ := List.mem_filterMap.mp (List.mem_of_getLast? h)
  cases call with
  | configure text =>
      refine ⟨text, ?_⟩
      rw [LogCall.filter?] at hfilter
      cases hparse : LogFilter.parse text with
      | error error => simp [hparse, Except.toOption] at hfilter
      | ok found =>
          obtain rfl : found = filter := by simpa [hparse, Except.toOption] using hfilter
          rfl
  | direct => cases hfilter
  | standard => cases hfilter

/-! ### With one filter -/

section Only

variable {text : String}

/-- An installed set-up writes exactly what its filter keeps. -/
theorem write_only (hparse : LogFilter.parse text = .ok filter) (record : LogRecord) :
    (only filter).write record =
      if filter.keeps record.module record.severity.number then [record] else [] := by
  have hinitial : initial.interceptors ≤ 1 := Nat.zero_le 1
  rw [← install_eq_only hinitial, LogFilter.write_install]
  refine if_congr ?_ rfl rfl
  exact and_iff_right_of_imp fun hkeeps => LogFilter.sinkLevel_le_of_keeps hparse hkeeps

/-- A call is written once or not at all. -/
theorem perform_only_of_record (hparse : LogFilter.parse text = .ok filter) {record : LogRecord}
    (h : call.record? = some (.ok record)) :
    (only filter).perform call =
      (only filter, if filter.keeps record.module record.severity.number then [record] else [], none) := by
  rw [← write_only hparse]
  cases call with
  | configure text => cases h
  | direct module level message arguments =>
      rw [LogCall.record?] at h
      cases hlevel : LogLevel.ofName? level with
      | none => simp [hlevel] at h
      | some found =>
          cases hfilled : Template.braces message arguments with
          | error fault => simp [hlevel, hfilled] at h
          | ok filled =>
              obtain rfl : _ = record := by simpa [hlevel, hfilled] using h
              simp [perform, log, only, hlevel, hfilled]
  | standard module level message arguments =>
      rw [LogCall.record?] at h
      cases hfilled : Template.percents message arguments with
      | error fault => simp [hfilled] at h
      | ok filled =>
          obtain rfl : _ = record := by simpa [hfilled] using h
          by_cases hshut : level < standardThreshold
          · have hbelow : ¬ sinkLevel.number ≤ level := by
              have hthreshold : standardThreshold ≤ sinkLevel.number := by decide
              exact Int.not_le.mpr (Int.lt_of_lt_of_le hshut hthreshold)
            have hkept : ¬ filter.keeps module level = true := fun hkeeps =>
              hbelow (LogFilter.sinkLevel_le_of_keeps hparse hkeeps)
            rw [write_only hparse, standardSeverity_number, if_neg hkept, perform, if_pos (Or.inl hshut)]
          · simp [perform, forward, log, only, hshut, hfilled, Template.braces]

theorem perform_only_of_error {error : LogError} (h : call.record? = some (.error error)) :
    (only filter).perform call = (only filter, [], if call.Shut then none else some error) := by
  cases call with
  | configure text => cases h
  | direct module level message arguments =>
      have hopen : ¬ (LogCall.direct module level message arguments).Shut := id
      rw [LogCall.record?] at h
      rw [if_neg hopen]
      cases hlevel : LogLevel.ofName? level with
      | none =>
          obtain rfl : _ = error := by simpa [hlevel] using h
          simp [perform, only, hlevel]
      | some found =>
          cases hfilled : Template.braces message arguments with
          | error fault =>
              obtain rfl : _ = error := by simpa [hlevel, hfilled] using h
              simp [perform, log, only, hlevel, hfilled]
          | ok filled => simp [hlevel, hfilled] at h
  | standard module level message arguments =>
      rw [LogCall.record?] at h
      cases hfilled : Template.percents message arguments with
      | error fault =>
          obtain rfl : _ = error := by simpa [hfilled] using h
          by_cases hshut : (LogCall.standard module level message arguments).Shut
          · have hlevel : level < standardThreshold := hshut
            rw [if_pos hshut, perform, if_pos (Or.inl hlevel)]
          · have hlevel : ¬ level < standardThreshold := hshut
            rw [if_neg hshut]
            simp [perform, only, hlevel, hfilled]
      | ok filled => simp [hfilled] at h

end Only

example :
    let setup := initial.after [.configure "info", .configure "info,app=loud", .configure "warning,app=debug"]
    setup.perform (.standard "app" 10 "100% of {}" []) =
      (setup, [⟨.named .debug, "app", "100% of {}"⟩], none) := by
  decide +kernel

end LogSetup

end BuilderFields
