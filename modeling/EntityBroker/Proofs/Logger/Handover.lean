import EntityBroker.Proofs.Logger.Chain

/-!
# What a filter hands on

A filter hands messages to the logger below it, which may be interested in other severities from one
moment to the next. `unwanted_handovers`: whatever happens, the one message that such a logger gets
without being interested in it is the report of a new filter whose text cannot be read, handed over
without asking. So a logger that refuses errors is told of a bad text all the same:
`report_handed_unwanted`.
-/

namespace EntityBroker.FilterChain

/-- A message handed to the logger below the innermost filter, and how that logger is then. -/
structure Handover where
  below : Logger
  record : LogRecord

/-- Whether the logger below is interested in what it is handed. -/
def Handover.wanted (h : Handover) : Bool := h.below.isLogged h.record.severity

/-- What the logger below makes of it. -/
def Handover.brings (h : Handover) : List LogRecord :=
  h.below.log h.record.severity h.record.message

/-- What the innermost filter hands on in a run, whose steps come each with the logger below as it
is at the time. A base that keeps all it is given, and is interested in the same, shows it. -/
def handovers (thresholds : List Severity) : List (Logger × Step) → List Handover
  | [] => []
  | (below, s) :: rest =>
    let chain : FilterChain := ⟨.recording below.isLogged, thresholds⟩
    (chain.step s).2.map (Handover.mk below) ++ handovers (chain.step s).1.thresholds rest

/-- What a run brings to the log, over the loggers themselves. -/
def brought (thresholds : List Severity) : List (Logger × Step) → List LogRecord
  | [] => []
  | (below, s) :: rest =>
    let chain : FilterChain := ⟨below, thresholds⟩
    (chain.step s).2 ++ brought (chain.step s).1.thresholds rest

-- ---------------------------------------------------------------- handing on is all there is

section
variable (below : Logger) (thresholds : List Severity)

theorem log_eq_flatMap {n : Nat} (hn : n ≤ thresholds.length) (severity : Severity)
    (message : String) :
    (FilterChain.logger ⟨below, thresholds⟩ n).log severity message =
      ((FilterChain.logger ⟨.recording below.isLogged, thresholds⟩ n).log severity message).flatMap
        fun r => below.log r.severity r.message := by
  cases n with
  | zero => simp [logger, Logger.recording]
  | succ n =>
    -- a filter asks the loggers below only what they are interested in, and there the two agree
    have hsame : (FilterChain.logger ⟨below, thresholds⟩ (n + 1)).isLogged severity =
        (FilterChain.logger ⟨.recording below.isLogged, thresholds⟩ (n + 1)).isLogged severity := by
      rw [Bool.eq_iff_iff, isLogged_logger hn, isLogged_logger hn]
      rfl
    rw [log_logger_succ hn, log_logger_succ hn, hsame]
    split <;> simp [Logger.recording]

theorem step_eq_flatMap (s : Step) :
    (FilterChain.step ⟨below, thresholds⟩ s).2 =
      (FilterChain.step ⟨.recording below.isLogged, thresholds⟩ s).2.flatMap
        fun r => below.log r.severity r.message := by
  cases s with
  | wrap text =>
    simp only [step, wrap]
    cases thresholdReport? text with
    | none => rfl
    | some report => exact log_eq_flatMap below thresholds (Nat.le_refl _) .error report
  | setThreshold filter threshold => rfl
  | log filter severity message =>
    simp only [step]
    split
    · rename_i hfilter
      exact log_eq_flatMap below thresholds hfilter severity message
    · rfl

theorem thresholds_step (other : Logger) (s : Step) :
    (FilterChain.step ⟨below, thresholds⟩ s).1.thresholds =
      (FilterChain.step ⟨other, thresholds⟩ s).1.thresholds := by
  cases s <;> rfl

end

theorem brought_eq (thresholds : List Severity) (run : List (Logger × Step)) :
    brought thresholds run = (handovers thresholds run).flatMap Handover.brings := by
  induction run generalizing thresholds with
  | nil => rfl
  | cons moment rest ih =>
    obtain ⟨below, s⟩ := moment
    rw [brought, handovers, ih, step_eq_flatMap, List.flatMap_append, List.flatMap_map,
      thresholds_step below thresholds (.recording below.isLogged)]
    rfl

-- ---------------------------------------------------------------- what is wanted

section
variable {isLogged : Severity → Bool} {thresholds : List Severity}

theorem wanted_of_log {n : Nat} (hn : n < thresholds.length) {severity : Severity}
    {message : String} {r : LogRecord}
    (h : r ∈ (FilterChain.logger ⟨.recording isLogged, thresholds⟩ (n + 1)).log severity message) :
    isLogged r.severity = true := by
  rw [log_logger_succ hn] at h
  split at h
  · rename_i hlogged
    rw [List.mem_singleton.mp h]
    exact ((isLogged_logger hn severity).mp hlogged).2
  · cases h

/-- Where there are filters, a step hands on only what the logger below is interested in. -/
theorem wanted_of_step (hne : thresholds ≠ []) {s : Step} {r : LogRecord}
    (h : r ∈ (FilterChain.step ⟨.recording isLogged, thresholds⟩ s).2) :
    isLogged r.severity = true := by
  cases s with
  | wrap text =>
    simp only [step, wrap] at h
    cases hreport : thresholdReport? text with
    | none =>
      rw [hreport] at h
      cases h
    | some report =>
      rw [hreport] at h
      obtain ⟨n, hn⟩ := Nat.exists_eq_succ_of_ne_zero (mt List.length_eq_zero_iff.mp hne)
      have hlast :
          r ∈ (FilterChain.logger ⟨.recording isLogged, thresholds⟩ (n + 1)).log .error report := by
        rw [← Nat.succ_eq_add_one, ← hn]
        exact h
      exact wanted_of_log (by omega) hlast
  | setThreshold filter threshold => cases h
  | log filter severity message =>
    simp only [step] at h
    split at h
    · rename_i hfilter
      exact wanted_of_log hfilter h
    · cases h

theorem thresholds_step_ne_nil (base : Logger) (hne : thresholds ≠ []) (s : Step) :
    (FilterChain.step ⟨base, thresholds⟩ s).1.thresholds ≠ [] := by
  cases s with
  | wrap text => simp [step, wrap]
  | setThreshold filter threshold => simpa [step, setThreshold] using hne
  | log filter severity message => exact hne

theorem wanted_of_handovers (hne : thresholds ≠ []) {run : List (Logger × Step)} {h : Handover}
    (hmem : h ∈ handovers thresholds run) : h.wanted = true := by
  induction run generalizing thresholds with
  | nil => cases hmem
  | cons moment rest ih =>
    obtain ⟨below, s⟩ := moment
    rcases List.mem_append.mp hmem with hnew | hlater
    · obtain ⟨r, hr, rfl⟩ := List.mem_map.mp hnew
      exact wanted_of_step hne hr
    · exact ih (thresholds_step_ne_nil _ hne s) hlater

end

theorem severity_of_mem_reports {text : Option String} {r : LogRecord} (h : r ∈ reports text) :
    r.severity = .error := by
  rw [reports_eq] at h
  obtain ⟨message, -, rfl⟩ := List.mem_map.mp h
  rfl

/-- The first filter hands its report to the logger that it wraps, whatever that is interested in.
-/
theorem records_first_wrap (isLogged : Severity → Bool) (text : Option String) :
    ((unfiltered isLogged).wrap text).2 = reports text :=
  (Follows.start isLogged).wrap_heard text (.inl rfl)

theorem handovers_wrap (below : Logger) (text : Option String) (later : List (Logger × Step)) :
    handovers [] ((below, .wrap text) :: later) =
      (reports text).map (Handover.mk below) ++ handovers [thresholdOf text] later := by
  rw [← records_first_wrap below.isLogged text]
  rfl

theorem wanted_of_reports {below : Logger} {text : Option String} {h : Handover}
    (hmem : h ∈ (reports text).map (Handover.mk below)) : h.wanted = below.isLogged .error := by
  obtain ⟨r, hr, rfl⟩ := List.mem_map.mp hmem
  rw [Handover.wanted, severity_of_mem_reports hr]

/-- Over any logger, which may change at any moment, a filter hands on what the logger is interested
in, with one exception: the report of its own text, if that cannot be read, goes to a logger that is
not interested in errors too. It is the only such message of a run, and handing on is all that a run
does with the logger. -/
theorem unwanted_handovers (below : Logger) (text : Option String) (later : List (Logger × Step)) :
    let run := (below, .wrap text) :: later
    brought [] run = (handovers [] run).flatMap Handover.brings ∧
      (handovers [] run).filter (fun h => !h.wanted) =
        if below.isLogged .error then [] else (reports text).map (Handover.mk below) := by
  intro run
  refine ⟨brought_eq [] run, ?_⟩
  have hlater : (handovers [thresholdOf text] later).filter (fun h => !h.wanted) = [] :=
    List.filter_eq_nil_iff.mpr fun h hmem => by
      simp [wanted_of_handovers (List.cons_ne_nil _ _) hmem]
  rw [handovers_wrap, List.filter_append, hlater, List.append_nil]
  cases herror : below.isLogged .error with
  | true =>
    exact List.filter_eq_nil_iff.mpr fun h hmem => by simp [wanted_of_reports hmem, herror]
  | false =>
    exact List.filter_eq_self.mpr fun h hmem => by simp [wanted_of_reports hmem, herror]

/-- A logger that is interested in critical messages only is handed the report of a bad text. -/
theorem report_handed_unwanted :
    let below := Logger.recording fun severity => severity.reaches .critical
    let handed := handovers [] [(below, .wrap (some "loud"))]
    handed.map Handover.record = [⟨.error,
        "SeverityFilter: Invalid ASSETIO_LOGGING_SEVERITY value 'loud' - ignoring."⟩] ∧
      ¬ ∀ h ∈ handed, h.wanted = true := by
  intro below handed
  have hhanded : handed = [⟨below, .error,
      "SeverityFilter: Invalid ASSETIO_LOGGING_SEVERITY value 'loud' - ignoring."⟩] := rfl
  rw [hhanded]
  exact ⟨rfl, fun hwanted => by cases hwanted _ (List.mem_singleton_self _)⟩

end EntityBroker.FilterChain
