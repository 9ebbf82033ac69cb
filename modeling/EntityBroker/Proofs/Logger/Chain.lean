import Mathlib.Data.List.Induction
import EntityBroker.Logger

/-!
# Runs of a chain of filters

A run builds filters on top of one another, changes their thresholds and logs with any of them, in
any order. `account_of_run`: what reaches the base follows from the history of the run alone. A
message gets there once and unchanged if it is at or above the current threshold of every filter
from its own inwards and of interest to the base, else not at all; a filter with an unreadable text
sends one report the same way, starting below itself; and all that gets there does so in the order
of the run.
-/

namespace EntityBroker.FilterChain

/-- What happens to a chain, whose filters are counted from the innermost. -/
inductive Step where
  /-- One more filter is put on top, its threshold taken from the text of the variable. -/
  | wrap (text : Option String)
  | setThreshold (filter : Nat) (threshold : Severity)
  | log (filter : Nat) (severity : Severity) (message : String)

/-- The chain after a step, and what the step adds to the log at the base. A filter that is not
there logs nothing. -/
def step (chain : FilterChain) : Step → FilterChain × List LogRecord
  | .wrap text => chain.wrap text
  | .setThreshold filter threshold => (chain.setThreshold filter threshold, [])
  | .log filter severity message =>
    (chain, if filter < chain.thresholds.length
      then (chain.logger (filter + 1)).log severity message else [])

def after (chain : FilterChain) (steps : List Step) : FilterChain :=
  steps.foldl (fun chain s => (chain.step s).1) chain

def records (chain : FilterChain) : List Step → List LogRecord
  | [] => []
  | s :: rest => (chain.step s).2 ++ (chain.step s).1.records rest

/-- A base logger without filters. It keeps all that it is given. -/
def unfiltered (isLogged : Severity → Bool) : FilterChain := ⟨.recording isLogged, []⟩

-- ---------------------------------------------------------------- the history of a run

def thresholdTexts : List (String × Severity) :=
  [("0", .debugApi), ("1", .debug), ("2", .info), ("3", .progress), ("4", .warning), ("5", .error),
    ("6", .critical)]

/-- The threshold of a new filter. -/
def askedFor (text : Option String) : Severity :=
  (text.bind fun raw => thresholdTexts.lookup raw).getD .warning

/-- What a new filter reports to the logger that it wraps. -/
def reports : Option String → List LogRecord
  | none => []
  | some raw =>
    if (thresholdTexts.lookup raw).isSome then []
    else [⟨.error, s!"SeverityFilter: Invalid ASSETIO_LOGGING_SEVERITY value '{raw}' - ignoring."⟩]

def Step.builds : Step → Bool
  | .wrap _ => true
  | _ => false

def built (steps : List Step) : Nat := steps.countP Step.builds

/-- The thresholds that filters were given, in order, each with its filter. The first filter that
the steps build has the number `count`. -/
def given (count : Nat) : List Step → List (Nat × Severity)
  | [] => []
  | .wrap text :: rest => (count, askedFor text) :: given (count + 1) rest
  | .setThreshold filter threshold :: rest => (filter, threshold) :: given count rest
  | .log .. :: rest => given count rest

def currentThreshold (steps : List Step) (filter : Nat) : Severity :=
  (((given 0 steps).filter fun g => g.1 = filter).getLast?.map Prod.snd).getD .warning

/-- A message of this severity gets through the `n` innermost filters and is of interest to the
base. -/
def Passes (isLogged : Severity → Bool) (steps : List Step) (n : Nat) (severity : Severity) :
    Prop :=
  (∀ filter < n, (currentThreshold steps filter).ordinal ≤ severity.ordinal) ∧
    isLogged severity = true

/-- What a run brings to the base of a chain, step by step. -/
inductive Account (isLogged : Severity → Bool) : List Step → List LogRecord → Prop
  | start : Account isLogged [] []
  | heard {steps : List Step} {records : List LogRecord} (h : Account isLogged steps records)
      (text : Option String)
      (hpass : built steps = 0 ∨ Passes isLogged steps (built steps) .error) :
      Account isLogged (steps ++ [.wrap text]) (records ++ reports text)
  | unheard {steps : List Step} {records : List LogRecord} (h : Account isLogged steps records)
      (text : Option String) (hbuilt : built steps ≠ 0)
      (hstop : ¬ Passes isLogged steps (built steps) .error) :
      Account isLogged (steps ++ [.wrap text]) records
  | set {steps : List Step} {records : List LogRecord} (h : Account isLogged steps records)
      (filter : Nat) (threshold : Severity) :
      Account isLogged (steps ++ [.setThreshold filter threshold]) records
  | passed {steps : List Step} {records : List LogRecord} (h : Account isLogged steps records)
      (filter : Nat) (severity : Severity) (message : String) (hfilter : filter < built steps)
      (hpass : Passes isLogged steps (filter + 1) severity) :
      Account isLogged (steps ++ [.log filter severity message]) (records ++ [⟨severity, message⟩])
  | stopped {steps : List Step} {records : List LogRecord} (h : Account isLogged steps records)
      (filter : Nat) (severity : Severity) (message : String) (hfilter : filter < built steps)
      (hstop : ¬ Passes isLogged steps (filter + 1) severity) :
      Account isLogged (steps ++ [.log filter severity message]) records
  | missing {steps : List Step} {records : List LogRecord} (h : Account isLogged steps records)
      (filter : Nat) (severity : Severity) (message : String) (hfilter : built steps ≤ filter) :
      Account isLogged (steps ++ [.log filter severity message]) records

-- ---------------------------------------------------------------- texts

theorem lookup_thresholdTexts {raw : String} {s : Severity} :
    thresholdTexts.lookup raw = some s ↔ raw = toString s.ordinal := by
  constructor
  · intro h
    obtain ⟨before, later, htexts, -⟩ := List.lookup_eq_some_iff.mp h
    have hmem : (raw, s) ∈ thresholdTexts := by simp [htexts]
    simp only [thresholdTexts, List.mem_cons, Prod.mk.injEq, List.not_mem_nil, or_false] at hmem
    rcases hmem with ⟨rfl, rfl⟩ | ⟨rfl, rfl⟩ | ⟨rfl, rfl⟩ | ⟨rfl, rfl⟩ | ⟨rfl, rfl⟩ | ⟨rfl, rfl⟩ |
      ⟨rfl, rfl⟩ <;> rfl
  · rintro rfl
    cases s <;> rfl

theorem ofText?_eq_lookup (raw : String) : Severity.ofText? raw = thresholdTexts.lookup raw :=
  Option.ext fun _ => Severity.ofText?_eq_some_iff.trans lookup_thresholdTexts.symm

theorem thresholdOf_eq (text : Option String) : thresholdOf text = askedFor text := by
  rw [thresholdOf, funext ofText?_eq_lookup]
  rfl

theorem reports_eq (text : Option String) :
    reports text = (thresholdReport? text).toList.map (LogRecord.mk .error) := by
  cases text with
  | none => rfl
  | some raw =>
    simp only [reports, thresholdReport?, ofText?_eq_lookup]
    split <;> rfl

-- ---------------------------------------------------------------- histories

theorem built_append (steps later : List Step) :
    built (steps ++ later) = built steps + built later :=
  List.countP_append

theorem given_append (steps later : List Step) (count : Nat) :
    given count (steps ++ later) = given count steps ++ given (count + built steps) later := by
  induction steps generalizing count with
  | nil => rfl
  | cons s rest ih =>
    cases s <;>
      simp [given, ih, built, Step.builds, List.countP_cons, Nat.add_assoc, Nat.add_comm 1]

/-- A threshold that is given to one filter is the current one of this filter. -/
theorem currentThreshold_append {steps : List Step} {s : Step} {receiver : Nat}
    {threshold : Severity} (h : given (built steps) [s] = [(receiver, threshold)]) (filter : Nat) :
    currentThreshold (steps ++ [s]) filter =
      if filter = receiver then threshold else currentThreshold steps filter := by
  rw [currentThreshold, given_append, Nat.zero_add, h, List.filter_append]
  by_cases hf : filter = receiver
  · simp [hf]
  · simp [hf, Ne.symm hf, currentThreshold]

theorem currentThreshold_log (steps : List Step) (logger : Nat) (severity : Severity)
    (message : String) (filter : Nat) :
    currentThreshold (steps ++ [.log logger severity message]) filter =
      currentThreshold steps filter := by
  rw [currentThreshold, given_append, given, given, List.append_nil]
  rfl

-- ---------------------------------------------------------------- filters on top of filters

theorem logger_succ {chain : FilterChain} {n : Nat} (h : n < chain.thresholds.length) :
    chain.logger (n + 1) = (chain.logger n).filtered (chain.threshold n) := by
  have htake : chain.thresholds.take (n + 1) = chain.thresholds.take n ++ [chain.threshold n] := by
    rw [List.take_add_one, threshold, List.getD_eq_getElem?_getD, List.getElem?_eq_getElem h]
    rfl
  rw [logger, htake, List.foldl_append]
  rfl

theorem isLogged_logger {chain : FilterChain} {n : Nat} (hn : n ≤ chain.thresholds.length)
    (severity : Severity) :
    (chain.logger n).isLogged severity = true ↔
      (∀ filter < n, (chain.threshold filter).ordinal ≤ severity.ordinal) ∧
        chain.base.isLogged severity = true := by
  induction n with
  | zero => simp [logger]
  | succ n ih =>
    rw [logger_succ hn, Logger.filtered, Bool.and_eq_true, ih (Nat.le_of_succ_le hn),
      Nat.forall_lt_succ_right, Severity.reaches, decide_eq_true_iff]
    tauto

/-- What a filter of the chain logs reaches the base if it passes the filters from there inwards. -/
theorem log_logger_succ {chain : FilterChain} {n : Nat} (hn : n < chain.thresholds.length)
    (severity : Severity) (message : String) :
    (chain.logger (n + 1)).log severity message =
      if (chain.logger (n + 1)).isLogged severity then chain.base.log severity message else [] := by
  induction n with
  | zero =>
    rw [logger_succ hn]
    rfl
  | succ n ih =>
    rw [logger_succ hn]
    show (if ((chain.logger (n + 1)).filtered (chain.threshold (n + 1))).isLogged severity
      then (chain.logger (n + 1)).log severity message else []) = _
    split
    · rename_i hlogged
      have hbelow : (chain.logger (n + 1)).isLogged severity = true :=
        (Bool.and_eq_true _ _ ▸ hlogged).2
      rw [ih (Nat.lt_of_succ_lt hn), if_pos hbelow]
    · rfl

-- ---------------------------------------------------------------- runs

theorem after_append (chain : FilterChain) (steps : List Step) (s : Step) :
    chain.after (steps ++ [s]) = ((chain.after steps).step s).1 := by
  simp [after]

theorem records_append (chain : FilterChain) (steps : List Step) (s : Step) :
    chain.records (steps ++ [s]) = chain.records steps ++ ((chain.after steps).step s).2 := by
  induction steps generalizing chain with
  | nil => simp [records, after]
  | cons first rest ih =>
    simp only [List.cons_append, records, ih, List.append_assoc]
    rfl

/-- The chain is what the history of its run says. -/
structure Follows (isLogged : Severity → Bool) (steps : List Step) (chain : FilterChain) :
    Prop where
  base : chain.base = .recording isLogged
  length : chain.thresholds.length = built steps
  threshold : ∀ filter < built steps, chain.threshold filter = currentThreshold steps filter

namespace Follows

variable {isLogged : Severity → Bool} {steps : List Step} {chain : FilterChain}

theorem start (isLogged : Severity → Bool) : Follows isLogged [] (unfiltered isLogged) :=
  ⟨rfl, rfl, fun _ hfilter => absurd hfilter (Nat.not_lt_zero _)⟩

theorem wrap (h : Follows isLogged steps chain) (text : Option String) :
    Follows isLogged (steps ++ [.wrap text]) (chain.wrap text).1 := by
  have hbuilt : built (steps ++ [.wrap text]) = built steps + 1 := built_append ..
  have hgiven : given (built steps) [.wrap text] = [(built steps, askedFor text)] := rfl
  refine ⟨h.base, ?_, fun filter hfilter => ?_⟩
  · simp [FilterChain.wrap, h.length, hbuilt]
  · rw [currentThreshold_append hgiven,
      FilterChain.threshold, FilterChain.wrap, List.getD_eq_getElem?_getD, thresholdOf_eq]
    by_cases hlast : filter = built steps
    · simp [hlast, ← h.length]
    · have hlt : filter < built steps := by omega
      rw [if_neg hlast, ← h.threshold filter hlt, List.getElem?_append_left (h.length ▸ hlt),
        FilterChain.threshold, List.getD_eq_getElem?_getD]

theorem set (h : Follows isLogged steps chain) (receiver : Nat) (threshold : Severity) :
    Follows isLogged (steps ++ [.setThreshold receiver threshold])
      (chain.setThreshold receiver threshold) := by
  have hbuilt : built (steps ++ [.setThreshold receiver threshold]) = built steps := built_append ..
  have hgiven : given (built steps) [.setThreshold receiver threshold] = [(receiver, threshold)] :=
    rfl
  refine ⟨h.base, ?_, fun filter hfilter => ?_⟩
  · simp [FilterChain.setThreshold, h.length, hbuilt]
  · have hlt : filter < built steps := hbuilt ▸ hfilter
    rw [currentThreshold_append hgiven,
      FilterChain.threshold, FilterChain.setThreshold, List.getD_eq_getElem?_getD,
      ← h.threshold filter hlt, FilterChain.threshold, List.getD_eq_getElem?_getD,
      List.getElem?_set]
    by_cases hsame : filter = receiver
    · simp [hsame, h.length ▸ hsame ▸ hlt]
    · simp [hsame, Ne.symm hsame]

theorem log (h : Follows isLogged steps chain) (logger : Nat) (severity : Severity)
    (message : String) : Follows isLogged (steps ++ [.log logger severity message]) chain := by
  have hbuilt : built (steps ++ [.log logger severity message]) = built steps := built_append ..
  refine ⟨h.base, h.length.trans hbuilt.symm, fun filter hfilter => ?_⟩
  rw [currentThreshold_log, h.threshold filter (hbuilt ▸ hfilter)]

theorem step (h : Follows isLogged steps chain) (s : Step) :
    Follows isLogged (steps ++ [s]) (chain.step s).1 := by
  cases s with
  | wrap text => exact h.wrap text
  | setThreshold filter threshold => exact h.set filter threshold
  | log filter severity message => exact h.log filter severity message

theorem after (isLogged : Severity → Bool) (steps : List Step) :
    Follows isLogged steps ((unfiltered isLogged).after steps) := by
  induction steps using List.reverseRecOn with
  | nil => exact start isLogged
  | append_singleton steps s ih =>
    rw [after_append]
    exact ih.step s

theorem isLogged_iff (h : Follows isLogged steps chain) {n : Nat} (hn : n ≤ built steps)
    (severity : Severity) :
    (chain.logger n).isLogged severity = true ↔ Passes isLogged steps n severity := by
  rw [isLogged_logger (h.length.symm ▸ hn), h.base]
  have hthresholds : (∀ filter < n, (chain.threshold filter).ordinal ≤ severity.ordinal) ↔
      ∀ filter < n, (currentThreshold steps filter).ordinal ≤ severity.ordinal :=
    forall₂_congr fun filter hfilter => by rw [h.threshold filter (Nat.lt_of_lt_of_le hfilter hn)]
  rw [hthresholds]
  rfl

/-- The base itself takes every message, a filter on it only what passes. -/
theorem log_passed (h : Follows isLogged steps chain) {n : Nat} (hn : n ≤ built steps)
    {severity : Severity} (hpass : n = 0 ∨ Passes isLogged steps n severity) (message : String) :
    (chain.logger n).log severity message = [⟨severity, message⟩] := by
  cases n with
  | zero =>
    show chain.base.log severity message = _
    rw [h.base]
    rfl
  | succ n =>
    have hlogged := (h.isLogged_iff hn severity).mpr (hpass.resolve_left (Nat.succ_ne_zero n))
    rw [log_logger_succ (h.length.symm ▸ hn), if_pos hlogged, h.base]
    rfl

theorem log_stopped (h : Follows isLogged steps chain) {n : Nat} (hn : n ≤ built steps)
    (hne : n ≠ 0) {severity : Severity} (hstop : ¬ Passes isLogged steps n severity)
    (message : String) : (chain.logger n).log severity message = [] := by
  obtain ⟨n, rfl⟩ := Nat.exists_eq_succ_of_ne_zero hne
  rw [log_logger_succ (h.length.symm ▸ hn), if_neg]
  exact fun hlogged => hstop ((h.isLogged_iff hn severity).mp hlogged)

/-- A new filter reports to the logger that it wraps: the base itself or all filters so far. -/
theorem outermost_eq (h : Follows isLogged steps chain) :
    chain.outermost = chain.logger (built steps) := by
  rw [outermost, h.length]

theorem wrap_heard (h : Follows isLogged steps chain) (text : Option String)
    (hpass : built steps = 0 ∨ Passes isLogged steps (built steps) .error) :
    (chain.wrap text).2 = reports text := by
  rw [reports_eq, FilterChain.wrap]
  cases thresholdReport? text with
  | none => rfl
  | some report =>
    show chain.outermost.log .error report = _
    rw [h.outermost_eq, h.log_passed (Nat.le_refl _) hpass]
    rfl

theorem wrap_unheard (h : Follows isLogged steps chain) (text : Option String)
    (hbuilt : built steps ≠ 0) (hstop : ¬ Passes isLogged steps (built steps) .error) :
    (chain.wrap text).2 = [] := by
  rw [FilterChain.wrap]
  cases thresholdReport? text with
  | none => rfl
  | some report =>
    show chain.outermost.log .error report = _
    rw [h.outermost_eq, h.log_stopped (Nat.le_refl _) hbuilt hstop]

end Follows

theorem records_wrap (chain : FilterChain) (text : Option String) :
    (chain.wrap text).2 =
      (reports text).flatMap fun r => chain.outermost.log r.severity r.message := by
  rw [reports_eq, wrap]
  cases thresholdReport? text <;> simp

/-- What one more step brings to the base is what the account of the run has for it. -/
theorem Account.step {isLogged : Severity → Bool} {steps : List Step} {records : List LogRecord}
    {chain : FilterChain} (h : Account isLogged steps records) (hf : Follows isLogged steps chain)
    (s : Step) : Account isLogged (steps ++ [s]) (records ++ (chain.step s).2) := by
  cases s with
  | wrap text =>
    by_cases hpass : built steps = 0 ∨ Passes isLogged steps (built steps) .error
    · have hnew : (chain.step (.wrap text)).2 = reports text := hf.wrap_heard text hpass
      rw [hnew]
      exact h.heard text hpass
    · obtain ⟨hbuilt, hstop⟩ := not_or.mp hpass
      have hnew : (chain.step (.wrap text)).2 = [] := hf.wrap_unheard text hbuilt hstop
      rw [hnew, List.append_nil]
      exact h.unheard text hbuilt hstop
  | setThreshold filter threshold =>
    have hnew : (chain.step (.setThreshold filter threshold)).2 = [] := rfl
    rw [hnew, List.append_nil]
    exact h.set filter threshold
  | log filter severity message =>
    by_cases hfilter : filter < built steps
    · have hnew : (chain.step (.log filter severity message)).2 =
          (chain.logger (filter + 1)).log severity message := if_pos (hf.length ▸ hfilter)
      rw [hnew]
      by_cases hpass : Passes isLogged steps (filter + 1) severity
      · rw [hf.log_passed hfilter (.inr hpass)]
        exact h.passed filter severity message hfilter hpass
      · rw [hf.log_stopped hfilter (Nat.succ_ne_zero filter) hpass, List.append_nil]
        exact h.stopped filter severity message hfilter hpass
    · have hnew : (chain.step (.log filter severity message)).2 = [] :=
        if_neg (hf.length ▸ hfilter)
      rw [hnew, List.append_nil]
      exact h.missing filter severity message (Nat.le_of_not_lt hfilter)

theorem Account.of_records (isLogged : Severity → Bool) (steps : List Step) :
    Account isLogged steps ((unfiltered isLogged).records steps) := by
  induction steps using List.reverseRecOn with
  | nil => exact .start
  | append_singleton steps s ih =>
    rw [records_append]
    exact ih.step (.after isLogged steps) s

/-- Whatever filters are built over a base, with whatever texts, and whatever is logged and set with
them: what reaches the base is what the history of the run accounts for, in its order. A filter has
the threshold that it was given last, and is interested in exactly what it lets pass. A new filter
hands its report, if it has one, to the logger that it wraps. -/
theorem account_of_run (isLogged : Severity → Bool) (steps : List Step) :
    let chain := (unfiltered isLogged).after steps
    Account isLogged steps ((unfiltered isLogged).records steps) ∧
      (∀ filter < built steps, chain.threshold filter = currentThreshold steps filter ∧
        ∀ severity, (chain.logger (filter + 1)).isLogged severity = true ↔
          Passes isLogged steps (filter + 1) severity) ∧
      ∀ text, (chain.wrap text).2 =
        (reports text).flatMap fun r => chain.outermost.log r.severity r.message := by
  intro chain
  have hf : Follows isLogged steps chain := .after isLogged steps
  exact ⟨.of_records isLogged steps,
    fun filter hfilter => ⟨hf.threshold filter hfilter, hf.isLogged_iff hfilter⟩,
    records_wrap chain⟩

/-- The second filter cannot read its text, and says so through the first. -/
example : (unfiltered fun _ => true).records
    [.wrap (some "5"), .wrap (some "+5"), .log 1 .progress "early", .setThreshold 0 .info,
      .setThreshold 1 .info, .log 1 .progress "late"] =
    [⟨.error, "SeverityFilter: Invalid ASSETIO_LOGGING_SEVERITY value '+5' - ignoring."⟩,
      ⟨.progress, "late"⟩] := rfl

end EntityBroker.FilterChain
