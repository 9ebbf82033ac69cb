import EntityBroker.CommandLine.Run
import EntityBroker.Proofs.Broker.Escalation
import EntityBroker.Proofs.Json.Line

/-!
# The two ways to resolve

A run that resolves references writes a document for each of them, or fails fast and writes none if
an element fails. `modes_agree`: on a manager that delivers the same for both, the two ways end with
the same error, or write the same documents, or the fast one tells the first failure among the
documents of the other. Documents are lines, and errors are documents, for outputs that are not
terminals.
-/

namespace EntityBroker

-- ---------------------------------------------------------------- looking into documents

/-- The value that a path of keys leads to. -/
def Json.at? : Json → List String → Option Json
  | j, [] => some j
  | .obj entries, key :: path => (entries.lookup key).bind (·.at? path)
  | _, _ :: _ => none

theorem Json.at?_isSome_of_cons {j : Json} {key : String} {path : List String}
    (h : (j.at? (key :: path)).isSome = true) : (j.at? [key]).isSome = true := by
  cases j with
  | obj entries =>
    obtain ⟨value, hvalue⟩ := Option.isSome_iff_exists.mp h
    obtain ⟨entry, hentry, -⟩ := Option.bind_eq_some_iff.mp hvalue
    simp [at?, hentry]
  | _ => cases h

namespace CommandLine

theorem at?_document (entries : List (String × Json)) (key : String) (path : List String) :
    (document entries).at? (key :: path) =
      (entries.reverse.lookup key).bind (·.at? path) := by
  have hlookup := Dict.get?_ofList entries key
  rw [Dict.get?] at hlookup
  rw [document, Json.ofDict, Json.at?, hlookup]

variable {σ : Type}

-- ---------------------------------------------------------------- what the two ways leave

def ResolveCommand.request (c : ResolveCommand) : Request .resolve :=
  .resolve (c.references.map EntityReference.mk) (NameSet.ofList c.traits) c.access

def resolveReport (trace : List TraceEvent) (c : ResolveCommand) (made : Running σ) : RunReport :=
  .ofResult trace (resolveWith c made).2

/-- The two managers deliver the same for the request, and end alike. -/
def DeliverAlike {op : Operation} (request : Request op) (made other : Running σ) : Prop :=
  let reply (r : Running σ) :=
    r.broker.manager.batch op request Context.empty r.broker.session r.state
  (reply made).deliveries = (reply other).deliveries ∧ (reply made).verdict = (reply other).verdict

/-- The line for the reference at an index: it has the index and the reference, and either traits or
an error. -/
structure IsLine (index : Nat) (reference : String) (outcome : Outcome TraitsData) (line : Json) :
    Prop where
  index : line.at? ["index"] = some (.int index)
  entity : line.at? ["entity"] = some (.str reference)
  traits (data : TraitsData) (h : outcome = .ok data) :
    line.at? ["traits"] = some data.toJson ∧ line.at? ["error"] = none
  error (e : ElementError) (h : outcome = .error e) :
    line.at? ["error", "code"] = some (.str e.code.name) ∧
      line.at? ["error", "message"] = some (.str e.message) ∧ line.at? ["traits"] = none

/-- One line for each reference, in order. -/
structure AreLines (references : List String) (outcomes : List (Outcome TraitsData))
    (lines : List Json) : Prop where
  length : lines.length = references.length
  each (index : Nat) (h : index < references.length) : ∃ outcome line,
    outcomes[index]? = some outcome ∧ lines[index]? = some line ∧
      IsLine index references[index] outcome line

section
variable (p : Json.Printer) (terminals : Terminals)

/-- The run wrote the documents and ended with the code, and not with an error. Unless the output is
a terminal, what it wrote is the compact text of each document. -/
structure Wrote (lines : List Json) (exitCode : Nat) (r : RunReport) : Prop where
  documents : r.documents = lines
  output : terminals.output = false → (r.output p terminals).map some = lines.map p.compact
  exitCode : r.exitCode = exitCode
  errors : r.errors p terminals = []

/-- The run wrote nothing and ended with the code and an error. Unless the error output is a
terminal, what it wrote there is the compact text of a document. -/
structure Failed (told : Json) (exitCode : Nat) (r : RunReport) : Prop where
  output : r.output p terminals = []
  exitCode : r.exitCode = exitCode
  errors : terminals.errors = false → (r.errors p terminals).map some = [p.compact told]

/-- What the plain and the fast way leave after a call that answered so. -/
inductive ModesAgree (references : List String) :
    Except Error (List (Outcome TraitsData)) → RunReport → RunReport → Prop
  | callError {e : Error} {plain fast : RunReport}
      (hplain : Failed p terminals (errorDocument e) e.exitCode plain)
      (hfast : Failed p terminals (errorDocument e) e.exitCode fast)
      (hsame : plain.errors p terminals = fast.errors p terminals) :
      ModesAgree references (.error e) plain fast
  | success {datas : List TraitsData} {lines : List Json} {plain fast : RunReport}
      (hlines : AreLines references (datas.map .ok) lines)
      (hplain : Wrote p terminals lines 0 plain) (hfast : Wrote p terminals lines 0 fast)
      (hsame : plain.output p terminals = fast.output p terminals) :
      ModesAgree references (.ok (datas.map .ok)) plain fast
  | failure {outcomes : List (Outcome TraitsData)} {lines : List Json} {first told : Json}
      {plain fast : RunReport} (hlines : AreLines references outcomes lines)
      (hplain : Wrote p terminals lines 7 plain) (hfast : Failed p terminals told 7 fast)
      (hfirst : lines.find? (fun line => (line.at? ["error"]).isSome) = some first)
      (hindex : told.at? ["error", "index"] = first.at? ["index"])
      (hcode : told.at? ["error", "code"] = first.at? ["error", "code"]) :
      ModesAgree references (.ok outcomes) plain fast

/-- The output has no text, or as many as there are references; and each is one line unless the
output is a terminal. -/
structure LineForEach (references : List String) (r : RunReport) : Prop where
  count : r.output p terminals = [] ∨ (r.output p terminals).length = references.length
  single (houtput : terminals.output = false) (line : String) (h : line ∈ r.output p terminals) :
    '\n' ∉ line.toList

end

-- ---------------------------------------------------------------- lines

theorem isLine_resolvedDocument (index : Nat) (reference : EntityReference)
    (outcome : Outcome TraitsData) :
    IsLine index reference.text outcome (resolvedDocument index reference outcome) := by
  cases outcome with
  | ok data =>
    constructor
    case error => exact nofun
    case traits =>
      rintro _ ⟨rfl⟩
      simp [resolvedDocument, at?_document, List.lookup_cons, Json.at?]
    all_goals simp [resolvedDocument, at?_document, List.lookup_cons, Json.at?]
  | error e =>
    constructor
    case traits => exact nofun
    case error =>
      rintro _ ⟨rfl⟩
      simp [resolvedDocument, at?_document, List.lookup_cons, Json.at?]
    all_goals simp [resolvedDocument, at?_document, List.lookup_cons, Json.at?]

theorem areLines_resolvedDocuments {references : List String}
    {outcomes : List (Outcome TraitsData)} (h : outcomes.length = references.length) :
    AreLines references outcomes
      (resolvedDocuments (references.map EntityReference.mk) outcomes) where
  length := by simp [resolvedDocuments, h]
  each index hindex := by
    have houtcome : index < outcomes.length := h ▸ hindex
    have hpair : ((references.map EntityReference.mk).zip outcomes)[index]? =
        some (⟨references[index]⟩, outcomes[index]) := by
      rw [List.getElem?_zip_eq_some, List.getElem?_map, List.getElem?_eq_getElem hindex]
      exact ⟨rfl, List.getElem?_eq_getElem houtcome⟩
    refine ⟨outcomes[index], _, List.getElem?_eq_getElem houtcome, ?_,
      isLine_resolvedDocument index ⟨references[index]⟩ outcomes[index]⟩
    simp [resolvedDocuments, hpair]

/-- The first line with an error is the one for the first outcome that is one. -/
theorem AreLines.find?_error {references : List String} {before : List TraitsData}
    {e : ElementError} {rest : List (Outcome TraitsData)} {lines : List Json}
    (h : AreLines references (before.map .ok ++ .error e :: rest) lines)
    (hlt : before.length < references.length) :
    ∃ first, lines.find? (fun line => (line.at? ["error"]).isSome) = some first ∧
      first.at? ["index"] = some (.int before.length) ∧
      first.at? ["error", "code"] = some (.str e.code.name) := by
  obtain ⟨outcome, first, houtcome, hfirst, hline⟩ := h.each before.length hlt
  have he : outcome = .error e := by simpa using houtcome.symm
  obtain ⟨hcode, -, -⟩ := hline.error e he
  refine ⟨first, ?_, hline.index, hcode⟩
  -- no line before it has an error, as the outcomes before it are values
  rw [List.find?_eq_some_iff_getElem]
  obtain ⟨hlength, hget⟩ := List.getElem?_eq_some_iff.mp hfirst
  refine ⟨?_, before.length, hlength, hget, fun j hj => ?_⟩
  · exact Json.at?_isSome_of_cons (Option.isSome_iff_exists.mpr ⟨_, hcode⟩)
  · obtain ⟨other, line, hother, hlinej, hj'⟩ := h.each j (by omega)
    have hdata : other = .ok before[j] := by
      rw [List.getElem?_append_left (by simpa using hj)] at hother
      simpa [hj] using hother.symm
    obtain ⟨hlt', hget'⟩ := List.getElem?_eq_some_iff.mp hlinej
    rw [hget', (hj'.traits before[j] hdata).2]
    rfl

theorem at?_errorDocument_raisedError (request : Request .resolve) (e : ElementError)
    (index : Nat) (note : String) :
    (errorDocument (request.raisedError e index note)).at? ["error", "index"] =
        some (.int index) ∧
      (errorDocument (request.raisedError e index note)).at? ["error", "code"] =
        some (.str e.code.name) := by
  constructor <;>
    simp [errorDocument, Request.raisedError, given, at?_document, List.lookup_cons, Json.at?]

-- ---------------------------------------------------------------- the reports

section
variable {p : Json.Printer} {terminals : Terminals}

theorem output_of_not_terminal (hp : p.WritesLines) (h : terminals.output = false)
    (r : RunReport) : (r.output p terminals).map some = r.documents.map p.compact := by
  rw [RunReport.output, List.map_map]
  refine List.map_congr_left fun document _ => ?_
  obtain ⟨line, hline, -⟩ := hp document
  simp [h, hline]

theorem Failed.of_error (hp : p.WritesLines) {e : Error} {trace : List TraceEvent} :
    Failed p terminals (errorDocument e) e.exitCode (.ofResult trace (.error e)) where
  output := rfl
  exitCode := rfl
  errors h := by
    obtain ⟨line, hline, -⟩ := hp (errorDocument e)
    simp [RunReport.errors, RunReport.ofResult, h, hline]

theorem Wrote.of_ok (hp : p.WritesLines) {lines : List Json} {exitCode : Nat}
    {trace : List TraceEvent} :
    Wrote p terminals lines exitCode (.ofResult trace (.ok ⟨exitCode, lines⟩)) where
  documents := rfl
  output h := output_of_not_terminal hp h _
  exitCode := rfl
  errors := rfl

theorem hasFailure_values (datas : List TraitsData) :
    hasFailure (datas.map .ok) = false := by
  simp [hasFailure, Except.isOk, Except.toBool]

theorem hasFailure_error (before : List TraitsData) (e : ElementError)
    (rest : List (Outcome TraitsData)) :
    hasFailure (before.map .ok ++ .error e :: rest) = true := by
  simp [hasFailure, Except.isOk, Except.toBool]

def plainSuccess (c : ResolveCommand) (outcomes : List (Outcome TraitsData)) : Success :=
  ⟨if hasFailure outcomes then ErrorKind.batchElement.exitCode else 0,
    resolvedDocuments (c.references.map EntityReference.mk) outcomes⟩

def fastSuccess (c : ResolveCommand) (datas : List TraitsData) : Success :=
  ⟨0, resolvedDocuments (c.references.map EntityReference.mk) (datas.map .ok)⟩

theorem modesAgree_of_raised (hp : p.WritesLines) {c : ResolveCommand}
    {called : Except Error (List (Outcome Operation.resolve.Answer))}
    {raised : Except Error (List TraitsData)} (h : Raised c.request called raised)
    (hlength : ∀ outcomes, called = .ok outcomes → outcomes.length = c.references.length)
    (plainTrace fastTrace : List TraceEvent) :
    ModesAgree p terminals c.references called
      (.ofResult plainTrace (called.map (plainSuccess c)))
      (.ofResult fastTrace (raised.map (fastSuccess c))) := by
  cases h with
  | callError e => exact .callError (.of_error hp) (.of_error hp) rfl
  | values datas =>
    have hlines := areLines_resolvedDocuments (hlength _ rfl)
    simp only [Except.map, plainSuccess, hasFailure_values]
    exact .success hlines (.of_ok hp) (.of_ok hp) rfl
  | elementError before e rest note _ =>
    have hlines := areLines_resolvedDocuments (hlength _ rfl)
    have hlt : before.length < c.references.length := by
      rw [← hlength _ rfl, List.length_append, List.length_map, List.length_cons]
      omega
    obtain ⟨first, hfirst, hindex, hcode⟩ := hlines.find?_error hlt
    obtain ⟨htoldIndex, htoldCode⟩ :=
      at?_errorDocument_raisedError c.request e before.length note
    simp only [Except.map, plainSuccess, hasFailure_error]
    exact .failure hlines (.of_ok hp) (.of_error hp) hfirst (htoldIndex.trans hindex.symm)
      (htoldCode.trans hcode.symm)

variable {references : List String} {lines : List Json} {told : Json} {exitCode : Nat}
  {r : RunReport}

theorem Failed.lineForEach (h : Failed p terminals told exitCode r) :
    LineForEach p terminals references r := by
  refine ⟨.inl h.output, fun _ line hline => ?_⟩
  rw [h.output] at hline
  cases hline

theorem Wrote.lineForEach (hp : p.WritesLines) (h : Wrote p terminals lines exitCode r)
    (hlength : lines.length = references.length) : LineForEach p terminals references r := by
  refine ⟨.inr ?_, fun houtput line hline => ?_⟩
  · rw [RunReport.output, List.length_map, h.documents, hlength]
  · have hmem : some line ∈ lines.map p.compact := by
      rw [← h.output houtput]
      exact List.mem_map_of_mem hline
    obtain ⟨document, -, hcompact⟩ := List.mem_map.mp hmem
    obtain ⟨only, honly, hnewline⟩ := hp document
    obtain rfl : only = line := Option.some.inj (honly.symm.trans hcompact)
    exact hnewline

theorem ModesAgree.lineForEach (hp : p.WritesLines)
    {called : Except Error (List (Outcome TraitsData))} {plain fast : RunReport}
    (h : ModesAgree p terminals references called plain fast) :
    LineForEach p terminals references plain ∧ LineForEach p terminals references fast := by
  cases h with
  | callError hplain hfast _ => exact ⟨hplain.lineForEach, hfast.lineForEach⟩
  | success hlines hplain hfast _ =>
    exact ⟨hplain.lineForEach hp hlines.length, hfast.lineForEach hp hlines.length⟩
  | failure hlines hplain hfast _ _ _ =>
    exact ⟨hplain.lineForEach hp hlines.length, hfast.lineForEach⟩

end

-- ---------------------------------------------------------------- two runs

theorem outcomes_of_deliverAlike {op : Operation} {request : Request op} {made other : Running σ}
    (h : DeliverAlike request made other) :
    (made.broker.outcomes request Context.empty made.state).result =
      (other.broker.outcomes request Context.empty other.state).result := by
  cases hf : Broker.lengthFault? request with
  | some fault => rw [Broker.outcomes_refused hf, Broker.outcomes_refused hf]
  | none =>
    by_cases hs : request.size = 0
    · rw [Broker.outcomes_of_empty hf hs, Broker.outcomes_of_empty hf hs]
    · rw [Broker.outcomes_of_asks ⟨hf, hs⟩, Broker.outcomes_of_asks ⟨hf, hs⟩, h.1, h.2]

/-- The two ways to resolve agree, whatever was delivered. An error of the call ends both with the
same error and code, and no output. Without element errors both write the same. Otherwise the plain
way writes a document for each reference and ends with the code for element errors; the fast way
ends with the same code and writes nothing, and its error tells the index and the code that are on
the first document with an error of the plain way. Where an output is no terminal, what is written
to it is the compact text of these documents, on a line each, and the document of the error. -/
theorem modes_agree {p : Json.Printer} (hp : p.WritesLines) (terminals : Terminals)
    (plainTrace fastTrace : List TraceEvent) (c : ResolveCommand) {made other : Running σ}
    (h : DeliverAlike c.request made other) :
    let plain := resolveReport plainTrace { c with failFast := false } made
    let fast := resolveReport fastTrace { c with failFast := true } other
    ModesAgree p terminals c.references
        (made.broker.batch .variant c.request Context.empty made.state).result plain fast ∧
      LineForEach p terminals c.references plain ∧ LineForEach p terminals c.references fast := by
  intro plain fast
  have hcalled : (made.broker.batch .variant c.request Context.empty made.state).result =
      (other.broker.batch .variant c.request Context.empty other.state).result := by
    rw [Broker.batch_variant_result, Broker.batch_variant_result, outcomes_of_deliverAlike h]
  have hraised := (other.broker.batch_raises c.request Context.empty other.state).1
  rw [← hcalled] at hraised
  have hlength : ∀ outcomes,
      (made.broker.batch .variant c.request Context.empty made.state).result = .ok outcomes →
        outcomes.length = c.references.length := by
    intro outcomes houtcomes
    rw [Broker.batch_variant_result] at houtcomes
    rw [Broker.length_of_outcomes houtcomes]
    exact List.length_map ..
  have hagree : ModesAgree p terminals c.references _ plain fast :=
    modesAgree_of_raised hp hraised hlength plainTrace fastTrace
  exact ⟨hagree, hagree.lineForEach hp⟩

def emptyTable (referencePrefix : String) : Running TableManager.State :=
  ⟨⟨TableManager.manager, ⟨host, .recording fun _ => true⟩⟩,
    { TableManager.State.initial with referencePrefix := referencePrefix }⟩

def resolveTwo : ResolveCommand := ⟨none, ["named"], .read, false, ["cat", "dog"]⟩

theorem emptyTable_modes_agree :
    Json.printer.WritesLines ∧
    DeliverAlike resolveTwo.request (emptyTable "a://") (emptyTable "b://") ∧
      let terminals : Terminals := ⟨false, false⟩
      let plain := resolveReport [] { resolveTwo with failFast := false } (emptyTable "a://")
      let fast := resolveReport [] { resolveTwo with failFast := true } (emptyTable "b://")
      ModesAgree Json.printer terminals ["cat", "dog"] ((emptyTable "a://").broker.batch .variant
          resolveTwo.request Context.empty (emptyTable "a://").state).result plain fast ∧
        LineForEach Json.printer terminals ["cat", "dog"] plain ∧
        LineForEach Json.printer terminals ["cat", "dog"] fast :=
  have hp := Json.writesLines_printer
  have h : DeliverAlike resolveTwo.request (emptyTable "a://") (emptyTable "b://") := ⟨rfl, rfl⟩
  ⟨hp, h, modes_agree hp ⟨false, false⟩ [] [] resolveTwo h⟩

/-- A run that is to resolve, and has made a manager, leaves what resolving with it leaves. -/
theorem run_resolve {libraries : Libraries} {arguments : List String} {environment : Environment}
    {find : String → Found} {c : ResolveCommand} {shows : TraceEvent → Bool}
    {logs : List LogRecord} {made : Running TableManager.State}
    (hfilter : filterFor? libraries.filter environment.traceFilter = some shows)
    (harguments : libraries.arguments arguments = .ok (.run (.resolve c)))
    (hmade : managerFor ⟨host, Registry.builtin, (loggerFor environment).1⟩ libraries.settings find
      environment c.config = (logs, .ok made)) :
    ∃ trace, run libraries arguments environment find = resolveReport trace c made := by
  refine ⟨(((loggerFor environment).2 ++ (logs ++ (resolveWith c made).1)).map
    TraceEvent.ofRecord).filter shows, ?_⟩
  simp only [run, hfilter, runWith, harguments, runCommand, hmade]
  rfl

end CommandLine

end EntityBroker
