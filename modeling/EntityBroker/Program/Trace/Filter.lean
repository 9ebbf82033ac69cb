import EntityBroker.CommandLine.Run
import EntityBroker.Program.Trace.Letter
import EntityBroker.Program.Trace.Pattern

/-!
# Which trace events are shown

A filter is a list of directives with commas between them: a level by name or by number, a target,
or a target with a level. Brackets after the target narrow a directive to spans, or to events with a
field. The most detailed directive that concerns an event decides, and of several that are about the
same the last; an event that none concerns is not shown.
-/

namespace EntityBroker.CommandLine

/-- The least level that is shown, or none if nothing is. -/
abbrev Threshold := Option TraceLevel

structure Directive where
  target : String
  /-- Whether it is about spans. No event of this program is in one. -/
  ofSpans : Bool
  field : Option String
  threshold : Threshold

/-- The target of all events of this program's loggers. -/
def ownTarget : String := "assetio::log"

-- ---------------------------------------------------------------- levels

/-- All thresholds, the one that shows nothing first and the one that shows all last. -/
def thresholds : List Threshold := none :: TraceLevel.all.reverse.map some

def thresholdOfName? (name : String) : Option Threshold :=
  let lower := name.toLower
  if lower = "off" then some none
  else (TraceLevel.all.find? (fun level => level.name.toLower = lower)).map some

/-- A threshold by its name or its number. -/
def thresholdOf? (text : List Char) : Option Threshold :=
  match parseNat? text with
  | some n => thresholds[n]?
  | none => thresholdOfName? (String.ofList text)

-- ---------------------------------------------------------------- parts of a directive

/-- Why a directive cannot be read. -/
inductive DirectiveFault where
  | invalid
  /-- A part of it would begin or end inside a character. -/
  | splitCharacter
  deriving DecidableEq

abbrev DirectiveReading (α : Type) := Except DirectiveFault α

namespace DirectiveReading

/-- The number of bytes of a text. -/
def byteLength (text : List Char) : Nat := text.foldl (fun n c => n + c.utf8Size) 0

/-- A text before and after a number of bytes. -/
def splitAtByte : Nat → List Char → DirectiveReading (List Char × List Char)
  | 0, text => .ok ([], text)
  | _ + 1, [] => .error .splitCharacter
  | n + 1, c :: rest =>
    if c.utf8Size ≤ n + 1 then
      (splitAtByte (n + 1 - c.utf8Size) rest).map fun (before, after) => (c :: before, after)
    else .error .splitCharacter

/-- The part of a text from one byte up to another. -/
def cut (whole : List Char) (first last : Nat) : DirectiveReading (List Char) := do
  let (before, _) ← splitAtByte last whole
  let (_, part) ← splitAtByte first before
  return part

def orInvalid {α : Type} : Option α → DirectiveReading α
  | some value => .ok value
  | none => .error .invalid

/-- The level from a byte on. No level there means all of them. -/
def levelFrom (whole : List Char) (place : Nat) : DirectiveReading Threshold := do
  let (_, text) ← splitAtByte place whole
  if text = [] then return some .trace else orInvalid (thresholdOf? text)

-- ---------------------------------------------------------------- reading a directive

/-!
The marks of a directive are looked for in its text without white space around it; its parts are cut
from the whole text at the bytes where the marks were found. So each reader takes the whole text,
the byte that it starts at, and the rest of the trimmed text there.
-/

/-- The level where only an equals sign and a level may follow. -/
def levelAfter (whole : List Char) (place : Nat) : List Char → DirectiveReading Threshold
  | [] => .ok (some .trace)
  | c :: _ => if c = '=' then levelFrom whole (place + 1) else .error .invalid

/-- A field and perhaps a value for it, between braces. What stands after a second equals sign does
not matter. -/
def fieldOf (text : List Char) : DirectiveReading (String × Bool) :=
  let (name, value) := text.span (· ≠ '=')
  if text ≠ [] ∧ Pattern.isValue (value.tail.takeWhile (· ≠ '=')) then
    .ok (String.ofList name, value ≠ [])
  else .error .invalid

/-- The rest of a directive behind an opening brace. A field with a value is one of spans, and so is
one behind the name of a span. -/
def braced (whole : List Char) (target : String) (inSpan : Bool) (place : Nat) (rest : List Char) :
    DirectiveReading Directive :=
  let (inside, after) := rest.span (· ≠ '\x7d')
  let brace := place + byteLength inside
  match after with
  | [] => .error .invalid
  | _ :: after => do
    let (field, hasValue) ← fieldOf (← cut whole place brace)
    match after with
    | ']' :: after =>
      return ⟨target, inSpan || hasValue, some field, ← levelAfter whole (brace + 2) after⟩
    | _ => .error .invalid

/-- The rest of a directive behind an opening bracket: the name of a span, or a field in braces with
a name before it or not. -/
def bracketed (whole : List Char) (target : String) (place : Nat) (rest : List Char) :
    DirectiveReading Directive :=
  let (inside, after) := rest.span fun c => c ≠ ']' && c ≠ '\x7b'
  let mark := place + byteLength inside
  match after with
  | [] => .error .invalid
  | c :: after => do
    let name ← cut whole place mark
    if c = ']' then return ⟨target, true, none, ← levelAfter whole (mark + 1) after⟩
    else braced whole target (name ≠ []) (mark + 1) after

def startsName (c : Char) : Bool := isLetterOrNumber c || c = '-' || c = ':' || c = '_'

/-- A directive that starts with a level or a target. -/
def named (whole trimmed : List Char) : DirectiveReading Directive :=
  let (inside, after) := trimmed.span fun c => c ≠ '=' && c ≠ '['
  let mark := byteLength inside
  match after with
  | [] =>
    match thresholdOf? whole with
    | some threshold => .ok ⟨"", false, none, threshold⟩
    | none => .ok ⟨String.ofList whole, false, none, some .trace⟩
  | c :: after => do
    let target ← cut whole 0 mark
    if c = '=' then
      return ⟨String.ofList target, false, none, ← levelFrom whole (mark + 1)⟩
    else bracketed whole (String.ofList target) (mark + 1) after

def directive (text : List Char) : DirectiveReading Directive :=
  match trim text with
  | [] => .error .invalid
  | c :: rest =>
    if c = '[' then bracketed text "" 1 rest
    else if startsName c then named text (c :: rest)
    else .error .invalid

end DirectiveReading

def Directive.ofText (text : String) : DirectiveReading Directive :=
  DirectiveReading.directive text.toList

-- ---------------------------------------------------------------- filters

/-- Whether an event has a field of this name. -/
def hasField (e : TraceEvent) (name : String) : Bool :=
  name = "message" || (name = "severity" && e.severity.isSome)

def Directive.concerns (d : Directive) (e : TraceEvent) : Bool :=
  !d.ofSpans && ownTarget.startsWith d.target && d.field.all (hasField e)

/-- A longer target is more detail, and so is a field with the same target. -/
def Directive.detail (d : Directive) : Nat :=
  2 * d.target.length + if d.field.isSome then 1 else 0

/-- Whether a directive decides where another one concerns the event too: by detail, then by the
order of the names of their fields. -/
def Directive.outranks (d other : Directive) : Bool :=
  other.detail < d.detail ||
    (other.detail = d.detail && other.field.getD "" ≤ d.field.getD "")

/-- Keeps the directive that decides, the later one of two that are about the same. -/
def moreDetailed (best : Option Directive) (d : Directive) : Option Directive :=
  match best with
  | none => some d
  | some b => if d.outranks b then some d else best

def thresholdFor (directives : List Directive) (e : TraceEvent) : Threshold :=
  (((directives.filter (·.concerns e)).foldl moreDetailed none).map Directive.threshold).getD none

def isShown (directives : List Directive) (e : TraceEvent) : Bool :=
  match thresholdFor directives e with
  | none => false
  | some level => level.rank ≤ e.level.rank

/-- The reader of trace filters that the program is built with. A filter whose first fault splits a
character breaks off the run. -/
def readFilter (text : String) : FilterReading :=
  match ((text.splitOn ",").filter (· ≠ "")).mapM Directive.ofText with
  | .ok directives => .filter (isShown directives)
  | .error .invalid => .invalid
  | .error .splitCharacter => .brokenOff

end EntityBroker.CommandLine
