/-!
# Text as bytes

Bytes are cut into segments: a character, a maximal ill-formed part, or a character cut short by the
end. Strict decoding (`Utf8.decode`) reports where the first segment stands that is no character;
lossy decoding (`Utf8.decodeLossy`) puts one replacement character for each.
-/

namespace EntityBroker.Utf8

def encode (text : String) : List UInt8 := text.toList.flatMap String.utf8EncodeChar

/-- What is left of a character after some of its bytes: its value so far, the byte range due next,
how many plain continuation bytes follow that one, and how many bytes were read. -/
structure Partial where
  value : Nat
  low : UInt8
  high : UInt8
  further : Nat
  length : Nat

inductive Segment where
  | char (c : Char)
  /-- Bytes that begin no character, or the beginning of one that the next byte does not continue.
  -/
  | broken (length : Nat)
  /-- The beginning of a character at the end of the bytes. -/
  | unfinished (length : Nat)
  deriving DecidableEq, Repr

/-- The segments that end with a byte, and the character that it leaves begun. -/
abbrev Step := List Segment × Option Partial

/-- A byte between characters. The range for the byte after it keeps out overlong forms, surrogates
and values past the last character. -/
def first (b : UInt8) : Step :=
  if b ≤ 0x7F then ([.char (Char.ofNat b.toNat)], none)
  else if b < 0xC2 then ([.broken 1], none)
  else if b ≤ 0xDF then ([], some ⟨b.toNat - 0xC0, 0x80, 0xBF, 0, 1⟩)
  else if b = 0xE0 then ([], some ⟨0, 0xA0, 0xBF, 1, 1⟩)
  else if b = 0xED then ([], some ⟨0xD, 0x80, 0x9F, 1, 1⟩)
  else if b ≤ 0xEF then ([], some ⟨b.toNat - 0xE0, 0x80, 0xBF, 1, 1⟩)
  else if b = 0xF0 then ([], some ⟨0, 0x90, 0xBF, 2, 1⟩)
  else if b ≤ 0xF3 then ([], some ⟨b.toNat - 0xF0, 0x80, 0xBF, 2, 1⟩)
  else if b = 0xF4 then ([], some ⟨4, 0x80, 0x8F, 2, 1⟩)
  else ([.broken 1], none)

/-- A byte after the beginning of a character. One that does not continue it begins anew. -/
def Partial.next (p : Partial) (b : UInt8) : Step :=
  if p.low ≤ b ∧ b ≤ p.high then
    let value := p.value * 64 + (b.toNat - 0x80)
    match p.further with
    | 0 => ([.char (Char.ofNat value)], none)
    | further + 1 => ([], some ⟨value, 0x80, 0xBF, further, p.length + 1⟩)
  else
    let (segments, begun) := first b
    (.broken p.length :: segments, begun)

def next : Option Partial → UInt8 → Step
  | none, b => first b
  | some p, b => p.next b

/-- The segments of bytes that follow the beginning of a character, if one is begun. -/
def segmentsFrom (begun : Option Partial) : List UInt8 → List Segment
  | [] => begun.toList.map fun p => .unfinished p.length
  | b :: rest => (next begun b).1 ++ segmentsFrom (next begun b).2 rest

def segments (bytes : List UInt8) : List Segment := segmentsFrom none bytes

/-- Where strict decoding stops: how many bytes before it are characters, and how many bytes the
ill-formed part has, or `none` if the bytes end inside a character. -/
structure Fault where
  validUpTo : Nat
  length : Option Nat
  deriving DecidableEq, Repr

def Fault.message (f : Fault) : String :=
  match f.length with
  | some n => s!"invalid utf-8 sequence of {n} bytes from index {f.validUpTo}"
  | none => s!"incomplete utf-8 byte sequence from index {f.validUpTo}"

/-- The characters of the segments, if they all are; `offset` counts the bytes before them. -/
def readAll (offset : Nat) : List Segment → Except Fault (List Char)
  | [] => .ok []
  | .char c :: rest => (readAll (offset + c.utf8Size) rest).map (c :: ·)
  | .broken n :: _ => .error ⟨offset, some n⟩
  | .unfinished _ :: _ => .error ⟨offset, none⟩

def decode (bytes : List UInt8) : Except Fault String :=
  (readAll 0 (segments bytes)).map String.ofList

def Segment.shown : Segment → Char
  | .char c => c
  | .broken _ => '\uFFFD'
  | .unfinished _ => '\uFFFD'

def decodeLossy (bytes : List UInt8) : String :=
  String.ofList ((segments bytes).map Segment.shown)

end EntityBroker.Utf8
