import EntityBroker.Program.Toml.Line

/-!
# Quoted texts

Basic texts stand between double quotes and know escapes, literal texts stand between single quotes
and know none; three quotes open a text that may span lines. A line end inside a text is a line
feed, however it is written, and one right after the opening quotes is dropped.
-/

namespace EntityBroker.Toml

/-- Characters that may stand for themselves in a text, the quote and the escape sign apart. -/
def isTextChar (c : Char) : Bool := isCommentChar c

def hexValue? (c : Char) : Option Nat :=
  if '0' ≤ c ∧ c ≤ '9' then some (c.toNat - '0'.toNat)
  else if 'a' ≤ c ∧ c ≤ 'f' then some (c.toNat - 'a'.toNat + 10)
  else if 'A' ≤ c ∧ c ≤ 'F' then some (c.toNat - 'A'.toNat + 10)
  else none

/-- A number of exactly so many hexadecimal digits. -/
def hexDigits : Nat → Nat → Reader Nat
  | 0, value, text => some (value, text)
  | n + 1, value, c :: rest =>
    match hexValue? c with
    | none => none
    | some d => hexDigits n (16 * value + d) rest
  | _ + 1, _, [] => none

/-- The character with a number; surrogates and numbers past the last character have none. -/
def charOf? (n : Nat) : Option Char := if n.isValidChar then some (Char.ofNat n) else none

def numberedChar (digits : Nat) (text : List Char) : Option (Char × List Char) :=
  match hexDigits digits 0 text with
  | none => none
  | some (n, rest) => (charOf? n).map (·, rest)

/-- The character that an escape stands for, read after the escape sign. -/
def escaped : Reader Char
  | 'b' :: rest => some ('\x08', rest)
  | 't' :: rest => some ('\t', rest)
  | 'n' :: rest => some ('\n', rest)
  | 'f' :: rest => some ('\x0c', rest)
  | 'r' :: rest => some ('\r', rest)
  | '"' :: rest => some ('"', rest)
  | '\\' :: rest => some ('\\', rest)
  | 'u' :: rest => numberedChar 4 rest
  | 'U' :: rest => numberedChar 8 rest
  | _ => none

-- ---------------------------------------------------------------- texts on one line

/-- The rest of a basic text, at most `fuel` characters long, and what follows the closing quote. -/
def basicRest : Nat → Reader (List Char)
  | 0, _ => none
  | fuel + 1, text =>
    match text with
    | [] => none
    | '"' :: rest => some ([], rest)
    | '\\' :: rest =>
      match escaped rest with
      | none => none
      | some (c, rest) => (basicRest fuel rest).map fun (cs, rest) => (c :: cs, rest)
    | c :: rest =>
      if isTextChar c then (basicRest fuel rest).map fun (cs, rest) => (c :: cs, rest) else none

/-- The rest of a literal text, and what follows the closing quote. -/
def literalRest : Reader (List Char)
  | [] => none
  | '\'' :: rest => some ([], rest)
  | c :: rest =>
    if isTextChar c then (literalRest rest).map fun (cs, rest) => (c :: cs, rest) else none

-- ---------------------------------------------------------------- texts over several lines

/-- The text without blanks and line ends at its front. -/
def skipBlankLines : List Char → List Char
  | [] => []
  | '\r' :: '\n' :: rest => skipBlankLines rest
  | c :: rest => if isBlank c || c = '\n' then skipBlankLines rest else c :: rest

/-- After an escape sign at the end of a line: the next character that is no blank or line end. -/
def continuedLine? (text : List Char) : Option (List Char) :=
  (lineEnd? (skipBlanks text)).map skipBlankLines

/-- The rest of a text over several lines. A run of fewer than three quotes belongs to the text, one
of three to five ends it, and what it has more than three belongs to the text; no run is longer. -/
def spanningRest (quote : Char) (escapes : Bool) : Nat → Reader (List Char)
  | 0, _ => none
  | fuel + 1, text =>
    match text with
    | [] => none
    | c :: rest =>
      if c = quote then
        let run := (text.takeWhile (· = quote)).length
        if run < 3 then
          (spanningRest quote escapes fuel rest).map fun (cs, rest) => (c :: cs, rest)
        else if run ≤ 5 then some (List.replicate (run - 3) quote, text.drop run)
        else none
      else if escapes && c = '\\' then
        match continuedLine? rest with
        | some rest => spanningRest quote escapes fuel rest
        | none =>
          match escaped rest with
          | none => none
          | some (c, rest) =>
            (spanningRest quote escapes fuel rest).map fun (cs, rest) => (c :: cs, rest)
      else match lineEnd? text with
        | some rest =>
          (spanningRest quote escapes fuel rest).map fun (cs, rest) => ('\n' :: cs, rest)
        | none =>
          if isTextChar c then
            (spanningRest quote escapes fuel rest).map fun (cs, rest) => (c :: cs, rest)
          else none

def spanning (quote : Char) (escapes : Bool) (text : List Char) : Option (List Char × List Char) :=
  let start := (lineEnd? text).getD text
  spanningRest quote escapes (start.length + 1) start

/-- A text between quotes on one line, as keys are written. -/
def lineText : Reader String
  | '"' :: rest => (basicRest (rest.length + 1) rest).map fun (cs, rest) => (String.ofList cs, rest)
  | '\'' :: rest => (literalRest rest).map fun (cs, rest) => (String.ofList cs, rest)
  | _ => none

/-- Any text between quotes. -/
def quotedText : Reader String
  | '"' :: '"' :: '"' :: rest =>
    (spanning '"' true rest).map fun (cs, rest) => (String.ofList cs, rest)
  | '\'' :: '\'' :: '\'' :: rest =>
    (spanning '\'' false rest).map fun (cs, rest) => (String.ofList cs, rest)
  | text => lineText text

end EntityBroker.Toml
