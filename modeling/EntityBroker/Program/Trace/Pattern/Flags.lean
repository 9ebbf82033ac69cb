import EntityBroker.CommandLine.Space

/-!
# Flags

What a pattern may set for the rest of a group, as far as it decides which patterns there are.
-/

namespace EntityBroker.CommandLine.Pattern

structure Flags where
  ignoresSpace : Bool
  foldsCase : Bool
  unicode : Bool

namespace Flags

def start : Flags := ⟨false, false, true⟩

def set (flags : Flags) (value : Bool) : Char → Flags
  | 'x' => { flags with ignoresSpace := value }
  | 'i' => { flags with foldsCase := value }
  | 'u' => { flags with unicode := value }
  | _ => flags

/-- Whether these are letters of flags, each at most once, perhaps with a hyphen before those to be
unset. -/
def areLetters (letters : List Char) : Bool :=
  letters.all (['i', 'm', 's', 'U', 'u', 'R', 'x', '-'].contains ·) && decide letters.Nodup &&
    letters.getLast? ≠ some '-'

/-- The flags after the letters before a hyphen are set and those after it are unset. -/
def change (flags : Flags) (letters : List Char) : Flags :=
  let isSet := (letters.takeWhile (· ≠ '-')).foldl (fun f c => f.set true c) flags
  (letters.dropWhile (· ≠ '-')).foldl (fun f c => f.set false c) isSet

end Flags

-- ---------------------------------------------------------------- space

/-- The text after white space and comments, which go from a number sign to the end of the line. -/
def skipSpace : (inComment : Bool) → List Char → List Char
  | _, [] => []
  | true, c :: rest => skipSpace (c ≠ '\n') rest
  | false, c :: rest =>
    if c = '#' then skipSpace true rest else if isSpace c then skipSpace false rest else c :: rest

/-- The text from which reading goes on. -/
def Flags.resume (flags : Flags) (text : List Char) : List Char :=
  if flags.ignoresSpace then skipSpace false text else text

/-- The character that a hyphen in a class is judged by. Space is passed over, but of a comment the
first sign only. -/
def Flags.ahead (flags : Flags) (text : List Char) : Option Char :=
  if flags.ignoresSpace then
    match text.dropWhile isSpace with
    | '#' :: rest => (rest.dropWhile isSpace).head?
    | rest => rest.head?
  else text.head?

end EntityBroker.CommandLine.Pattern
