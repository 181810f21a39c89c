import Assessment.Digest.Hex
import Assessment.Number.Integer
import Assessment.Record.Document

/-!
# The text of documents

Documents are exchanged as JSON text.  Reading keeps whole numbers apart from all others: a numeral
with a point or an exponent, one that is not a machine integer and negative zero are kept as they are
written.  Of several fields under one name the last is kept.  Writing is on one line, without blanks.
-/

namespace Assessment
namespace Json

/-! ## Reading texts -/

/-- The value of four hexadecimal digits. -/
def code? (a b c d : Char) : Option Nat :=
  ([a, b, c, d].mapM Digest.hexValue?).map fun digits => digits.foldl (fun n digit => 16 * n + digit) 0

/-- The character that a letter stands for after a backslash. -/
def escaped? : Char → Option Char
  | 'n' => some '\n'
  | 't' => some '\t'
  | 'r' => some '\r'
  | 'b' => some '\x08'
  | 'f' => some '\x0c'
  | c => if c == '"' || c == '\\' || c == '/' then some c else none

/-- The codes of a text after its opening quote, and what follows its closing quote. -/
def readCodes : List Char → Option (List Nat × List Char)
  | [] => none
  | '"' :: rest => some ([], rest)
  | '\\' :: 'u' :: a :: b :: c :: d :: rest => do
    let code ← code? a b c d
    let (codes, more) ← readCodes rest
    return (code :: codes, more)
  | '\\' :: c :: rest => do
    let e ← escaped? c
    let (codes, more) ← readCodes rest
    return (e.toNat :: codes, more)
  | c :: rest => do
    if c.toNat < 32 then none
    let (codes, more) ← readCodes rest
    return (c.toNat :: codes, more)

/-- The characters of codes; a character beyond the first plane may come as a pair of surrogates. -/
def joinCodes : List Nat → Option (List Char)
  | [] => some []
  | [code] => if code.isValidChar then some [Char.ofNat code] else none
  | code :: low :: rest =>
    if 0xd800 ≤ code ∧ code < 0xdc00 ∧ 0xdc00 ≤ low ∧ low < 0xe000 then
      (joinCodes rest).map (Char.ofNat (0x10000 + 0x400 * (code - 0xd800) + (low - 0xdc00)) :: ·)
    else if code.isValidChar then (joinCodes (low :: rest)).map (Char.ofNat code :: ·)
    else none

/-- A text after its opening quote, and what follows its closing quote. -/
def readText (cs : List Char) : Option (String × List Char) := do
  let (codes, rest) ← readCodes cs
  let chars ← joinCodes codes
  return (String.ofList chars, rest)

/-! ## Reading numbers -/

/-- What follows one or more digits. -/
def afterDigits? : List Char → Option (List Char)
  | c :: rest => if c.isDigit then some (rest.dropWhile Char.isDigit) else none
  | [] => none

/-- What follows the whole part of a number; zero is its only numeral that begins with zero. -/
def afterWhole? : List Char → Option (List Char)
  | '0' :: rest => some rest
  | cs => afterDigits? cs

/-- What follows the exponent of a number, if it has one. -/
def afterExponent? : List Char → Option (List Char)
  | c :: rest =>
    if c == 'e' || c == 'E' then
      match rest with
      | '+' :: digits | '-' :: digits => afterDigits? digits
      | digits => afterDigits? digits
    else some (c :: rest)
  | [] => some []

/-- What follows a number. -/
def afterNumber? (cs : List Char) : Option (List Char) := do
  let rest ← afterWhole? (if cs.head? == some '-' then cs.tail else cs)
  match rest with
  | '.' :: digits => afterExponent? (← afterDigits? digits)
  | rest => afterExponent? rest

/-- The document of a numeral. -/
def ofNumeral (s : String) : Document :=
  if s == "-0" then .real s
  else match Number.readInt? (-9223372036854775808) Number.max64 s with
    | some n => .int n
    | none => .real s

/-- A number, and what follows it. -/
def readNumber (cs : List Char) : Option (Document × List Char) :=
  (afterNumber? cs).map fun rest =>
    (ofNumeral (String.ofList (cs.take (cs.length - rest.length))), rest)

/-! ## Reading documents -/

/-- What follows blanks. -/
def skipBlanks (cs : List Char) : List Char :=
  cs.dropWhile fun c => c == ' ' || c == '\t' || c == '\n' || c == '\r'

mutual

/-- A document, and what follows it. -/
def readValue : Nat → List Char → Option (Document × List Char)
  | 0, _ => none
  | fuel + 1, cs =>
    match skipBlanks cs with
    | '"' :: rest => (readText rest).map fun r => (.text r.1, r.2)
    | '[' :: rest =>
      match skipBlanks rest with
      | ']' :: more => some (.list [], more)
      | more => (readItems fuel more).map fun r => (.list r.1, r.2)
    | '{' :: rest =>
      match skipBlanks rest with
      | '}' :: more => some (.object [], more)
      | more => (readFields fuel more).map fun r => (.object r.1, r.2)
    | 't' :: 'r' :: 'u' :: 'e' :: rest => some (.bool true, rest)
    | 'f' :: 'a' :: 'l' :: 's' :: 'e' :: rest => some (.bool false, rest)
    | 'n' :: 'u' :: 'l' :: 'l' :: rest => some (.null, rest)
    | rest => readNumber rest

/-- The members of a list up to its end, and what follows it. -/
def readItems : Nat → List Char → Option (List Document × List Char)
  | 0, _ => none
  | fuel + 1, cs => do
    let (item, rest) ← readValue fuel cs
    match skipBlanks rest with
    | ',' :: more =>
      let (items, rest) ← readItems fuel more
      return (item :: items, rest)
    | ']' :: more => return ([item], more)
    | _ => none

/-- The fields of an object up to its end, and what follows it. -/
def readFields : Nat → List Char → Option (List (String × Document) × List Char)
  | 0, _ => none
  | fuel + 1, cs =>
    match skipBlanks cs with
    | '"' :: rest => do
      let (name, rest) ← readText rest
      match skipBlanks rest with
      | ':' :: more =>
        let (value, rest) ← readValue fuel more
        match skipBlanks rest with
        | ',' :: more =>
          let (fields, rest) ← readFields fuel more
          if fields.any fun f => f.1 == name then return (fields, rest)
          else return ((name, value) :: fields, rest)
        | '}' :: more => return ([(name, value)], more)
        | _ => none
      | _ => none
    | _ => none

end

/-- The document written in a text. -/
def read? (s : String) : Option Document := do
  let (value, rest) ← readValue (2 * s.length + 2) s.toList
  if (skipBlanks rest).isEmpty then some value else none

/-! ## Writing -/

/-- A character inside quotes. -/
def escape (c : Char) : List Char :=
  if c == '"' then ['\\', '"']
  else if c == '\\' then ['\\', '\\']
  else if c.toNat < 32 then
    ['\\', 'u', '0', '0', Nat.digitChar (c.toNat / 16), Nat.digitChar (c.toNat % 16)]
  else [c]

/-- A text between quotes. -/
def quote (s : String) : String := "\"" ++ String.ofList (s.toList.flatMap escape) ++ "\""

mutual

/-- The text of a document. -/
def write : Document → String
  | .null => "null"
  | .bool b => if b then "true" else "false"
  | .int n => toString n
  | .real text => text
  | .text s => quote s
  | .list items => "[" ++ ",".intercalate (writeItems items) ++ "]"
  | .object fields => "\x7b" ++ ",".intercalate (writeFields fields) ++ "\x7d"

/-- The texts of the members of a list. -/
def writeItems : List Document → List String
  | [] => []
  | d :: rest => write d :: writeItems rest

/-- The texts of the fields of an object. -/
def writeFields : List (String × Document) → List String
  | [] => []
  | (name, d) :: rest => (quote name ++ ":" ++ write d) :: writeFields rest

end

end Json
end Assessment
