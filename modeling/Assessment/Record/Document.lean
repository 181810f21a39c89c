import Assessment.Data.SortedMap
import Assessment.Scalar

/-!
# Documents

A document is the stored form of a record.  A record is read from an object by the names of its
fields, unknown names being ignored, or from a list by their places.  Whole numbers and other numbers
are told apart: a field for a whole number takes no other, a field for any number takes both.  One of
several named values is read from its name or from an object that has this name and nothing in it.
-/

namespace Assessment

/-- A stored value. -/
inductive Document
  | null
  | bool (b : Bool)
  /-- A number written without point and exponent. -/
  | int (n : Int)
  /-- Any other number, as it is written. -/
  | real (text : String)
  | text (s : String)
  | list (items : List Document)
  | object (fields : List (String × Document))
  deriving Inhabited

namespace Document

/-- A text, or nothing. -/
def ofText? : Option String → Document
  | some s => .text s
  | none => .null

/-- The value under a name in a list of fields. -/
def find? (name : String) (fields : List (String × Document)) : Option Document :=
  (fields.find? fun f => f.1 == name).map Prod.snd

/-! ## Reading values -/

/-- A text. -/
def text? : Document → Option String
  | .text s => some s
  | _ => none

/-- The name of one of several values: a text, or an object with one field, which is null. -/
def name? : Document → Option String
  | .text s => some s
  | .object [(name, .null)] => some name
  | _ => none

/-- A truth value. -/
def bool? : Document → Option Bool
  | .bool b => some b
  | _ => none

/-- A whole number from zero to `limit`. -/
def nat? (limit : Nat) : Document → Option Nat
  | .int n => if 0 ≤ n ∧ n ≤ limit then some n.toNat else none
  | _ => none

/-- A number. -/
def number? {ν : Type} [Scalar ν] : Document → Option ν
  | .int n => some (Scalar.ofLiteral (.decimal (n < 0) n.natAbs 0))
  | .real s => Scalar.read? s
  | _ => none

/-- The members of a list, each read in the same way. -/
def list? {α : Type} (read : Document → Option α) : Document → Option (List α)
  | .list items => items.mapM read
  | _ => none

/-- Named texts. -/
def texts? : Document → Option (SortedMap String String)
  | .object fields =>
    (fields.mapM fun f => (text? f.2).map fun s => (f.1, s)).map SortedMap.ofList
  | _ => none

/-- The document of named texts. -/
def ofTexts (m : SortedMap String String) : Document :=
  .object (m.entries.map fun e => (e.1, .text e.2))

/-- The document of a number. -/
def ofNumber {ν : Type} [Scalar ν] (x : ν) : Document := .real (Scalar.plain x)

/-- The document of a number, or nothing. -/
def ofNumber? {ν : Type} [Scalar ν] : Option ν → Document
  | some x => ofNumber x
  | none => .null

/-- The document of a count. -/
def ofNat (n : Nat) : Document := .int n

end Document

/-- The fields of a record that is being read. -/
structure RecordView where
  fields : List (String × Document)
  /-- Whether the record is an object; otherwise it is a list of its first fields. -/
  named : Bool

namespace RecordView

/-- The fields of a record with these field names. -/
def of? (names : List String) : Document → Option RecordView
  | .object fields => some ⟨fields, true⟩
  | .list items => if items.length ≤ names.length then some ⟨names.zip items, false⟩ else none
  | _ => none

variable {α : Type}

/-- A field that has to be there. -/
def required (v : RecordView) (name : String) (read : Document → Option α) : Option α :=
  (Document.find? name v.fields).bind read

/-- A field with a default. -/
def defaulted (v : RecordView) (name : String) (default : α) (read : Document → Option α) :
    Option α :=
  match Document.find? name v.fields with
  | some d => read d
  | none => some default

/-- Reads something that may be null. -/
def nullable (read : Document → Option α) : Document → Option (Option α)
  | .null => some none
  | d => (read d).map some

/-- A field that may be null or left out. -/
def optional (v : RecordView) (name : String) (read : Document → Option α) : Option (Option α) :=
  v.defaulted name none (nullable read)

/-- A field that may be null, and may be left out of an object. -/
def namedOptional (v : RecordView) (name : String) (read : Document → Option α) :
    Option (Option α) :=
  if v.named then v.optional name read else v.required name (nullable read)

end RecordView
end Assessment
