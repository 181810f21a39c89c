import Assessment.Number.Integer
import Assessment.Text.Basic
import Assessment.Text.Percent

/-!
# Hosts

A host is a socket file, whose path ends in `.sock`, or a machine with an optional port.  A machine is
called by its name or by a number of version 6 in brackets: eight groups of hexadecimal digits, of
which `::` leaves out one or more that are zero, and of which the last two may be written as four
decimal numbers.
-/

namespace Assessment
namespace Address

/-! ## Numbers of machines -/

/-- Whether a text is one of the numbers from 0 to 255, written without needless zeros. -/
def isOctet (cs : List Char) : Bool :=
  (Number.digits? cs).any fun n => n ≤ 255 && Nat.toDigits 10 n == cs

/-- Whether a text is four numbers with points between them. -/
def isDotted (cs : List Char) : Bool :=
  let octets := Text.pieces '.' cs
  octets.length == 4 && octets.all isOctet

/-- Whether a text is a group: one to four hexadecimal digits. -/
def isGroup (cs : List Char) : Bool :=
  !cs.isEmpty && cs.length ≤ 4 && cs.all fun c => (Digest.hexValue? c).isSome

/-- How many groups some texts are; the last may be dotted, where that is allowed, and counts as
two. -/
def countGroups? (dotted : Bool) : List (List Char) → Option Nat
  | [] => some 0
  | [cs] => if isGroup cs then some 1 else if dotted && isDotted cs then some 2 else none
  | cs :: rest => if isGroup cs then (countGroups? dotted rest).map (· + 1) else none

/-- The texts between colons; an empty text has none. -/
def groups (cs : List Char) : List (List Char) :=
  if cs.isEmpty then [] else Text.pieces ':' cs

/-- What stands before and after the first two colons in a row, if there are any. -/
def splitGap : List Char → List Char × Option (List Char)
  | ':' :: ':' :: rest => ([], some rest)
  | c :: rest => ((c :: (splitGap rest).1), (splitGap rest).2)
  | [] => ([], none)

/-- Whether a text is a number of version 6. -/
def isMachineNumber (cs : List Char) : Bool :=
  match splitGap cs with
  | (all, none) => countGroups? true (groups all) == some 8
  | (before, some after) =>
    match countGroups? false (groups before), countGroups? true (groups after) with
    | some m, some n => m + n ≤ 7
    | _, _ => false

/-! ## Hosts -/

/-- Where a server listens. -/
inductive Host
  /-- At a socket file. -/
  | socket (path : String)
  /-- On a machine, at a port if one is given. -/
  | machine (name : String) (port : Option Nat)
  deriving Repr, DecidableEq

/-- A port: a number from 1 to 65535. -/
def port? (cs : List Char) : Option Nat :=
  (Number.readNat? 65535 (String.ofList cs)).filter (0 < ·)

namespace Host

/-- A machine under a name, with the text of its port. -/
def machine? (name : List Char) : Option (List Char) → Option Host
  | none => some (machine (String.ofList name) none)
  | some cs => (port? cs).map fun n => machine (String.ofList name) (some n)

/-- The host that a text names. -/
def read? (cs : List Char) : Option Host :=
  if ".sock".toList.isSuffixOf cs then (Text.percentDecode? cs).map socket
  else match cs with
    | '[' :: rest =>
      match Text.splitFirst ']' rest with
      | (number, some []) => if isMachineNumber number then machine? number none else none
      | (number, some (':' :: port)) =>
        if isMachineNumber number then machine? number (some port) else none
      | _ => none
    | _ =>
      let (name, port) := Text.splitFirst ':' cs
      if name.isEmpty then none else machine? name port

end Host
end Address
end Assessment
