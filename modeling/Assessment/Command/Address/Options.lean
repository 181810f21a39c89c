import Assessment.Command.Address.Login
import Assessment.Number.Integer

/-!
# Options of an address

The options of an address are names with values.  Each name that is known takes values of one form,
names being compared in lower case.  No name may be repeated in any spelling, except that of the tags,
so an option has one value.

Beyond its form an option may clash with others; the rules under which options agree do not depend on
the order in which they are given.
-/

namespace Assessment
namespace Address

/-! ## Forms of values -/

/-- What the value of an option may be. -/
inductive ValueForm
  /-- `true` or `false`. -/
  | truth
  /-- A whole number from zero to a limit. -/
  | amount (limit : Nat)
  /-- Any text. -/
  | anything
  /-- One of some words, in any case. -/
  | word (words : List String)
  /-- The name of a mechanism of logging in. -/
  | mechanism
  /-- A number of seconds, or -1 for none. -/
  | seconds
  /-- A number of servers, or the name of a rule. -/
  | servers
  /-- Nothing, or words separated by commas that each have a colon. -/
  | tags
  /-- Properties separated by commas. -/
  | properties
  deriving Repr, DecidableEq

/-- The options with the forms of their values. -/
def optionForms : List (String × ValueForm) :=
  [("appname", .anything), ("authmechanism", .mechanism),
   ("authmechanismproperties", .properties), ("authsource", .anything),
   ("connecttimeoutms", .amount Number.max64), ("directconnection", .truth),
   ("enableoverloadretargeting", .truth), ("heartbeatfrequencyms", .amount Number.max64),
   ("journal", .truth), ("loadbalanced", .truth), ("localthresholdms", .amount Number.max64),
   ("maxadaptiveretries", .amount Number.max32), ("maxconnecting", .amount Number.max32),
   ("maxidletimems", .amount Number.max64), ("maxpoolsize", .amount Number.max32),
   ("maxstalenessseconds", .seconds), ("minpoolsize", .amount Number.max32),
   ("readconcernlevel", .anything),
   ("readpreference",
     .word ["primary", "primarypreferred", "secondary", "secondarypreferred", "nearest"]),
   ("readpreferencetags", .tags), ("replicaset", .anything), ("retryreads", .truth),
   ("retrywrites", .truth), ("servermonitoringmode", .word ["stream", "poll", "auto"]),
   ("serverselectiontimeoutms", .amount Number.max64), ("ssl", .truth), ("tls", .truth),
   ("tlsallowinvalidcertificates", .truth), ("tlsinsecure", .truth),
   ("uuidrepresentation", .word ["csharplegacy", "javalegacy", "pythonlegacy"]),
   ("w", .servers), ("wtimeoutms", .amount Number.max64)]

/-- A number of servers; nothing for the name of a rule. -/
def serverCount? (value : String) : Option Int := Number.readInt? (-2147483648) 2147483647 value

/-- Whether a value is of a form. -/
def ValueForm.accepts (value : String) : ValueForm → Bool
  | truth => value == "true" || value == "false"
  | amount limit => (Number.readNat? limit value).isSome
  | anything => true
  | word words => words.contains (Text.lower value)
  | mechanism => (Mechanism.ofName? value).isSome
  | seconds => (Number.readInt64? value).any (-1 ≤ ·)
  | servers => (serverCount? value).all (0 ≤ ·)
  | tags => value == "" || (Text.pieces ',' value.toList).all (·.contains ':')
  | properties => (Mechanism.properties? value).isSome

/-! ## Options and their values -/

/-- The options in their order, under their names in lower case. -/
abbrev Options := List (String × String)

namespace Options

variable (o : Options)

/-- The value of an option. -/
def value? (name : String) : Option String := o.lookup name

/-- Whether an option is given. -/
def has (name : String) : Bool := (o.value? name).isSome

/-- Whether an option is given as true. -/
def isTrue (name : String) : Bool := o.value? name == some "true"

/-- Whether an option is given as false. -/
def isFalse (name : String) : Bool := o.value? name == some "false"

/-- The number that an option gives. -/
def amount? (name : String) : Option Nat := (o.value? name).bind (Number.readNat? Number.max64)

/-- Whether the value of an option is of its form. -/
def isKnown (option : String × String) : Bool :=
  (optionForms.lookup option.1).any (·.accepts option.2)

/-- An option as it is written: a name and an encoded value with an equals sign between them. -/
def pair? (cs : List Char) : Option (List Char × List Char) :=
  match Text.splitFirst '=' cs with
  | (name, some value) => some (name, value)
  | _ => none

/-- The name of an option in lower case. -/
def key (name : List Char) : String := Text.lower (String.ofList name)

/-- The options in a text, provided that each is known. -/
def read? (cs : List Char) : Option Options :=
  if cs.isEmpty then some [] else do
    let pairs ← (Text.pieces '&' cs).mapM pair?
    let o : Options := pairs.map fun p => (key p.1, Text.percentDecode p.2)
    let single := (o.map Prod.fst).filter (· != "readpreferencetags")
    if single.Nodup ∧ o.all isKnown then some o else none

/-! ## Options that clash -/

/-- Whether the options agree on encryption: it is not both on and off, one option at most speaks of
bad certificates, and only where messages may be encrypted. -/
def agreeOnEncryption : Bool :=
  let off := o.isFalse "tls" || o.isFalse "ssl"
  let lenient := o.has "tlsinsecure" || o.has "tlsallowinvalidcertificates"
  !(off && (o.isTrue "tls" || o.isTrue "ssl" || lenient))
  && !(o.has "tlsinsecure" && o.has "tlsallowinvalidcertificates")

/-- How many milliseconds pass between two questions to a server about its state. -/
def heartbeat : Nat := (o.amount? "heartbeatfrequencyms").getD 10000

/-- Whether connections can be kept: there is room for some, and servers are not asked for their state
more often than twice a second. -/
def agreeOnConnections : Bool :=
  o.amount? "maxpoolsize" != some 0 && o.amount? "maxconnecting" != some 0 && 500 ≤ o.heartbeat

/-- Whether writes make sense: what no server confirms cannot be in its journal. -/
def agreeOnWrites : Bool :=
  !(o.isTrue "journal" && (o.value? "w").bind serverCount? == some 0)

/-- How old the data of a server may be, in seconds, when there is a limit. -/
def staleness? : Option Nat :=
  (((o.value? "maxstalenessseconds").bind Number.readInt64?).filter (0 ≤ ·)).map Int.toNat

/-- Whether reads make sense: servers are chosen only when it is said that others than the primary may
be read, and the limit on the age of their data leaves ninety seconds, and ten seconds more than pass
between two questions about their state. -/
def agreeOnReads : Bool :=
  let chooses := o.has "readpreferencetags" || o.staleness?.isSome
  let others := (o.value? "readpreference").any fun mode => Text.lower mode != "primary"
  (others || !chooses) && o.staleness?.all fun n => max 90000 (o.heartbeat + 10000) ≤ 1000 * n

/-- Whether the options suit a number of hosts: a direct connection and a load balancer are each one
host, and a balancer hides the servers behind it. -/
def suit (hosts : Nat) : Bool :=
  let direct := o.isTrue "directconnection"
  let balanced := o.isTrue "loadbalanced"
  (hosts ≤ 1 || !(direct || balanced)) && !(balanced && (direct || o.has "replicaset"))

end Options
end Address
end Assessment
