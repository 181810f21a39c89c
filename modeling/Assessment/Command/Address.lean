import Assessment.Command.Address.Host
import Assessment.Command.Address.Options

/-!
# Server addresses

The address of a storage server: `mongodb://`, a login before an `@` if there is one, hosts separated
by commas, and perhaps a database after a `/` and options after a `?`.  `Address.read?` takes an
address apart, and `Address.isUsable` says whether one can be used at all; whether a server answers
there is another question.  An address that has to be looked up in a directory cannot be used, because
the directory cannot be reached.

The rules are those of the client that the program hands the address to.  They stand here because the
program stops in one of two ways depending on them; nothing else in the library asks about addresses.
-/

namespace Assessment

open Address in
/-- An address of a server. -/
structure Address where
  login : Option Login
  hosts : List Host
  database : Option String
  options : Options
  deriving Repr, DecidableEq

namespace Address

/-- Whether a database can have a name. -/
def isDatabaseName (name : String) : Bool :=
  !name.toList.any fun c => ['/', '\\', ' ', '"', '$'].contains c

/-- The name of a database; an empty one is none. -/
def database? (cs : List Char) : Option (Option String) :=
  if cs.isEmpty then some none
  else ((Text.percentDecode? cs).filter isDatabaseName).map some

/-- The parts of an address. -/
def read? (address : String) : Option Address := do
  let rest ← Text.afterPrefix? "mongodb://" address
  let (place, options) := Text.splitFirst '?' rest.toList
  let (user, place) := Text.splitLast '@' place
  let (hosts, database) := Text.splitFirst '/' place
  return {
    login := ← user.mapM Login.read?
    hosts := ← (Text.pieces ',' hosts).mapM Host.read?
    database := ← database? (database.getD [])
    options := ← Options.read? (options.getD []) }

/-- Whether the login, if there is one, is possible: the place where users are known is not empty, and
a mechanism accepts the login or, where none is chosen, there is a user name. -/
def hasPossibleLogin (a : Address) : Bool :=
  let source := a.options.value? "authsource"
  source != some "" && match (a.options.value? "authmechanism").bind Mechanism.ofName? with
    | some mechanism =>
      mechanism.accepts (a.login.getD ⟨none, none⟩) source
        (((a.options.value? "authmechanismproperties").bind Mechanism.properties?).getD [])
    | none => a.login.all fun l => l.username.isSome

/-- Whether the parts of an address make sense together. -/
def isConsistent (a : Address) : Bool :=
  a.options.suit a.hosts.length && a.options.agreeOnEncryption && a.options.agreeOnConnections
  && a.options.agreeOnWrites && a.options.agreeOnReads && a.hasPossibleLogin

/-- Whether an address can be used. -/
def isUsable (address : String) : Bool := (read? address).any isConsistent

end Address
end Assessment
