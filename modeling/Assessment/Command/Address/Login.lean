import Assessment.Text.Basic
import Assessment.Text.Percent

/-!
# Logging in

An address may hold a user name and a password, and it may choose the mechanism of logging in.  Each
mechanism has its own demands on what is given (`Mechanism.accepts`).
-/

namespace Assessment
namespace Address

/-! ## User names and passwords -/

/-- What an address says about the user. -/
structure Login where
  username : Option String
  password : Option String
  deriving Repr, DecidableEq

namespace Login

/-- A user name or a password.  The characters that separate parts of an address have to be
encoded. -/
def part? (cs : List Char) : Option String :=
  if cs.any ":/?#[]@".toList.contains || !Text.isPercentEncoded cs then none
  else Text.percentDecode? cs

/-- The login in a text: a user name, and a password after a colon.  Where the user name is empty
there is neither. -/
def read? (cs : List Char) : Option Login := do
  let (name, rest) := Text.splitFirst ':' cs
  if name.isEmpty then return ⟨none, none⟩
  return ⟨some (← part? name), ← rest.mapM part?⟩

end Login

/-! ## Mechanisms -/

/-- The mechanisms of logging in. -/
inductive Mechanism
  /-- Proof of knowing a password. -/
  | challenge
  /-- The mechanism that servers no longer have. -/
  | retired
  /-- A certificate. -/
  | certificate
  /-- A token of an identity provider. -/
  | token
  /-- The password itself. -/
  | plain
  deriving Repr, DecidableEq

namespace Mechanism

/-- The mechanism of a name. -/
def ofName? : String → Option Mechanism
  | "SCRAM-SHA-1" | "SCRAM-SHA-256" => some challenge
  | "MONGODB-CR" => some retired
  | "MONGODB-X509" => some certificate
  | "MONGODB-OIDC" => some token
  | "PLAIN" => some plain
  | _ => none

/-- A property: a name and a value with a colon between them. -/
def property? (cs : List Char) : Option (String × String) :=
  match Text.splitFirst ':' cs with
  | (name, some value) => some (String.ofList name, String.ofList value)
  | _ => none

/-- Whether a property can be given in an address.  Which hosts are allowed cannot be said there, and
what is done to the names of hosts is one of a few words. -/
def allowsProperty (property : String × String) : Bool :=
  property.1 != "ALLOWED_HOSTS"
  && (property.1 != "CANONICALIZE_HOST_NAME"
    || ["none", "forward", "forwardAndReverse", "true", "false"].contains property.2)

/-- The properties that a text lists. -/
def properties? (value : String) : Option (List (String × String)) :=
  ((Text.pieces ',' value.toList).mapM property?).filter (·.all allowsProperty)

/-- Whether the properties of a token make sense: they are an environment and a resource at most, the
environment is one of three, and a token is made for a resource exactly in the two that need one. -/
def acceptsToken (properties : List (String × String)) : Bool :=
  let environment := properties.reverse.lookup "ENVIRONMENT"
  let resource := (properties.lookup "TOKEN_RESOURCE").isSome
  (properties.all fun p => p.1 == "ENVIRONMENT" || p.1 == "TOKEN_RESOURCE")
  && environment.all ["azure", "gcp", "k8s"].contains
  && resource == environment.any ["azure", "gcp"].contains

/-- Whether a mechanism can be used with a login, the place where users are known and properties. -/
def accepts (login : Login) (source : Option String) (properties : List (String × String)) :
    Mechanism → Bool
  | challenge => login.username.isSome
  | retired => true
  | certificate => login.password.isNone && source.all (· == "$external")
  | token =>
    login.password.isNone && source.all (· == "$external") && acceptsToken properties
  | plain => login.username.isSome && login.password.any (· != "")

end Mechanism

end Address
end Assessment
