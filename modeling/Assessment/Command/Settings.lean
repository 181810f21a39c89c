import Assessment.Number.Integer
import Assessment.Text.Basic
import Assessment.Text.Blank

/-!
# Settings

Settings come from environment variables.  Each has a variable of its own; a variable `APP__A__B` sets
the key `a.b` and wins over it.  A missing secret is replaced by a known one, with a warning, except
in production.
-/

namespace Assessment

/-- Environment variables with their values. -/
abbrev Environment := List (String × String)

/-- How the program is set up. -/
structure Settings where
  serverUri : String
  database : String
  /-- The secret under which flag checksums are made. -/
  flagSecret : String
  preferred : String
  /-- How many usages are regraded at a time. -/
  batchSize : Nat
  deriving Repr, DecidableEq

/-- The outcome of reading the settings. -/
structure SettingsReading where
  settings : Except String Settings
  /-- Whether the secret is the known one, which is worth a warning. -/
  knownSecret : Bool

namespace Environment

/-- The value of a variable. -/
def value? (env : Environment) (name : String) : Option String :=
  (env.find? fun e => e.1 == name).map Prod.snd

/-- A text with a dot for each pair of underscores. -/
def dotted : List Char → List Char
  | '_' :: '_' :: rest => '.' :: dotted rest
  | c :: rest => c :: dotted rest
  | [] => []

/-- The key that a variable sets, if it is of the form `APP__…`, in any case. -/
def key? (name : String) : Option String :=
  match (Text.lower name).toList with
  | 'a' :: 'p' :: 'p' :: '_' :: '_' :: rest => some (String.ofList (dotted rest))
  | _ => none

/-- The value of a key: of several variables that set it, the last one counts. -/
def keyed? (env : Environment) (key : String) : Option String :=
  (env.filter fun e => key? e.1 == some key).getLast?.map Prod.snd

/-- The value of a setting: that of its key, or else that of its variable. -/
def setting? (env : Environment) (key variableName : String) : Option String :=
  (env.keyed? key).or (env.value? variableName)

end Environment

namespace Settings

/-- The secret used when none is set. -/
def knownSecret : String := "dev-flag-secret-only-for-local-testing"

/-- The batch size that a text says; fifty without one. -/
def batchSize? : Option String → Except String Nat
  | none => .ok 50
  | some raw =>
    match Number.readNat? Number.max64 (Text.trim raw) with
    | some n => .ok n
    | none => .error ("Invalid REGRADE_BATCH_SIZE '" ++ raw ++ "'")

/-- What is wrong with settings. -/
def complaints (s : Settings) : List String :=
  (if s.preferred == "" then
    ["preferred_behaviour: Preferred behaviour must not be empty"] else [])
  ++ (if s.batchSize < 1 || 1000 < s.batchSize then
    ["regrade_batch_size: Regrade batch size must be 1-1000"] else [])

/-- The settings, provided that nothing is wrong with them. -/
def checked (s : Settings) : Except String Settings :=
  match s.complaints with
  | [] => .ok s
  | cs => .error ("Invalid engine settings: " ++ "\n".intercalate cs)

/-- The settings in an environment. -/
def read (env : Environment) : SettingsReading :=
  let secret? := env.setting? "engine.flag_secret" "FLAG_SECRET"
  if secret?.isNone && env.value? "APP_ENV" == some "prod" then
    ⟨.error "FLAG_SECRET must be set in production", false⟩
  else
    let settings := do
      let batchSize ← batchSize? (env.setting? "engine.regrade_batch_size" "REGRADE_BATCH_SIZE")
      checked {
        serverUri := (env.setting? "database.mongo_uri" "MONGO_URI").getD
          "mongodb://localhost:27017"
        database := (env.setting? "database.mongo_database" "MONGO_DATABASE").getD
          "trainingground"
        flagSecret := secret?.getD knownSecret
        preferred := (env.setting? "engine.preferred_behaviour" "PREFERRED_BEHAVIOUR").getD
          "deferredfeedback"
        batchSize := batchSize }
    ⟨settings, secret?.isNone⟩

end Settings
end Assessment
