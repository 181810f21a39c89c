import Assessment.Command.Address
import Assessment.Command.Ids
import Assessment.Command.Line
import Assessment.Command.Settings
import Assessment.Store.Regrade

/-!
# The program

The program reads its settings, connects to the storage server and runs its command.  This module says
what it does while no server can be reached: each step in front of the command may fail, and reaching
the server always does.
-/

namespace Assessment

/-- Why the program stops before its command. -/
inductive Stop
  /-- The settings, the preferred behaviour or the server, with a message. -/
  | refused (message : String)
  /-- The address of the server cannot be used; what the connection reports is not part of the
  message. -/
  | badAddress
  deriving Repr, DecidableEq

/-- Checks the preferred behaviour and reaches for the server. -/
def connect (preferred : String) : Failure :=
  match Registry.standard.makeArchetypal preferred with
  | .error e => .ofText ("Invalid preferred behaviour: " ++ e.message)
  | .ok _ => .unreachable "MongoDB ping failed"

/-- What the program does. -/
structure ProgramResult where
  exitCode : Nat
  /-- What it prints when it ends well. -/
  output : Option String
  /-- Why it stops, when it was called rightly. -/
  stop : Option Stop
  /-- Whether it warns that the secret is the known one. -/
  knownSecret : Bool
  deriving Repr, DecidableEq

/-- Runs the program with arguments in an environment. -/
def runProgram (ν : Type) [Scalar ν] (args : List String) (env : Environment) : ProgramResult :=
  match (CommandLine.parse args : Request ν) with
  | .print text => ⟨0, some text, none, false⟩
  | .misuse => ⟨2, none, none, false⟩
  | .run _ =>
    let reading := Settings.read env
    match reading.settings with
    | .error message => ⟨1, none, some (.refused message), reading.knownSecret⟩
    | .ok settings =>
      if Address.isUsable settings.serverUri then
        ⟨1, none, some (.refused (connect settings.preferred).message), reading.knownSecret⟩
      else ⟨1, none, some .badAddress, reading.knownSecret⟩

end Assessment
