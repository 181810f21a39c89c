import Assessment.Command.Program

/-!
# Running the program

The outer layer: arguments and environment variables in, text and exit code out.
-/

open Assessment

/-- The environment variables that settings are read from. -/
def settingNames : List String :=
  ["APP_ENV", "MONGO_URI", "MONGO_DATABASE", "FLAG_SECRET", "PREFERRED_BEHAVIOUR",
   "REGRADE_BATCH_SIZE", "APP__DATABASE__MONGO_URI", "APP__DATABASE__MONGO_DATABASE",
   "APP__ENGINE__FLAG_SECRET", "APP__ENGINE__PREFERRED_BEHAVIOUR",
   "APP__ENGINE__REGRADE_BATCH_SIZE"]

def main (args : List String) : IO UInt32 := do
  let env ← settingNames.filterMapM fun name => do
    return (← IO.getEnv name).map fun value => (name, value)
  let result := runProgram Float args env
  if result.knownSecret then
    IO.eprintln "WARNING: Using default FLAG_SECRET (dev mode only!)"
  match result.output with
  | some text => IO.print text
  | none => pure ()
  match result.stop with
  | some (.refused message) => IO.eprintln ("Error: " ++ message)
  | some .badAddress => IO.eprintln "Error: invalid server address"
  | none => pure ()
  return result.exitCode.toUInt32
