import Assessment.Fault

/-!
# Failures of stored operations

An operation on stored usages fails for a cause, and each layer that it passed through says what it
was doing at the time.  The message lists these from the outermost layer to the cause.
-/

namespace Assessment

/-- Why a stored operation failed. -/
inductive Cause
  /-- An operation on the usage was refused. -/
  | fault (f : Fault)
  /-- The storage itself refused. -/
  | text (s : String)
  /-- The storage server cannot be reached; what the connection reports is not part of the message. -/
  | unreachable
  deriving Repr, DecidableEq

/-- A cause, and what was being done from the outermost layer inwards. -/
structure Failure where
  contexts : List String
  cause : Cause
  deriving Repr, DecidableEq

namespace Failure

/-- The failure of a refused operation. -/
def ofFault (f : Fault) : Failure := ⟨[], .fault f⟩

/-- A failure with a message of its own. -/
def ofText (s : String) : Failure := ⟨[], .text s⟩

/-- A failure to reach the server while doing something. -/
def unreachable (doing : String) : Failure := ⟨[doing], .unreachable⟩

/-- The failure seen from one layer further out. -/
def within (doing : String) (f : Failure) : Failure := { f with contexts := doing :: f.contexts }

/-- The wording of a failure. -/
def message (f : Failure) : String :=
  ": ".intercalate (f.contexts ++ match f.cause with
    | .fault fault => [fault.message]
    | .text s => [s]
    | .unreachable => [])

end Failure
end Assessment
