/-!
# What operations report

An operation on an attempt or a usage reports two kinds of events besides its result.  *Notices*
tell the usage what has to be stored; *tallies* are counted for monitoring.  Events that happened
stay reported when the operation fails later.
-/

namespace Assessment

/-- A change that storage has to know about. -/
inductive Notice
  /-- A property of the usage itself changed. -/
  | usageModified
  | attemptAdded (slot : Nat)
  | attemptModified (slot : Nat)
  /-- Every stored step of the attempt goes before its steps are written again. -/
  | stepsDeleted (slot : Nat)
  | stepAdded (slot index : Nat)
  deriving Repr, DecidableEq

/-- Something that monitoring counts. -/
inductive Tally
  /-- An action was ruled on by a behaviour. -/
  | acted (behaviour : String) (kept : Bool)
  /-- A submission was refused because its page was out of date. -/
  | outOfSequence
  | started (behaviour : String)
  | regraded (succeeded : Bool)
  | stored (operation : String) (succeeded : Bool)
  deriving Repr, DecidableEq

/-- Who is told of the changes of an attempt. -/
inductive Observer
  /-- Nobody: no notice is heard. -/
  | nobody
  /-- A usage that keeps track of its changes. -/
  | changes
  deriving Repr, DecidableEq

/-- What is heard of what was told. -/
def Observer.heard {α : Type} : Observer → List α → List α
  | nobody, _ => []
  | changes, told => told

/-- A report of an operation. -/
inductive Event
  | notice (n : Notice)
  | tally (t : Tally)
  deriving Repr, DecidableEq

/-- The notice in a report. -/
def Event.notice? : Event → Option Notice
  | .notice n => some n
  | .tally _ => none

/-- The tally in a report. -/
def Event.tally? : Event → Option Tally
  | .notice _ => none
  | .tally t => some t

namespace Tally

/-- A label value between quotes, with backslashes, quotes and line ends escaped. -/
def label (s : String) : String :=
  "\"" ++ String.ofList (s.toList.flatMap fun c =>
    if c == '\\' then ['\\', '\\']
    else if c == '"' then ['\\', '"']
    else if c == '\n' then ['\\', 'n']
    else [c]) ++ "\""

/-- The counter that a tally increases, as monitoring names it. -/
def counter : Tally → String
  | acted behaviour kept =>
    "qengine_question_actions_total\x7bbehaviour=" ++ label behaviour ++ ",outcome="
      ++ label (if kept then "keep" else "discard") ++ "\x7d"
  | outOfSequence => "qengine_out_of_sequence_total"
  | started behaviour =>
    "qengine_attempts_started_total\x7bbehaviour=" ++ label behaviour ++ "\x7d"
  | regraded succeeded =>
    "qengine_regrades_total\x7bstatus=" ++ label (if succeeded then "success" else "error") ++ "\x7d"
  | stored operation succeeded =>
    "qengine_store_operations_total\x7boperation=" ++ label operation ++ ",status="
      ++ label (if succeeded then "success" else "error") ++ "\x7d"

end Tally
end Assessment
