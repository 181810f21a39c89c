import Assessment.Attempt.Form
import Assessment.Usage.Basic

/-!
# Submissions

A page submits something for several attempts of a usage at once.  `Batch.ofForm` reads such a batch
out of the flat form that the page posts; `Usage.submit` processes it.  A batch is checked as a whole
before anything is done: every attempt it names has to be started, and every page it comes from has to
be up to date.
-/

namespace Assessment

/-- What was submitted for one slot. -/
structure Submission where
  vars : Vars
  /-- The number of steps that the page was rendered for. -/
  sequenceCheck : Option Nat
  /-- Whether the flag is to be set or lowered. -/
  flagged : Option Bool
  deriving DecidableEq

namespace Submission

/-- Nothing submitted. -/
def empty : Submission := ⟨SortedMap.empty, none, none⟩

end Submission

/-- What was submitted for several slots. -/
structure Batch where
  /-- The slots to process, in this order; every slot of the usage when there is no list. -/
  slots : Option (List Nat)
  submissions : SortedMap Nat Submission
  deriving DecidableEq

namespace Batch

/-- A batch that names no slots. -/
def empty : Batch := ⟨none, SortedMap.empty⟩

/-- What is submitted for a slot. -/
def submission (batch : Batch) (slot : Nat) : Submission :=
  (batch.submissions.get? slot).getD Submission.empty

/-- The batch with what is submitted for a slot changed. -/
def change (batch : Batch) (slot : Nat) (f : Submission → Submission) : Batch :=
  { batch with submissions := batch.submissions.insert slot (f (batch.submission slot)) }

/-- The batch for a list of slots. -/
def withSlots (batch : Batch) (slots : List Nat) : Batch := { batch with slots := some slots }

/-- The batch with variables submitted for a slot. -/
def withVars (batch : Batch) (slot : Nat) (vars : Vars) : Batch :=
  batch.change slot fun s => { s with vars := vars }

/-- The batch from a page that was rendered for a number of steps. -/
def withSequenceCheck (batch : Batch) (slot : Nat) (steps : Nat) : Batch :=
  batch.change slot fun s => { s with sequenceCheck := some steps }

/-- The batch with a flag to set or lower. -/
def withFlag (batch : Batch) (slot : Nat) (flagged : Bool) : Batch :=
  batch.change slot fun s => { s with flagged := some flagged }

/-- The slots whose flag the batch sets or lowers. -/
def flags (batch : Batch) : List (Nat × Bool) :=
  batch.submissions.entries.filterMap fun e => e.2.flagged.map fun flagged => (e.1, flagged)

/-! ## Reading a form -/

/-- The form field that lists slots. -/
def slotsField : String := "slots"

/-- The slots in a list of numbers. -/
def listedSlots (raw cleaned : String) : Except Fault (List Nat) :=
  let pieces := ((Text.pieces ',' cleaned.toList).map Text.trimChars).filter (!·.isEmpty)
  pieces.mapM fun piece =>
    match Number.readNat? Number.max32 (String.ofList piece) with
    | some slot => .ok slot
    | none => .error (.badValue slotsField FieldKind.sequence.name raw)

/-- The usage and the slot in a field name of the shape `q` usage `:` slot `_` rest.  The usage is
not empty and holds no colon, and the slot is made of decimal digits of any script. -/
def fieldOwner? (field : String) : Option (List Char × List Char) :=
  match field.toList with
  | 'q' :: rest =>
    let usage := rest.takeWhile (· != ':')
    match rest.dropWhile (· != ':') with
    | ':' :: more =>
      let slot := more.takeWhile Text.isDigit
      if usage.isEmpty || slot.isEmpty then none
      else if (more.dropWhile Text.isDigit).head? == some '_' then some (usage, slot)
      else none
    | _ => none
  | _ => none

/-- The slot in a field name that belongs to a usage. -/
def fieldSlot? (usageId field : String) : Option Nat :=
  (fieldOwner? field).bind fun owner =>
    if owner.1 == usageId.toList then Number.readNat? Number.max32 (String.ofList owner.2) else none

/-- The slots that have a field in the form, each once and in order. -/
def foundSlots (usageId : String) (form : Form) : List Nat :=
  (SortedSet.ofList (form.keys.filterMap (fieldSlot? usageId))).toList

/-- The slots that a form is about: those it lists, or those that have a field in it. -/
def formSlots (ν : Type) [Scalar ν] (usageId : String) (form : Form) : Except Fault (List Nat) :=
  match form.get? slotsField with
  | some raw => do
    let cleaned ← FieldKind.sequence.clean ν slotsField raw
    listedSlots raw cleaned
  | none => .ok (foundSlots usageId form)

variable {ν : Type} [Scalar ν]

/-- The number of steps in the sequence field of an attempt. -/
def formSequence (a : Attempt ν) (form : Form) : Except Fault (Option Nat) :=
  match form.get? a.sequenceField with
  | none => .ok none
  | some raw => do
    let cleaned ← FieldKind.int.clean ν a.sequenceField raw
    match Number.readNat? Number.max64 cleaned with
    | some steps => .ok (some steps)
    | none => .error (.badValue a.sequenceField FieldKind.int.name raw)

/-- The flag in the flag field of an attempt. -/
def formFlag (a : Attempt ν) (form : Form) : Except Fault (Option Bool) :=
  match form.get? a.flagField with
  | none => .ok none
  | some raw => do
    let cleaned ← FieldKind.bool.clean ν a.flagField raw
    return some (cleaned == "1")

/-- What a form submits for the attempt in a slot. -/
def formSubmission (u : Usage ν) (form : Form) (slot : Nat) : Except Fault Submission := do
  let a ← u.attempt? slot
  let vars ← a.readForm form
  let sequenceCheck ← formSequence a form
  let flagged ← formFlag a form
  return ⟨vars, sequenceCheck, flagged⟩

/-- What a form submits for a list of slots, in order. -/
def formSubmissions (u : Usage ν) (form : Form) : List Nat → Except Fault (List (Nat × Submission))
  | [] => .ok []
  | slot :: rest => do
    let s ← formSubmission u form slot
    let more ← formSubmissions u form rest
    return (slot, s) :: more

/-- The batch that a form submits to a usage. -/
def ofForm (u : Usage ν) (form : Form) : Except Fault Batch := do
  let slots ← formSlots ν u.id.text form
  let submissions ← formSubmissions u form slots
  return ⟨some slots, SortedMap.ofList submissions⟩

end Batch

namespace Usage

variable {ν : Type} [Scalar ν]

/-- The slots that a batch processes. -/
def slotsOf (u : Usage ν) (batch : Batch) : List Nat := batch.slots.getD u.slots

/-- Checks that the attempt in a slot is started and that the page it was submitted from is up to
date. -/
def checkSlot (batch : Batch) (slot : Nat) : Op Fault (Usage ν) Unit := fun u =>
  match u.attempts.get? slot with
  | none => ⟨.error (.unknownSlot slot), u, []⟩
  | some a =>
    match a.behaviour, (batch.submission slot).sequenceCheck with
    | none, _ => ⟨.error .notStarted, u, []⟩
    | some _, none => ⟨.ok (), u, []⟩
    | some _, some steps =>
      let r := Attempt.checkSequence steps a
      ⟨r.result, u, r.events⟩

/-- Checks that there is an attempt in a slot. -/
def checkExists (slot : Nat) : Op Fault (Usage ν) Unit := fun u =>
  ⟨(u.attempt? slot).map fun _ => (), u, []⟩

/-- Checks a batch without doing anything. -/
def checkBatch (batch : Batch) : Op Fault (Usage ν) Unit := fun u =>
  Op.bind (Op.forEach (checkSlot batch) (u.slotsOf batch))
    (fun _ => Op.forEach (fun flag => checkExists flag.1) batch.flags) u

/-- Processes what is submitted for a slot. -/
def submitSlot (batch : Batch) (time : Instant) (actor : Option String) (slot : Nat) :
    Op Fault (Usage ν) Unit :=
  Op.bind (act slot (batch.submission slot).vars time actor) fun _ => Op.pure ()

/-- Processes a batch: checks it, puts the submitted actions to the attempts in the order of the
slots, and then sets the flags. -/
def submit (batch : Batch) (time : Instant) (actor : Option String) :
    Op Fault (Usage ν) Unit := fun u =>
  Op.bind (checkBatch batch) (fun _ =>
    Op.bind (Op.forEach (submitSlot batch time actor) (u.slotsOf batch)) fun _ =>
      Op.forEach (fun flag => setFlag flag.1 flag.2) batch.flags) u

end Usage
end Assessment
