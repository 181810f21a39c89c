import Assessment.Digest.Hex
import Assessment.Digest.Hmac
import Assessment.Usage.Basic

/-!
# Flags set by checksum

A page can set a flag without its usage being loaded: it holds a checksum that binds the usage, the
slot and the acting person under a secret.  `Usage.setFlagChecked` changes a flag only for the right
checksum.
-/

namespace Assessment

/-- The message that a flag checksum is made of. -/
def flagMessage (usageId : String) (slot : Nat) (actor : String) : String :=
  "qaid" ++ usageId ++ ":" ++ slot.repr ++ "_user" ++ actor

/-- The keyed digest of a flag. -/
def flagDigest (secret usageId : String) (slot : Nat) (actor : String) : Digest.Bytes :=
  Digest.hmac secret.toUTF8.toList (flagMessage usageId slot actor).toUTF8.toList

/-- The checksum that lets `actor` change the flag in a slot. -/
def flagChecksum (secret usageId : String) (slot : Nat) (actor : String) : String :=
  Digest.hex (flagDigest secret usageId slot actor)

/-- Whether a checksum is the right one. -/
def verifiesFlag (secret usageId : String) (slot : Nat) (actor checksum : String) : Bool :=
  match Digest.unhex? checksum with
  | some bytes => bytes == flagDigest secret usageId slot actor
  | none => false

namespace Usage

variable {ν : Type}

/-- Sets or lowers a flag on behalf of a page that holds a checksum.  The value says whether the
checksum is right. -/
def setFlagChecked [Scalar ν] (slot : Nat) (flagged : Bool) (secret actor checksum : String) :
    Op Fault (Usage ν) Bool := fun u =>
  match u.attempts.get? slot with
  | none => ⟨.error (.unknownSlot slot), u, []⟩
  | some _ =>
    if verifiesFlag secret u.id.text slot actor checksum then
      Op.bind (setFlag slot flagged) (fun _ => Op.pure true) u
    else ⟨.ok false, u, []⟩

end Usage
end Assessment
