import Assessment.Digest.Sha256

/-!
# Keyed digests

HMAC over SHA-256: a digest of a message that only the holder of a key can make.
-/

namespace Assessment
namespace Digest

/-- A key of one block: a longer key is hashed first, and the rest is filled with zeros. -/
def blockKey (key : Bytes) : Bytes :=
  let key := if 64 < key.length then sha256 key else key
  key ++ List.replicate (64 - key.length) 0

/-- The digest of a message under a key. -/
def hmac (key message : Bytes) : Bytes :=
  let key := blockKey key
  let inner := sha256 (key.map (· ^^^ 0x36) ++ message)
  sha256 (key.map (· ^^^ 0x5c) ++ inner)

@[simp] theorem length_hmac (key message : Bytes) : (hmac key message).length = 32 := by
  simp [hmac]

end Digest
end Assessment
