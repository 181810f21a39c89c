/-!
# SHA-256

The hash function SHA-256 on lists of bytes: the message is padded to whole blocks of 64 bytes, and
each block is mixed into a state of eight words.
-/

namespace Assessment
namespace Digest

/-- A list of bytes. -/
abbrev Bytes := List UInt8

/-- The state between two blocks: eight words. -/
structure State256 where
  a : UInt32
  b : UInt32
  c : UInt32
  d : UInt32
  e : UInt32
  f : UInt32
  g : UInt32
  h : UInt32
  deriving DecidableEq

/-- The bits of a word turned right. -/
def turnRight (x : UInt32) (n : UInt32) : UInt32 := (x >>> n) ||| (x <<< (32 - n))

/-- The fractional parts of the cube roots of the first 64 primes. -/
def roundConstants : List UInt32 :=
  [0x428a2f98, 0x71374491, 0xb5c0fbcf, 0xe9b5dba5, 0x3956c25b, 0x59f111f1, 0x923f82a4, 0xab1c5ed5,
   0xd807aa98, 0x12835b01, 0x243185be, 0x550c7dc3, 0x72be5d74, 0x80deb1fe, 0x9bdc06a7, 0xc19bf174,
   0xe49b69c1, 0xefbe4786, 0x0fc19dc6, 0x240ca1cc, 0x2de92c6f, 0x4a7484aa, 0x5cb0a9dc, 0x76f988da,
   0x983e5152, 0xa831c66d, 0xb00327c8, 0xbf597fc7, 0xc6e00bf3, 0xd5a79147, 0x06ca6351, 0x14292967,
   0x27b70a85, 0x2e1b2138, 0x4d2c6dfc, 0x53380d13, 0x650a7354, 0x766a0abb, 0x81c2c92e, 0x92722c85,
   0xa2bfe8a1, 0xa81a664b, 0xc24b8b70, 0xc76c51a3, 0xd192e819, 0xd6990624, 0xf40e3585, 0x106aa070,
   0x19a4c116, 0x1e376c08, 0x2748774c, 0x34b0bcb5, 0x391c0cb3, 0x4ed8aa4a, 0x5b9cca4f, 0x682e6ff3,
   0x748f82ee, 0x78a5636f, 0x84c87814, 0x8cc70208, 0x90befffa, 0xa4506ceb, 0xbef9a3f7, 0xc67178f2]

/-- The fractional parts of the square roots of the first eight primes. -/
def initialState : State256 where
  a := 0x6a09e667
  b := 0xbb67ae85
  c := 0x3c6ef372
  d := 0xa54ff53a
  e := 0x510e527f
  f := 0x9b05688c
  g := 0x1f83d9ab
  h := 0x5be0cd19

/-- The eight bytes of a number of 64 bits, the highest first. -/
def bytesOf64 (n : Nat) : Bytes :=
  [56, 48, 40, 32, 24, 16, 8, 0].map fun shift => UInt8.ofNat (n >>> shift)

/-- The four bytes of a word, the highest first. -/
def bytesOfWord (x : UInt32) : Bytes :=
  ([24, 16, 8, 0] : List UInt32).map fun shift => (x >>> shift).toUInt8

/-- A message with a one bit, zeros and its length in bits, up to a whole number of blocks. -/
def pad (message : Bytes) : Bytes :=
  let zeros := (119 - message.length % 64) % 64
  message ++ 0x80 :: List.replicate zeros 0 ++ bytesOf64 (8 * message.length)

/-- The words of a list of bytes, four bytes to each. -/
def words : Bytes → List UInt32
  | a :: b :: c :: d :: rest =>
    ((a.toUInt32 <<< 24) ||| (b.toUInt32 <<< 16) ||| (c.toUInt32 <<< 8) ||| d.toUInt32) :: words rest
  | _ => []

/-- The word that follows sixteen words of the schedule. -/
def nextWord (w : List UInt32) : UInt32 :=
  let x := w.getD 1 0
  let y := w.getD 14 0
  let s0 := turnRight x 7 ^^^ turnRight x 18 ^^^ (x >>> 3)
  let s1 := turnRight y 17 ^^^ turnRight y 19 ^^^ (y >>> 10)
  w.getD 0 0 + s0 + w.getD 9 0 + s1

/-- One round for each constant.  `w` holds the next sixteen words of the schedule. -/
def rounds : List UInt32 → List UInt32 → State256 → State256
  | [], _, s => s
  | k :: ks, w, s =>
    let s1 := turnRight s.e 6 ^^^ turnRight s.e 11 ^^^ turnRight s.e 25
    let choice := (s.e &&& s.f) ^^^ (~~~s.e &&& s.g)
    let t1 := s.h + s1 + choice + k + w.getD 0 0
    let s0 := turnRight s.a 2 ^^^ turnRight s.a 13 ^^^ turnRight s.a 22
    let majority := (s.a &&& s.b) ^^^ (s.a &&& s.c) ^^^ (s.b &&& s.c)
    let t2 := s0 + majority
    rounds ks (w.drop 1 ++ [nextWord w])
      ⟨t1 + t2, s.a, s.b, s.c, s.d + t1, s.e, s.f, s.g⟩

/-- A block mixed into the state. -/
def mix (s : State256) (block : List UInt32) : State256 :=
  let r := rounds roundConstants block s
  ⟨s.a + r.a, s.b + r.b, s.c + r.c, s.d + r.d, s.e + r.e, s.f + r.f, s.g + r.g, s.h + r.h⟩

/-- A number of blocks of sixteen words mixed into the state. -/
def mixBlocks : Nat → List UInt32 → State256 → State256
  | 0, _, s => s
  | n + 1, ws, s => mixBlocks n (ws.drop 16) (mix s (ws.take 16))

/-- The 32 bytes of a state. -/
def State256.bytes (s : State256) : Bytes :=
  [s.a, s.b, s.c, s.d, s.e, s.f, s.g, s.h].flatMap bytesOfWord

/-- The hash of a message. -/
def sha256 (message : Bytes) : Bytes :=
  let ws := words (pad message)
  (mixBlocks (ws.length / 16) ws initialState).bytes

@[simp] theorem length_sha256 (message : Bytes) : (sha256 message).length = 32 := by
  simp [sha256, State256.bytes, bytesOfWord]

end Digest
end Assessment
