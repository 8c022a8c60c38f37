/-!
# The digest SHA-1

Directory names and default module identities are taken from the SHA-1 digest of bytes.

* `Digest.padded` is the message in whole blocks of 64 bytes;
* `Digest.absorb` works one block into the five words of the state;
* `Digest.sha1` is the digest of a message.
-/

namespace AssemblyAtlas
namespace Digest

/-- The five words of the state. -/
structure State where
  a : UInt32
  b : UInt32
  c : UInt32
  d : UInt32
  e : UInt32
deriving DecidableEq

/-- The state before the first block. -/
def State.start : State :=
  ⟨0x67452301, 0xefcdab89, 0x98badcfe, 0x10325476, 0xc3d2e1f0⟩

/-- The word turned left by some bits. -/
def turnLeft (word bits : UInt32) : UInt32 :=
  (word <<< bits) ||| (word >>> (32 - bits))

/-- The bytes of a number, most significant first. -/
def bytesOf : (count : Nat) → Nat → List UInt8
  | 0, _ => []
  | count + 1, n => UInt8.ofNat (n / Nat.pow 256 count) :: bytesOf count n

/-- The number with the given bytes, most significant first. -/
def wordOf (bytes : List UInt8) : UInt32 :=
  bytes.foldl (fun word byte => (word <<< 8) ||| byte.toUInt32) 0

/-- The message, a mark, zeros up to eight bytes before the end of a block, and the message's
length in bits. -/
def padded (message : List UInt8) : List UInt8 :=
  let zeros := (119 - message.length % 64) % 64
  message ++ 0x80 :: List.replicate zeros 0 ++ bytesOf 8 (message.length * 8)

/-- Adds the given number of words to a schedule, whose latest word comes first. -/
def extend : Nat → List UInt32 → List UInt32
  | 0, words => words
  | count + 1, words =>
      let mixed :=
        words.getD 2 0 ^^^ words.getD 7 0 ^^^ words.getD 13 0 ^^^ words.getD 15 0
      extend count (turnLeft mixed 1 :: words)

/-- The eighty words of a block's schedule. -/
def schedule (block : List UInt8) : List UInt32 :=
  let words := (List.range 16).map fun i => wordOf ((block.drop (4 * i)).take 4)
  (extend 64 words.reverse).reverse

/-- One round with its number and its word of the schedule. -/
def State.round (state : State) (word : UInt32 × Nat) : State :=
  let mix :=
    if word.2 < 20 then
      ((state.b &&& state.c) ||| (~~~state.b &&& state.d)) + 0x5a827999
    else if word.2 < 40 then
      (state.b ^^^ state.c ^^^ state.d) + 0x6ed9eba1
    else if word.2 < 60 then
      ((state.b &&& state.c) ||| (state.b &&& state.d) ||| (state.c &&& state.d)) + 0x8f1bbcdc
    else
      (state.b ^^^ state.c ^^^ state.d) + 0xca62c1d6
  ⟨turnLeft state.a 5 + mix + state.e + word.1, state.a, turnLeft state.b 30, state.c, state.d⟩

/-- Works one block into the state. -/
def absorb (state : State) (block : List UInt8) : State :=
  let final := (schedule block).zipIdx.foldl State.round state
  ⟨state.a + final.a, state.b + final.b, state.c + final.c, state.d + final.d,
    state.e + final.e⟩

/-- The given number of blocks of a padded message. -/
def blocks : Nat → List UInt8 → List (List UInt8)
  | 0, _ => []
  | count + 1, bytes => bytes.take 64 :: blocks count (bytes.drop 64)

/-- The twenty bytes of the digest. -/
def sha1 (message : List UInt8) : List UInt8 :=
  let bytes := padded message
  let state := (blocks (bytes.length / 64) bytes).foldl absorb State.start
  [state.a, state.b, state.c, state.d, state.e].flatMap fun word => bytesOf 4 word.toNat

end Digest
end AssemblyAtlas
