import HfsPlus.Bytes
import HfsPlus.Text.Ascii

/-!
# SHA-256

The digest of a message: the message is padded to whole blocks of 64 bytes, and each block is mixed
into eight 32-bit words in 64 rounds.
-/

namespace HfsPlus.Sha256

/-- The words into which the blocks of a message are mixed. -/
structure State where
  /-- The first word. -/
  a : UInt32
  /-- The second word. -/
  b : UInt32
  /-- The third word. -/
  c : UInt32
  /-- The fourth word. -/
  d : UInt32
  /-- The fifth word. -/
  e : UInt32
  /-- The sixth word. -/
  f : UInt32
  /-- The seventh word. -/
  g : UInt32
  /-- The eighth word. -/
  h : UInt32
deriving DecidableEq, Repr

namespace State

/-- The state before the first block. -/
def start : State where
  a := 0x6A09E667
  b := 0xBB67AE85
  c := 0x3C6EF372
  d := 0xA54FF53A
  e := 0x510E527F
  f := 0x9B05688C
  g := 0x1F83D9AB
  h := 0x5BE0CD19

/-- Word by word, the sums of two states. -/
def add (s t : State) : State where
  a := s.a + t.a
  b := s.b + t.b
  c := s.c + t.c
  d := s.d + t.d
  e := s.e + t.e
  f := s.f + t.f
  g := s.g + t.g
  h := s.h + t.h

/-- The words in order. -/
def words (s : State) : List UInt32 := [s.a, s.b, s.c, s.d, s.e, s.f, s.g, s.h]

end State

/-- A word turned right by `n` bits. -/
def rotateRight (x : UInt32) (n : UInt32) : UInt32 := (x >>> n) ||| (x <<< (32 - n))

/-- The constants of the 64 rounds. -/
def roundConstants : List UInt32 := [
  0x428A2F98, 0x71374491, 0xB5C0FBCF, 0xE9B5DBA5, 0x3956C25B, 0x59F111F1,
  0x923F82A4, 0xAB1C5ED5, 0xD807AA98, 0x12835B01, 0x243185BE, 0x550C7DC3,
  0x72BE5D74, 0x80DEB1FE, 0x9BDC06A7, 0xC19BF174, 0xE49B69C1, 0xEFBE4786,
  0x0FC19DC6, 0x240CA1CC, 0x2DE92C6F, 0x4A7484AA, 0x5CB0A9DC, 0x76F988DA,
  0x983E5152, 0xA831C66D, 0xB00327C8, 0xBF597FC7, 0xC6E00BF3, 0xD5A79147,
  0x06CA6351, 0x14292967, 0x27B70A85, 0x2E1B2138, 0x4D2C6DFC, 0x53380D13,
  0x650A7354, 0x766A0ABB, 0x81C2C92E, 0x92722C85, 0xA2BFE8A1, 0xA81A664B,
  0xC24B8B70, 0xC76C51A3, 0xD192E819, 0xD6990624, 0xF40E3585, 0x106AA070,
  0x19A4C116, 0x1E376C08, 0x2748774C, 0x34B0BCB5, 0x391C0CB3, 0x4ED8AA4A,
  0x5B9CCA4F, 0x682E6FF3, 0x748F82EE, 0x78A5636F, 0x84C87814, 0x8CC70208,
  0x90BEFFFA, 0xA4506CEB, 0xBEF9A3F7, 0xC67178F2]

/-- One round, with the round's constant and the word of the schedule. -/
def round (s : State) (constant word : UInt32) : State :=
  let sum1 := rotateRight s.e 6 ^^^ rotateRight s.e 11 ^^^ rotateRight s.e 25
  let choice := (s.e &&& s.f) ^^^ (~~~s.e &&& s.g)
  let t1 := s.h + sum1 + choice + constant + word
  let sum0 := rotateRight s.a 2 ^^^ rotateRight s.a 13 ^^^ rotateRight s.a 22
  let majority := (s.a &&& s.b) ^^^ (s.a &&& s.c) ^^^ (s.b &&& s.c)
  { a := t1 + sum0 + majority, b := s.a, c := s.b, d := s.c
    e := s.d + t1, f := s.e, g := s.f, h := s.g }

/-- The 32-bit words of a byte string, four bytes each. -/
def wordsOf : Bytes → List UInt32
  | a :: b :: c :: d :: rest => UInt32.ofNat (BigEndian.toNat [a, b, c, d]) :: wordsOf rest
  | _ => []

/-- The next `count` words of a schedule whose last sixteen words are `recent`, oldest first. -/
def extend : (count : Nat) → (recent : List UInt32) → List UInt32
  | 0, _ => []
  | count + 1, recent =>
    let word (i : Nat) := recent.getD i 0
    let sigma0 := rotateRight (word 1) 7 ^^^ rotateRight (word 1) 18 ^^^ (word 1 >>> 3)
    let sigma1 := rotateRight (word 14) 17 ^^^ rotateRight (word 14) 19 ^^^ (word 14 >>> 10)
    let next := word 0 + sigma0 + word 9 + sigma1
    next :: extend count (recent.drop 1 ++ [next])

/-- The 64 words that a block of 64 bytes gives the rounds. -/
def schedule (block : Bytes) : List UInt32 :=
  let words := wordsOf block
  words ++ extend 48 words

/-- Mixes one block into the state. -/
def compress (s : State) (block : Bytes) : State :=
  s.add ((roundConstants.zip (schedule block)).foldl (fun s (k, w) => round s k w) s)

/-- The number of zeros that fill up the last block, between the one bit that ends the message and
the eight bytes of its length. -/
def paddingZeros (length : Nat) : Nat := (119 - length % 64) % 64

/-- The message filled up to whole blocks. -/
def pad (message : Bytes) : Bytes :=
  message ++ 0x80 :: List.replicate (paddingZeros message.length) 0
    ++ BigEndian.ofNat 8 (8 * message.length)

/-- Mixes all whole blocks of a byte string into the state. -/
def compressAll (s : State) (bs : Bytes) : State :=
  let block := bs.take 64
  if block.length = 64 then
    compressAll (compress s block) (bs.drop 64)
  else
    s
termination_by bs.length
decreasing_by
  rename_i h
  simp only [block, List.length_take] at h
  simp only [List.length_drop]
  omega

/-- The 32 bytes of the digest. -/
def digest (message : Bytes) : Bytes :=
  (compressAll .start (pad message)).words.flatMap fun w => BigEndian.ofNat 4 w.toNat

/-- The digest in hexadecimal digits. -/
def hexDigest (message : Bytes) : String :=
  String.join ((digest message).map fun b => Text.hexDigits 2 b.toNat)

/-- The first test vector of the standard. -/
example : hexDigest (Text.Ascii.bytes "abc") =
    "ba7816bf8f01cfea414140de5dae2223b00361a396177a9cb410ff61f20015ad" := by
  decide +kernel

/-- The second one, whose padding takes up a block of its own. -/
example : hexDigest (Text.Ascii.bytes "abcdbcdecdefdefgefghfghighijhijkijkljklmklmnlmnomnopnopq") =
    "248d6a61d20638b8e5c026930c3e6039a33ce45964ff2167f6ecedd419db06c1" := by
  decide +kernel

end HfsPlus.Sha256
