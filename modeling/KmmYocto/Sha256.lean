import Mathlib

/-!
# SHA-256

The digest of a list of bytes, as `sha256sum` prints it.  Words are natural
numbers below 2^32.
-/

namespace KmmYocto.Sha256

/-- The round constants. -/
def constants : List Nat :=
  [0x428a2f98, 0x71374491, 0xb5c0fbcf, 0xe9b5dba5, 0x3956c25b, 0x59f111f1,
    0x923f82a4, 0xab1c5ed5, 0xd807aa98, 0x12835b01, 0x243185be, 0x550c7dc3,
    0x72be5d74, 0x80deb1fe, 0x9bdc06a7, 0xc19bf174, 0xe49b69c1, 0xefbe4786,
    0x0fc19dc6, 0x240ca1cc, 0x2de92c6f, 0x4a7484aa, 0x5cb0a9dc, 0x76f988da,
    0x983e5152, 0xa831c66d, 0xb00327c8, 0xbf597fc7, 0xc6e00bf3, 0xd5a79147,
    0x06ca6351, 0x14292967, 0x27b70a85, 0x2e1b2138, 0x4d2c6dfc, 0x53380d13,
    0x650a7354, 0x766a0abb, 0x81c2c92e, 0x92722c85, 0xa2bfe8a1, 0xa81a664b,
    0xc24b8b70, 0xc76c51a3, 0xd192e819, 0xd6990624, 0xf40e3585, 0x106aa070,
    0x19a4c116, 0x1e376c08, 0x2748774c, 0x34b0bcb5, 0x391c0cb3, 0x4ed8aa4a,
    0x5b9cca4f, 0x682e6ff3, 0x748f82ee, 0x78a5636f, 0x84c87814, 0x8cc70208,
    0x90befffa, 0xa4506ceb, 0xbef9a3f7, 0xc67178f2]

/-- The words before the first block. -/
def initial : List Nat :=
  [0x6a09e667, 0xbb67ae85, 0x3c6ef372, 0xa54ff53a, 0x510e527f, 0x9b05688c,
    0x1f83d9ab, 0x5be0cd19]

def rotateRight (word count : Nat) : Nat :=
  word / 2 ^ count + word % 2 ^ count * 2 ^ (32 - count)

/-- More words of the schedule, newest first. -/
def schedule : Nat → List Nat → List Nat
  | 0, words => words
  | left + 1, words =>
      let early := words.getD 14 0
      let late := words.getD 1 0
      let s0 := rotateRight early 7 ^^^ rotateRight early 18 ^^^ early / 2 ^ 3
      let s1 := rotateRight late 17 ^^^ rotateRight late 19 ^^^ late / 2 ^ 10
      let next := words.getD 15 0 + s0 + words.getD 6 0 + s1
      schedule left (next % 2 ^ 32 :: words)

/-- One round on the words a to h; the input is a constant plus a word. -/
def round (state : List Nat) (input : Nat) : List Nat :=
  match state with
  | [a, b, c, d, e, f, g, h] =>
      let s1 := rotateRight e 6 ^^^ rotateRight e 11 ^^^ rotateRight e 25
      let choice := (e &&& f) ^^^ ((2 ^ 32 - 1 - e) &&& g)
      let first := h + s1 + choice + input
      let s0 := rotateRight a 2 ^^^ rotateRight a 13 ^^^ rotateRight a 22
      let majority := (a &&& b) ^^^ (a &&& c) ^^^ (b &&& c)
      [(first + s0 + majority) % 2 ^ 32, a, b, c, (d + first) % 2 ^ 32, e, f, g]
  | _ => state

/-- The big-endian words of a block. -/
def blockWords : List UInt8 → List Nat
  | a :: b :: c :: d :: rest =>
      (a.toNat * 2 ^ 24 + b.toNat * 2 ^ 16 + c.toNat * 2 ^ 8 + d.toNat) ::
        blockWords rest
  | _ => []

/-- The compression of one block. -/
def compress (state : List Nat) (block : List UInt8) : List Nat :=
  let words := (schedule 48 (blockWords block).reverse).reverse
  let rounds := (List.zipWith (· + ·) constants words).foldl round state
  List.zipWith (fun old new => (old + new) % 2 ^ 32) state rounds

def blocks : Nat → List Nat → List UInt8 → List Nat
  | 0, state, _ => state
  | count + 1, state, bytes =>
      blocks count (compress state (bytes.take 64)) (bytes.drop 64)

def bigEndian : Nat → Nat → List UInt8
  | 0, _ => []
  | count + 1, value => bigEndian count (value / 2 ^ 8) ++ [value.toUInt8]

/-- The message with its padding, whole blocks of 64 bytes. -/
def padded (bytes : List UInt8) : List UInt8 :=
  bytes ++ 0x80 :: List.replicate ((119 - bytes.length % 64) % 64) 0 ++
    bigEndian 8 (8 * bytes.length)

def hexByte (byte : UInt8) : List Char :=
  [Nat.digitChar (byte.toNat / 16), Nat.digitChar (byte.toNat % 16)]

/-- The digest in hexadecimal. -/
def hexDigest (bytes : List UInt8) : String :=
  let message := padded bytes
  let words := blocks (message.length / 64) initial message
  String.ofList (words.flatMap fun word => (bigEndian 4 word).flatMap hexByte)

example :
    hexDigest [0x61, 0x62, 0x63] =
      "ba7816bf8f01cfea414140de5dae2223b00361a396177a9cb410ff61f20015ad" := by
  decide +kernel

end KmmYocto.Sha256
