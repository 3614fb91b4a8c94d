import Mathlib.Algebra.Group.Nat.Defs
import Mathlib.Data.List.Basic

namespace Foundation.Sha256

/-- The fractional parts of the cube roots of the first 64 primes. -/
def roundConstants : List Nat := [
  0x428a2f98, 0x71374491, 0xb5c0fbcf, 0xe9b5dba5, 0x3956c25b, 0x59f111f1, 0x923f82a4, 0xab1c5ed5,
  0xd807aa98, 0x12835b01, 0x243185be, 0x550c7dc3, 0x72be5d74, 0x80deb1fe, 0x9bdc06a7, 0xc19bf174,
  0xe49b69c1, 0xefbe4786, 0x0fc19dc6, 0x240ca1cc, 0x2de92c6f, 0x4a7484aa, 0x5cb0a9dc, 0x76f988da,
  0x983e5152, 0xa831c66d, 0xb00327c8, 0xbf597fc7, 0xc6e00bf3, 0xd5a79147, 0x06ca6351, 0x14292967,
  0x27b70a85, 0x2e1b2138, 0x4d2c6dfc, 0x53380d13, 0x650a7354, 0x766a0abb, 0x81c2c92e, 0x92722c85,
  0xa2bfe8a1, 0xa81a664b, 0xc24b8b70, 0xc76c51a3, 0xd192e819, 0xd6990624, 0xf40e3585, 0x106aa070,
  0x19a4c116, 0x1e376c08, 0x2748774c, 0x34b0bcb5, 0x391c0cb3, 0x4ed8aa4a, 0x5b9cca4f, 0x682e6ff3,
  0x748f82ee, 0x78a5636f, 0x84c87814, 0x8cc70208, 0x90befffa, 0xa4506ceb, 0xbef9a3f7, 0xc67178f2]

def rotateRight (word count : Nat) : Nat := (word >>> count ||| word <<< (32 - count)) % 2 ^ 32

/-- The eight chaining words, each below `2 ^ 32`. -/
structure Chain where
  a : Nat
  b : Nat
  c : Nat
  d : Nat
  e : Nat
  f : Nat
  g : Nat
  h : Nat

def Chain.initial : Chain where
  a := 0x6a09e667
  b := 0xbb67ae85
  c := 0x3c6ef372
  d := 0xa54ff53a
  e := 0x510e527f
  f := 0x9b05688c
  g := 0x1f83d9ab
  h := 0x5be0cd19

def Chain.round (chain : Chain) (constant word : Nat) : Chain :=
  let sum1 := rotateRight chain.e 6 ^^^ rotateRight chain.e 11 ^^^ rotateRight chain.e 25
  let choice := (chain.e &&& chain.f) ^^^ ((2 ^ 32 - 1 - chain.e) &&& chain.g)
  let first := chain.h + sum1 + choice + constant + word
  let sum0 := rotateRight chain.a 2 ^^^ rotateRight chain.a 13 ^^^ rotateRight chain.a 22
  let majority := (chain.a &&& chain.b) ^^^ (chain.a &&& chain.c) ^^^ (chain.b &&& chain.c)
  { a := (first + sum0 + majority) % 2 ^ 32
    b := chain.a
    c := chain.b
    d := chain.c
    e := (chain.d + first) % 2 ^ 32
    f := chain.e
    g := chain.f
    h := chain.g }

/-- The window holds the sixteen schedule words that start at the current round. -/
def nextWord (window : List Nat) : Nat :=
  let early := window.getD 1 0
  let late := window.getD 14 0
  let sigma0 := rotateRight early 7 ^^^ rotateRight early 18 ^^^ early >>> 3
  let sigma1 := rotateRight late 17 ^^^ rotateRight late 19 ^^^ late >>> 10
  (window.getD 0 0 + sigma0 + window.getD 9 0 + sigma1) % 2 ^ 32

def rounds : List Nat → List Nat → Chain → Chain
  | [], _, chain => chain
  | constant :: constants, window, chain =>
      rounds constants (window.drop 1 ++ [nextWord window])
        (chain.round constant (window.getD 0 0))

def Chain.add (chain other : Chain) : Chain where
  a := (chain.a + other.a) % 2 ^ 32
  b := (chain.b + other.b) % 2 ^ 32
  c := (chain.c + other.c) % 2 ^ 32
  d := (chain.d + other.d) % 2 ^ 32
  e := (chain.e + other.e) % 2 ^ 32
  f := (chain.f + other.f) % 2 ^ 32
  g := (chain.g + other.g) % 2 ^ 32
  h := (chain.h + other.h) % 2 ^ 32

def compress (chain : Chain) (block : List Nat) : Chain :=
  chain.add (rounds roundConstants block chain)

/-- A big-endian number of the given count of bytes. -/
def bytesOf : Nat → Nat → List UInt8
  | 0, _ => []
  | count + 1, value => UInt8.ofNat (value / 256 ^ count) :: bytesOf count (value % 256 ^ count)

theorem length_bytesOf (count value : Nat) : (bytesOf count value).length = count := by
  induction count generalizing value with
  | zero => rfl
  | succ count ih => simp [bytesOf, ih]

def pad (message : List UInt8) : List UInt8 :=
  message ++ 0x80 :: List.replicate ((119 - message.length % 64) % 64) 0 ++
    bytesOf 8 (8 * message.length)

def words : List UInt8 → List Nat
  | first :: second :: third :: fourth :: rest =>
      (first.toNat * 2 ^ 24 + second.toNat * 2 ^ 16 + third.toNat * 2 ^ 8 + fourth.toNat) ::
        words rest
  | _ => []

/-- One compression for each sixteen words. -/
def compressAll : Nat → List Nat → Chain → Chain
  | 0, _, chain => chain
  | blocks + 1, message, chain =>
      compressAll blocks (message.drop 16) (compress chain (message.take 16))

def Chain.bytes (chain : Chain) : List UInt8 :=
  bytesOf 4 chain.a ++ bytesOf 4 chain.b ++ bytesOf 4 chain.c ++ bytesOf 4 chain.d ++
    bytesOf 4 chain.e ++ bytesOf 4 chain.f ++ bytesOf 4 chain.g ++ bytesOf 4 chain.h

/-- The SHA-256 digest of a message. -/
def digest (message : List UInt8) : List UInt8 :=
  let padded := pad message
  (compressAll (padded.length / 64) (words padded) Chain.initial).bytes

theorem length_digest (message : List UInt8) : (digest message).length = 32 := by
  simp [digest, Chain.bytes, length_bytesOf]

/-- The published digest of the text `abc`. -/
example : digest [0x61, 0x62, 0x63] =
    [0xba, 0x78, 0x16, 0xbf, 0x8f, 0x01, 0xcf, 0xea, 0x41, 0x41, 0x40, 0xde, 0x5d, 0xae, 0x22, 0x23,
     0xb0, 0x03, 0x61, 0xa3, 0x96, 0x17, 0x7a, 0x9c, 0xb4, 0x10, 0xff, 0x61, 0xf2, 0x00, 0x15, 0xad]
    := by
  decide +kernel

end Foundation.Sha256
