import Mathlib.Algebra.Group.Nat.Defs
import Mathlib.Tactic.Common

/-- A hash function with digests of 32 bytes. -/
class Sha256 where
  digest : List UInt8 → Vector UInt8 32

namespace sha256

def rotate (n x : Nat) : Nat := (x >>> n ||| x <<< (32 - n)) % 2 ^ 32

def big_sigma0 (x : Nat) : Nat := rotate 2 x ^^^ rotate 13 x ^^^ rotate 22 x

def big_sigma1 (x : Nat) : Nat := rotate 6 x ^^^ rotate 11 x ^^^ rotate 25 x

def small_sigma0 (x : Nat) : Nat := rotate 7 x ^^^ rotate 18 x ^^^ x >>> 3

def small_sigma1 (x : Nat) : Nat := rotate 17 x ^^^ rotate 19 x ^^^ x >>> 10

def choice (x y z : Nat) : Nat := (x &&& y) ^^^ ((2 ^ 32 - 1 - x) &&& z)

def majority (x y z : Nat) : Nat := (x &&& y) ^^^ (x &&& z) ^^^ (y &&& z)

/-- The round constants, one for each of the 64 rounds. -/
def constants : List Nat := [
  0x428a2f98, 0x71374491, 0xb5c0fbcf, 0xe9b5dba5, 0x3956c25b, 0x59f111f1, 0x923f82a4, 0xab1c5ed5,
  0xd807aa98, 0x12835b01, 0x243185be, 0x550c7dc3, 0x72be5d74, 0x80deb1fe, 0x9bdc06a7, 0xc19bf174,
  0xe49b69c1, 0xefbe4786, 0x0fc19dc6, 0x240ca1cc, 0x2de92c6f, 0x4a7484aa, 0x5cb0a9dc, 0x76f988da,
  0x983e5152, 0xa831c66d, 0xb00327c8, 0xbf597fc7, 0xc6e00bf3, 0xd5a79147, 0x06ca6351, 0x14292967,
  0x27b70a85, 0x2e1b2138, 0x4d2c6dfc, 0x53380d13, 0x650a7354, 0x766a0abb, 0x81c2c92e, 0x92722c85,
  0xa2bfe8a1, 0xa81a664b, 0xc24b8b70, 0xc76c51a3, 0xd192e819, 0xd6990624, 0xf40e3585, 0x106aa070,
  0x19a4c116, 0x1e376c08, 0x2748774c, 0x34b0bcb5, 0x391c0cb3, 0x4ed8aa4a, 0x5b9cca4f, 0x682e6ff3,
  0x748f82ee, 0x78a5636f, 0x84c87814, 0x8cc70208, 0x90befffa, 0xa4506ceb, 0xbef9a3f7, 0xc67178f2]

/-- The eight words a block is folded into. -/
structure Words where
  (a b c d e f g h : Nat)

def Words.initial : Words :=
  ⟨0x6a09e667, 0xbb67ae85, 0x3c6ef372, 0xa54ff53a, 0x510e527f, 0x9b05688c, 0x1f83d9ab, 0x5be0cd19⟩

def Words.add (x y : Words) : Words :=
  ⟨(x.a + y.a) % 2 ^ 32, (x.b + y.b) % 2 ^ 32, (x.c + y.c) % 2 ^ 32, (x.d + y.d) % 2 ^ 32,
    (x.e + y.e) % 2 ^ 32, (x.f + y.f) % 2 ^ 32, (x.g + y.g) % 2 ^ 32, (x.h + y.h) % 2 ^ 32⟩

/-- One round for each constant. The message schedule is kept as a window of its
    next sixteen words, and each round appends the word that enters it. -/
def rounds : List Nat → List Nat → Words → Words
  | [], _, w => w
  | k :: ks, window, w =>
    match window with
    | [w0, w1, w2, w3, w4, w5, w6, w7, w8, w9, w10, w11, w12, w13, w14, w15] =>
      let next := (small_sigma1 w14 + w9 + small_sigma0 w1 + w0) % 2 ^ 32
      let t1 := w.h + big_sigma1 w.e + choice w.e w.f w.g + k + w0
      let t2 := big_sigma0 w.a + majority w.a w.b w.c
      rounds ks [w1, w2, w3, w4, w5, w6, w7, w8, w9, w10, w11, w12, w13, w14, w15, next]
        ⟨(t1 + t2) % 2 ^ 32, w.a, w.b, w.c, (w.d + t1) % 2 ^ 32, w.e, w.f, w.g⟩
    | _ => w

def blocks : Nat → List Nat → Words → Words
  | 0, _, w => w
  | n + 1, message, w => blocks n (message.drop 16) (w.add (rounds constants (message.take 16) w))

/-- Four bytes to a word, most significant first. -/
def words : List UInt8 → List Nat
  | a :: b :: c :: d :: rest =>
    (a.toNat * 0x1000000 + b.toNat * 0x10000 + c.toNat * 0x100 + d.toNat) :: words rest
  | _ => []

def big_endian : Nat → Nat → List UInt8
  | 0, _ => []
  | width + 1, n => UInt8.ofNat (n / 256 ^ width) :: big_endian width n

/-- A one bit, zeros up to the last eight bytes of a block, and the length in bits. -/
def pad (input : List UInt8) : List UInt8 :=
  input ++ 0x80 :: List.replicate ((119 - input.length % 64) % 64) 0 ++ big_endian 8 (8 * input.length)

def digest (input : List UInt8) : Vector UInt8 32 :=
  let message := words (pad input)
  let w := blocks (message.length / 16) message .initial
  ⟨([w.a, w.b, w.c, w.d, w.e, w.f, w.g, w.h].flatMap (big_endian 4)).toArray, rfl⟩

/-- The standard function, on which the hash is run; results hold for every
    instance. -/
instance standard : Sha256 := ⟨digest⟩

/-- The standard's test vector for the message of three letters. -/
example : (digest [0x61, 0x62, 0x63]).toList = [
    0xba, 0x78, 0x16, 0xbf, 0x8f, 0x01, 0xcf, 0xea, 0x41, 0x41, 0x40, 0xde, 0x5d, 0xae, 0x22, 0x23,
    0xb0, 0x03, 0x61, 0xa3, 0x96, 0x17, 0x7a, 0x9c, 0xb4, 0x10, 0xff, 0x61, 0xf2, 0x00, 0x15, 0xad] := by
  decide +kernel

end sha256
