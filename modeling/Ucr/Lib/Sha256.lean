import Mathlib.Algebra.Group.Nat.Defs

-- SHA-256 on byte lists. Words are natural numbers below `2 ^ 32`, so that a digest of a concrete
-- message can be evaluated.

structure Digest where
  bytes     : List UInt8
  length_eq : bytes.length = 32
deriving DecidableEq

namespace Sha256

def wordMask : ℕ := 2 ^ 32

def rotr (n x : ℕ) : ℕ :=
  ((x >>> n) ||| (x <<< (32 - n))) % wordMask

def complement (x : ℕ) : ℕ :=
  wordMask - 1 - x

def bigSigma0 (x : ℕ) : ℕ := rotr 2 x ^^^ rotr 13 x ^^^ rotr 22 x
def bigSigma1 (x : ℕ) : ℕ := rotr 6 x ^^^ rotr 11 x ^^^ rotr 25 x
def smallSigma0 (x : ℕ) : ℕ := rotr 7 x ^^^ rotr 18 x ^^^ (x >>> 3)
def smallSigma1 (x : ℕ) : ℕ := rotr 17 x ^^^ rotr 19 x ^^^ (x >>> 10)
def choose (x y z : ℕ) : ℕ := (x &&& y) ^^^ (complement x &&& z)
def majority (x y z : ℕ) : ℕ := (x &&& y) ^^^ (x &&& z) ^^^ (y &&& z)

def roundConstants : List ℕ :=
  [0x428a2f98, 0x71374491, 0xb5c0fbcf, 0xe9b5dba5, 0x3956c25b, 0x59f111f1, 0x923f82a4, 0xab1c5ed5,
   0xd807aa98, 0x12835b01, 0x243185be, 0x550c7dc3, 0x72be5d74, 0x80deb1fe, 0x9bdc06a7, 0xc19bf174,
   0xe49b69c1, 0xefbe4786, 0x0fc19dc6, 0x240ca1cc, 0x2de92c6f, 0x4a7484aa, 0x5cb0a9dc, 0x76f988da,
   0x983e5152, 0xa831c66d, 0xb00327c8, 0xbf597fc7, 0xc6e00bf3, 0xd5a79147, 0x06ca6351, 0x14292967,
   0x27b70a85, 0x2e1b2138, 0x4d2c6dfc, 0x53380d13, 0x650a7354, 0x766a0abb, 0x81c2c92e, 0x92722c85,
   0xa2bfe8a1, 0xa81a664b, 0xc24b8b70, 0xc76c51a3, 0xd192e819, 0xd6990624, 0xf40e3585, 0x106aa070,
   0x19a4c116, 0x1e376c08, 0x2748774c, 0x34b0bcb5, 0x391c0cb3, 0x4ed8aa4a, 0x5b9cca4f, 0x682e6ff3,
   0x748f82ee, 0x78a5636f, 0x84c87814, 0x8cc70208, 0x90befffa, 0xa4506ceb, 0xbef9a3f7, 0xc67178f2]

structure Registers where
  a : ℕ
  b : ℕ
  c : ℕ
  d : ℕ
  e : ℕ
  f : ℕ
  g : ℕ
  h : ℕ

def initial : Registers where
  a := 0x6a09e667
  b := 0xbb67ae85
  c := 0x3c6ef372
  d := 0xa54ff53a
  e := 0x510e527f
  f := 0x9b05688c
  g := 0x1f83d9ab
  h := 0x5be0cd19

def round (r : Registers) (k w : ℕ) : Registers :=
  let t₁ := (r.h + bigSigma1 r.e + choose r.e r.f r.g + k + w) % wordMask
  let t₂ := (bigSigma0 r.a + majority r.a r.b r.c) % wordMask
  { a := (t₁ + t₂) % wordMask, b := r.a, c := r.b, d := r.c,
    e := (r.d + t₁) % wordMask, f := r.e, g := r.f, h := r.g }

-- The message schedule is a window of sixteen words: every round consumes its first word and
-- appends the word sixteen rounds later.
def slide : List ℕ → List ℕ
  | [w0, w1, w2, w3, w4, w5, w6, w7, w8, w9, w10, w11, w12, w13, w14, w15] =>
    [w1, w2, w3, w4, w5, w6, w7, w8, w9, w10, w11, w12, w13, w14, w15,
     (smallSigma1 w14 + w9 + smallSigma0 w1 + w0) % wordMask]
  | ws => ws

def rounds : List ℕ → List ℕ → Registers → Registers
  | k :: ks, w :: ws, r => rounds ks (slide (w :: ws)) (round r k w)
  | _, _, r => r

def compress (r : Registers) (block : List ℕ) : Registers :=
  let r' := rounds roundConstants block r
  { a := (r.a + r'.a) % wordMask, b := (r.b + r'.b) % wordMask,
    c := (r.c + r'.c) % wordMask, d := (r.d + r'.d) % wordMask,
    e := (r.e + r'.e) % wordMask, f := (r.f + r'.f) % wordMask,
    g := (r.g + r'.g) % wordMask, h := (r.h + r'.h) % wordMask }

def toWords : List UInt8 → List ℕ
  | b0 :: b1 :: b2 :: b3 :: rest =>
    (((b0.toNat * 256 + b1.toNat) * 256 + b2.toNat) * 256 + b3.toNat) :: toWords rest
  | _ => []

def wordBytes (n : ℕ) : List UInt8 :=
  [.ofNat (n / 2 ^ 24), .ofNat (n / 2 ^ 16), .ofNat (n / 2 ^ 8), .ofNat n]

def pad (message : List UInt8) : List UInt8 :=
  let bits := 8 * message.length
  let zeros := (119 - message.length % 64) % 64
  message ++ 0x80 :: (List.replicate zeros 0 ++ wordBytes (bits / wordMask) ++ wordBytes bits)

-- Absorbs the padded message sixteen words at a time.
def absorb : ℕ → List ℕ → Registers → Registers
  | 0, _, r => r
  | blocks + 1, ws, r => absorb blocks (ws.drop 16) (compress r (ws.take 16))

end Sha256

open Sha256 in
@[irreducible]
def sha256 (message : List UInt8) : Digest :=
  let words := toWords (pad message)
  let r := absorb (words.length / 16) words initial
  { bytes := wordBytes r.a ++ wordBytes r.b ++ wordBytes r.c ++ wordBytes r.d ++ wordBytes r.e ++
      wordBytes r.f ++ wordBytes r.g ++ wordBytes r.h
    length_eq := rfl }

-- The digest of the three letters `abc`.
example :
    (sha256 [0x61, 0x62, 0x63]).bytes =
      [0xba, 0x78, 0x16, 0xbf, 0x8f, 0x01, 0xcf, 0xea, 0x41, 0x41, 0x40, 0xde, 0x5d, 0xae, 0x22, 0x23,
       0xb0, 0x03, 0x61, 0xa3, 0x96, 0x17, 0x7a, 0x9c, 0xb4, 0x10, 0xff, 0x61, 0xf2, 0x00, 0x15, 0xad] := by
  decide +kernel
