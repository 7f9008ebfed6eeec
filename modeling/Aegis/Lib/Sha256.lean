/-
  Aegis.Lib.Sha256

  SHA-256 on lists of bytes: padding, the message schedule and the compression
  function, in the form in which the kernel can evaluate a digest.
-/

import Mathlib.Algebra.Order.Ring.Int

namespace Aegis.Lib.Sha256

abbrev Word := BitVec 32

/-- The eight working variables. -/
structure Working where
  a : Word
  b : Word
  c : Word
  d : Word
  e : Word
  f : Word
  g : Word
  h : Word
deriving DecidableEq, Repr

def initial : Working where
  a := 0x6a09e667
  b := 0xbb67ae85
  c := 0x3c6ef372
  d := 0xa54ff53a
  e := 0x510e527f
  f := 0x9b05688c
  g := 0x1f83d9ab
  h := 0x5be0cd19

def roundConstants : List Word :=
  [0x428a2f98, 0x71374491, 0xb5c0fbcf, 0xe9b5dba5, 0x3956c25b, 0x59f111f1, 0x923f82a4, 0xab1c5ed5,
   0xd807aa98, 0x12835b01, 0x243185be, 0x550c7dc3, 0x72be5d74, 0x80deb1fe, 0x9bdc06a7, 0xc19bf174,
   0xe49b69c1, 0xefbe4786, 0x0fc19dc6, 0x240ca1cc, 0x2de92c6f, 0x4a7484aa, 0x5cb0a9dc, 0x76f988da,
   0x983e5152, 0xa831c66d, 0xb00327c8, 0xbf597fc7, 0xc6e00bf3, 0xd5a79147, 0x06ca6351, 0x14292967,
   0x27b70a85, 0x2e1b2138, 0x4d2c6dfc, 0x53380d13, 0x650a7354, 0x766a0abb, 0x81c2c92e, 0x92722c85,
   0xa2bfe8a1, 0xa81a664b, 0xc24b8b70, 0xc76c51a3, 0xd192e819, 0xd6990624, 0xf40e3585, 0x106aa070,
   0x19a4c116, 0x1e376c08, 0x2748774c, 0x34b0bcb5, 0x391c0cb3, 0x4ed8aa4a, 0x5b9cca4f, 0x682e6ff3,
   0x748f82ee, 0x78a5636f, 0x84c87814, 0x8cc70208, 0x90befffa, 0xa4506ceb, 0xbef9a3f7, 0xc67178f2]

/-- The next word of the schedule, from the words so far, newest first. -/
def nextWord (ws : List Word) : Word :=
  let x := ws.getD 14 0
  let y := ws.getD 1 0
  (y.rotateRight 17 ^^^ y.rotateRight 19 ^^^ (y >>> 10)) + ws.getD 6 0
    + (x.rotateRight 7 ^^^ x.rotateRight 18 ^^^ (x >>> 3)) + ws.getD 15 0

def extend : Nat → List Word → List Word
  | 0, ws => ws
  | n + 1, ws => extend n (nextWord ws :: ws)

/-- One round, with its constant and its word of the schedule. -/
def round (x : Working) (kw : Word × Word) : Working :=
  let s1 := x.e.rotateRight 6 ^^^ x.e.rotateRight 11 ^^^ x.e.rotateRight 25
  let choice := (x.e &&& x.f) ^^^ (~~~x.e &&& x.g)
  let t1 := x.h + s1 + choice + kw.1 + kw.2
  let s0 := x.a.rotateRight 2 ^^^ x.a.rotateRight 13 ^^^ x.a.rotateRight 22
  let majority := (x.a &&& x.b) ^^^ (x.a &&& x.c) ^^^ (x.b &&& x.c)
  { a := t1 + (s0 + majority), b := x.a, c := x.b, d := x.c
    e := x.d + t1, f := x.e, g := x.f, h := x.g }

def compress (x : Working) (block : List Word) : Working :=
  let y := (roundConstants.zip (extend 48 block.reverse).reverse).foldl round x
  { a := x.a + y.a, b := x.b + y.b, c := x.c + y.c, d := x.d + y.d
    e := x.e + y.e, f := x.f + y.f, g := x.g + y.g, h := x.h + y.h }

def bigEndian (width n : Nat) : List UInt8 :=
  (List.range width).reverse.map fun i => UInt8.ofNat (n / 256 ^ i)

/-- The message, a one bit, zeros, and the length in bits. -/
def pad (message : List UInt8) : List UInt8 :=
  message ++ 0x80 :: List.replicate ((119 - message.length % 64) % 64) 0
    ++ bigEndian 8 (8 * message.length)

def words : List UInt8 → List Word
  | a :: b :: c :: d :: rest =>
      BitVec.ofNat 32 (((a.toNat * 256 + b.toNat) * 256 + c.toNat) * 256 + d.toNat) :: words rest
  | _ => []

/-- The compression of successive blocks of sixteen words. -/
def blocks (x : Working) : Nat → List Word → Working
  | 0, _ => x
  | n + 1, ws => blocks (compress x (ws.take 16)) n (ws.drop 16)

/-- The digest. -/
def sum256 (message : List UInt8) : List UInt8 :=
  let ws := words (pad message)
  let x := blocks initial (ws.length / 16) ws
  [x.a, x.b, x.c, x.d, x.e, x.f, x.g, x.h].flatMap fun w => bigEndian 4 w.toNat

/-- The digest of `abc`. -/
example : sum256 [0x61, 0x62, 0x63] =
    [0xba, 0x78, 0x16, 0xbf, 0x8f, 0x01, 0xcf, 0xea, 0x41, 0x41, 0x40, 0xde, 0x5d, 0xae, 0x22, 0x23,
     0xb0, 0x03, 0x61, 0xa3, 0x96, 0x17, 0x7a, 0x9c, 0xb4, 0x10, 0xff, 0x61, 0xf2, 0x00, 0x15, 0xad]
    := by decide +kernel

end Aegis.Lib.Sha256
