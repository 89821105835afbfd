/-
  Mainflux.Lib.Sha256
  ───────────────────
  **SHA-256 AND HMAC, EXECUTABLE.**

  Words are natural numbers below `2^32`.  Nothing is proved about the hash:
  it is here so that a token can be computed and compared with the one a
  running service prints.
-/
import Mathlib.Algebra.Ring.Nat
import Mathlib.Data.List.Basic

namespace Mainflux.Lib.Sha256

/-! ## §1. Words. -/

def word (n : Nat) : Nat := n % 4294967296

def rotr (x n : Nat) : Nat := (x >>> n) ||| word (x <<< (32 - n))

def not32 (x : Nat) : Nat := x ^^^ 4294967295

/-- The round constants. -/
def roundKeys : List Nat :=
  [0x428a2f98, 0x71374491, 0xb5c0fbcf, 0xe9b5dba5, 0x3956c25b, 0x59f111f1, 0x923f82a4, 0xab1c5ed5,
   0xd807aa98, 0x12835b01, 0x243185be, 0x550c7dc3, 0x72be5d74, 0x80deb1fe, 0x9bdc06a7, 0xc19bf174,
   0xe49b69c1, 0xefbe4786, 0x0fc19dc6, 0x240ca1cc, 0x2de92c6f, 0x4a7484aa, 0x5cb0a9dc, 0x76f988da,
   0x983e5152, 0xa831c66d, 0xb00327c8, 0xbf597fc7, 0xc6e00bf3, 0xd5a79147, 0x06ca6351, 0x14292967,
   0x27b70a85, 0x2e1b2138, 0x4d2c6dfc, 0x53380d13, 0x650a7354, 0x766a0abb, 0x81c2c92e, 0x92722c85,
   0xa2bfe8a1, 0xa81a664b, 0xc24b8b70, 0xc76c51a3, 0xd192e819, 0xd6990624, 0xf40e3585, 0x106aa070,
   0x19a4c116, 0x1e376c08, 0x2748774c, 0x34b0bcb5, 0x391c0cb3, 0x4ed8aa4a, 0x5b9cca4f, 0x682e6ff3,
   0x748f82ee, 0x78a5636f, 0x84c87814, 0x8cc70208, 0x90befffa, 0xa4506ceb, 0xbef9a3f7, 0xc67178f2]

/-- The eight words of the chaining state. -/
structure State where
  a : Nat
  b : Nat
  c : Nat
  d : Nat
  e : Nat
  f : Nat
  g : Nat
  h : Nat

def initial : State :=
  ⟨0x6a09e667, 0xbb67ae85, 0x3c6ef372, 0xa54ff53a, 0x510e527f, 0x9b05688c, 0x1f83d9ab, 0x5be0cd19⟩

/-! ## §2. Compression. -/

/-- The message schedule, latest word first, extended by `n` words. -/
def extend : Nat → List Nat → List Nat
  | 0, ws => ws
  | n + 1, ws =>
      let w2 := ws.getD 1 0
      let w15 := ws.getD 14 0
      let s0 := rotr w15 7 ^^^ rotr w15 18 ^^^ (w15 >>> 3)
      let s1 := rotr w2 17 ^^^ rotr w2 19 ^^^ (w2 >>> 10)
      extend n (word (s1 + ws.getD 6 0 + s0 + ws.getD 15 0) :: ws)

/-- One round with its constant and schedule word. -/
def round (s : State) (kw : Nat × Nat) : State :=
  let s1 := rotr s.e 6 ^^^ rotr s.e 11 ^^^ rotr s.e 25
  let ch := (s.e &&& s.f) ^^^ (not32 s.e &&& s.g)
  let t1 := s.h + s1 + ch + kw.1 + kw.2
  let s0 := rotr s.a 2 ^^^ rotr s.a 13 ^^^ rotr s.a 22
  let maj := (s.a &&& s.b) ^^^ (s.a &&& s.c) ^^^ (s.b &&& s.c)
  ⟨word (t1 + s0 + maj), s.a, s.b, s.c, word (s.d + t1), s.e, s.f, s.g⟩

def compress (s : State) (block : List Nat) : State :=
  let t := (roundKeys.zip (extend 48 block.reverse).reverse).foldl round s
  ⟨word (s.a + t.a), word (s.b + t.b), word (s.c + t.c), word (s.d + t.d),
   word (s.e + t.e), word (s.f + t.f), word (s.g + t.g), word (s.h + t.h)⟩

/-! ## §3. Messages. -/

/-- The bytes of a number, most significant first. -/
def bigEndian (count n : Nat) : List Nat :=
  (List.range count).reverse.map fun i => n / 256 ^ i % 256

/-- Four bytes a word. -/
def words : List Nat → List Nat
  | a :: b :: c :: d :: rest => (((a * 256 + b) * 256 + c) * 256 + d) :: words rest
  | _ => []

def pad (bytes : List Nat) : List Nat :=
  bytes ++ 128 :: List.replicate ((119 - bytes.length % 64) % 64) 0 ++ bigEndian 8 (bytes.length * 8)

/-- Compress `n` blocks of sixteen words. -/
def blocks : Nat → State → List Nat → State
  | 0, s, _ => s
  | n + 1, s, ws => blocks n (compress s (ws.take 16)) (ws.drop 16)

def hash (bytes : List Nat) : List Nat :=
  let ws := words (pad bytes)
  let s := blocks (ws.length / 16) initial ws
  [s.a, s.b, s.c, s.d, s.e, s.f, s.g, s.h].flatMap (bigEndian 4)

/-- HMAC with SHA-256, blocks of sixty-four bytes. -/
def hmac (key bytes : List Nat) : List Nat :=
  let key := if 64 < key.length then hash key else key
  let key := key ++ List.replicate (64 - key.length) 0
  hash (key.map (· ^^^ 0x5c) ++ hash (key.map (· ^^^ 0x36) ++ bytes))

/-- The test vector of the standard. -/
example : hash [97, 98, 99] = 
    [0xba, 0x78, 0x16, 0xbf, 0x8f, 0x01, 0xcf, 0xea, 0x41, 0x41, 0x40, 0xde, 0x5d, 0xae, 0x22, 0x23,
     0xb0, 0x03, 0x61, 0xa3, 0x96, 0x17, 0x7a, 0x9c, 0xb4, 0x10, 0xff, 0x61, 0xf2, 0x00, 0x15, 0xad] := by
  decide +kernel

end Mainflux.Lib.Sha256
