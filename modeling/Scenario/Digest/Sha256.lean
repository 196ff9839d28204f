import Scenario.Text.Quoted

namespace Scenario.Sha256

def rotate (x : UInt32) (n : UInt32) : UInt32 := x >>> n ||| x <<< (32 - n)

/-- The eight words of the running digest. -/
structure State where
  a : UInt32
  b : UInt32
  c : UInt32
  d : UInt32
  e : UInt32
  f : UInt32
  g : UInt32
  h : UInt32

namespace State

def start : State :=
  ⟨0x6a09e667, 0xbb67ae85, 0x3c6ef372, 0xa54ff53a, 0x510e527f, 0x9b05688c, 0x1f83d9ab, 0x5be0cd19⟩

def add (s t : State) : State :=
  ⟨s.a + t.a, s.b + t.b, s.c + t.c, s.d + t.d, s.e + t.e, s.f + t.f, s.g + t.g, s.h + t.h⟩

def words (s : State) : List UInt32 := [s.a, s.b, s.c, s.d, s.e, s.f, s.g, s.h]

def round (s : State) (k w : UInt32) : State :=
  let sum1 := rotate s.e 6 ^^^ rotate s.e 11 ^^^ rotate s.e 25
  let choice := (s.e &&& s.f) ^^^ (~~~s.e &&& s.g)
  let sum0 := rotate s.a 2 ^^^ rotate s.a 13 ^^^ rotate s.a 22
  let majority := (s.a &&& s.b) ^^^ (s.a &&& s.c) ^^^ (s.b &&& s.c)
  let t := s.h + sum1 + choice + k + w
  ⟨t + sum0 + majority, s.a, s.b, s.c, s.d + t, s.e, s.f, s.g⟩

end State

def constants : List UInt32 :=
  [0x428a2f98, 0x71374491, 0xb5c0fbcf, 0xe9b5dba5, 0x3956c25b, 0x59f111f1, 0x923f82a4, 0xab1c5ed5,
   0xd807aa98, 0x12835b01, 0x243185be, 0x550c7dc3, 0x72be5d74, 0x80deb1fe, 0x9bdc06a7, 0xc19bf174,
   0xe49b69c1, 0xefbe4786, 0x0fc19dc6, 0x240ca1cc, 0x2de92c6f, 0x4a7484aa, 0x5cb0a9dc, 0x76f988da,
   0x983e5152, 0xa831c66d, 0xb00327c8, 0xbf597fc7, 0xc6e00bf3, 0xd5a79147, 0x06ca6351, 0x14292967,
   0x27b70a85, 0x2e1b2138, 0x4d2c6dfc, 0x53380d13, 0x650a7354, 0x766a0abb, 0x81c2c92e, 0x92722c85,
   0xa2bfe8a1, 0xa81a664b, 0xc24b8b70, 0xc76c51a3, 0xd192e819, 0xd6990624, 0xf40e3585, 0x106aa070,
   0x19a4c116, 0x1e376c08, 0x2748774c, 0x34b0bcb5, 0x391c0cb3, 0x4ed8aa4a, 0x5b9cca4f, 0x682e6ff3,
   0x748f82ee, 0x78a5636f, 0x84c87814, 0x8cc70208, 0x90befffa, 0xa4506ceb, 0xbef9a3f7, 0xc67178f2]

/-- Adds words to a schedule, whose last word stands first. -/
def extend : Nat → List UInt32 → List UInt32
  | 0, words => words
  | n + 1, words =>
    let word (i : Nat) : UInt32 := words.getD i 0
    let sigma0 := rotate (word 14) 7 ^^^ rotate (word 14) 18 ^^^ (word 14 >>> 3)
    let sigma1 := rotate (word 1) 17 ^^^ rotate (word 1) 19 ^^^ (word 1 >>> 10)
    extend n ((word 15 + sigma0 + word 6 + sigma1) :: words)

/-- Mixes a block of sixteen words into the digest. -/
def compress (s : State) (block : List UInt32) : State :=
  let schedule := (extend 48 block.reverse).reverse
  s.add ((constants.zip schedule).foldl (fun t kw => t.round kw.1 kw.2) s)

def bigEndian (bytes : List UInt8) : UInt32 :=
  bytes.foldl (fun n b => n <<< 8 ||| b.toUInt32) 0

/-- A list cut into pieces that are longer than `n` by one. -/
def chunks {α : Type} (n : Nat) (xs : List α) : List (List α) :=
  match xs with
  | [] => []
  | x :: rest => (x :: rest).take (n + 1) :: chunks n (rest.drop n)
termination_by xs.length
decreasing_by simp only [List.length_drop, List.length_cons]; omega

/-- Fills a message up to whole blocks of 64 bytes, with its length in bits at the end. -/
def pad (message : List UInt8) : List UInt8 :=
  let bits := 8 * message.length
  let zeros := (119 - message.length % 64) % 64
  message ++ 0x80 :: List.replicate zeros 0
    ++ (List.range 8).reverse.map fun i => (bits / Nat.pow 256 i).toUInt8

def digest (message : List UInt8) : List UInt32 :=
  let blocks := chunks 15 ((chunks 3 (pad message)).map bigEndian)
  (blocks.foldl compress .start).words

def hex (message : List UInt8) : List Char :=
  (digest message).flatMap fun w => Text.hexDigits 8 w.toNat

end Scenario.Sha256
