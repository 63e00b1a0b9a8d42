import Mathlib.Algebra.Group.Nat.Defs
import Mathlib.Data.List.Basic

namespace PhysicalHarness
namespace Python

/-!
# SHA-256

`hashlib.sha256(text.encode()).hexdigest()`.  What the ledgers rely on is that
digests have one length and that no two of the texts at hand share one; the first
is a field, the second is assumed where it is needed, about those texts only.
`sha256` is the function itself.
-/

/-- A digest of sixty-four hexadecimal digits. -/
class Sha256 where
  hexdigest : String → String
  length_hexdigest : ∀ text, (hexdigest text).length = 64

namespace Sha2

def utf8 (char : Char) : List Nat :=
  let code := char.toNat
  if code < 0x80 then [code]
  else if code < 0x800 then [0xc0 + code / 0x40, 0x80 + code % 0x40]
  else if code < 0x10000 then
    [0xe0 + code / 0x1000, 0x80 + code / 0x40 % 0x40, 0x80 + code % 0x40]
  else
    [0xf0 + code / 0x40000, 0x80 + code / 0x1000 % 0x40, 0x80 + code / 0x40 % 0x40,
      0x80 + code % 0x40]

def bigEndian (count value : Nat) : List Nat :=
  (List.range count).map (fun place => value / 256 ^ (count - 1 - place) % 256)

/-- One bit, zeros and the length in bits complete the last block of 64 bytes. -/
def padded (message : List Nat) : List Nat :=
  message ++ 0x80 :: List.replicate ((119 - message.length % 64) % 64) 0 ++
    bigEndian 8 (8 * message.length)

def add (left right : Nat) : Nat := (left + right) % 0x100000000

def rotate (places word : Nat) : Nat :=
  (word >>> places ||| word <<< (32 - places)) % 0x100000000

def constants : List Nat :=
  [0x428a2f98, 0x71374491, 0xb5c0fbcf, 0xe9b5dba5, 0x3956c25b, 0x59f111f1, 0x923f82a4, 0xab1c5ed5,
   0xd807aa98, 0x12835b01, 0x243185be, 0x550c7dc3, 0x72be5d74, 0x80deb1fe, 0x9bdc06a7, 0xc19bf174,
   0xe49b69c1, 0xefbe4786, 0x0fc19dc6, 0x240ca1cc, 0x2de92c6f, 0x4a7484aa, 0x5cb0a9dc, 0x76f988da,
   0x983e5152, 0xa831c66d, 0xb00327c8, 0xbf597fc7, 0xc6e00bf3, 0xd5a79147, 0x06ca6351, 0x14292967,
   0x27b70a85, 0x2e1b2138, 0x4d2c6dfc, 0x53380d13, 0x650a7354, 0x766a0abb, 0x81c2c92e, 0x92722c85,
   0xa2bfe8a1, 0xa81a664b, 0xc24b8b70, 0xc76c51a3, 0xd192e819, 0xd6990624, 0xf40e3585, 0x106aa070,
   0x19a4c116, 0x1e376c08, 0x2748774c, 0x34b0bcb5, 0x391c0cb3, 0x4ed8aa4a, 0x5b9cca4f, 0x682e6ff3,
   0x748f82ee, 0x78a5636f, 0x84c87814, 0x8cc70208, 0x90befffa, 0xa4506ceb, 0xbef9a3f7, 0xc67178f2]

structure Words where
  a : Nat
  b : Nat
  c : Nat
  d : Nat
  e : Nat
  f : Nat
  g : Nat
  h : Nat

def initial : Words :=
  ⟨0x6a09e667, 0xbb67ae85, 0x3c6ef372, 0xa54ff53a, 0x510e527f, 0x9b05688c, 0x1f83d9ab, 0x5be0cd19⟩

/-- The next word of the schedule; the words so far stand latest first. -/
def extend (latest : List Nat) : List Nat :=
  let word (back : Nat) : Nat := latest.getD (back - 1) 0
  let small (first second shift value : Nat) : Nat :=
    rotate first value ^^^ rotate second value ^^^ value >>> shift
  add (add (word 16) (small 7 18 3 (word 15))) (add (word 7) (small 17 19 10 (word 2))) :: latest

def schedule (block : List Nat) : List Nat := ((List.range 48).foldl (fun words _ => extend words)
  block.reverse).reverse

def turn (words : Words) (constant word : Nat) : Words :=
  let big (first second third value : Nat) : Nat :=
    rotate first value ^^^ rotate second value ^^^ rotate third value
  let choice := words.e &&& words.f ^^^ (0xffffffff - words.e) &&& words.g
  let majority := words.a &&& words.b ^^^ words.a &&& words.c ^^^ words.b &&& words.c
  let first := add (add (add words.h (big 6 11 25 words.e)) (add choice constant)) word
  let second := add (big 2 13 22 words.a) majority
  ⟨add first second, words.a, words.b, words.c, add words.d first, words.e, words.f, words.g⟩

def compress (words : Words) (block : List Nat) : Words :=
  let final := (constants.zip (schedule block)).foldl
    (fun words pair => turn words pair.1 pair.2) words
  ⟨add words.a final.a, add words.b final.b, add words.c final.c, add words.d final.d,
    add words.e final.e, add words.f final.f, add words.g final.g, add words.h final.h⟩

/-- The bytes as words of four, in blocks of sixteen. -/
def blocks (bytes : List Nat) : List (List Nat) :=
  (List.range (bytes.length / 64)).map (fun block =>
    (List.range 16).map (fun word =>
      ((bytes.drop (64 * block + 4 * word)).take 4).foldl (fun value byte => 256 * value + byte) 0))

def hex (word : Nat) : List Char :=
  (List.range 8).map (fun place => Nat.digitChar (word / 16 ^ (7 - place) % 16))

def digest (text : String) : String :=
  let words := (blocks (padded (text.toList.flatMap utf8))).foldl compress initial
  String.ofList (hex words.a ++ hex words.b ++ hex words.c ++ hex words.d ++ hex words.e ++
    hex words.f ++ hex words.g ++ hex words.h)

end Sha2

@[reducible] def sha256 : Sha256 where
  hexdigest := Sha2.digest
  length_hexdigest := fun text => by
    simp only [Sha2.digest, String.length_ofList, List.length_append, Sha2.hex, List.length_map,
      List.length_range]

end Python
end PhysicalHarness
