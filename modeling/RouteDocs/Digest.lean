import RouteDocs.Text.Hex

/-!
# `RouteDocs.Digest`: MD5

The identifier of an endpoint is the MD5 digest of its signature, as 32 hexadecimal
digits. It tells endpoints apart and protects nothing.
-/

set_option autoImplicit false

namespace RouteDocs.Digest

open Text

/-- The additive constants of the 64 steps. -/
def constants : List UInt32 :=
  [0xd76aa478, 0xe8c7b756, 0x242070db, 0xc1bdceee, 0xf57c0faf, 0x4787c62a,
   0xa8304613, 0xfd469501, 0x698098d8, 0x8b44f7af, 0xffff5bb1, 0x895cd7be,
   0x6b901122, 0xfd987193, 0xa679438e, 0x49b40821, 0xf61e2562, 0xc040b340,
   0x265e5a51, 0xe9b6c7aa, 0xd62f105d, 0x02441453, 0xd8a1e681, 0xe7d3fbc8,
   0x21e1cde6, 0xc33707d6, 0xf4d50d87, 0x455a14ed, 0xa9e3e905, 0xfcefa3f8,
   0x676f02d9, 0x8d2a4c8a, 0xfffa3942, 0x8771f681, 0x6d9d6122, 0xfde5380c,
   0xa4beea44, 0x4bdecfa9, 0xf6bb4b60, 0xbebfbc70, 0x289b7ec6, 0xeaa127fa,
   0xd4ef3085, 0x04881d05, 0xd9d4d039, 0xe6db99e5, 0x1fa27cf8, 0xc4ac5665,
   0xf4292244, 0x432aff97, 0xab9423a7, 0xfc93a039, 0x655b59c3, 0x8f0ccc92,
   0xffeff47d, 0x85845dd1, 0x6fa87e4f, 0xfe2ce6e0, 0xa3014314, 0x4e0811a1,
   0xf7537e82, 0xbd3af235, 0x2ad7d2bb, 0xeb86d391]

/-- The rotations of the 64 steps. -/
def rotations : List UInt32 :=
  [[7, 12, 17, 22], [5, 9, 14, 20], [4, 11, 16, 23], [6, 10, 15, 21]].flatMap fun row =>
    row ++ row ++ row ++ row

/-- The four words that a digest is made of. -/
structure State where
  /-- The first word. -/
  a : UInt32
  /-- The second word. -/
  b : UInt32
  /-- The third word. -/
  c : UInt32
  /-- The fourth word. -/
  d : UInt32
deriving DecidableEq, Repr

/-- The state before the first block. -/
def initial : State := ⟨0x67452301, 0xefcdab89, 0x98badcfe, 0x10325476⟩

/-- A word of four bytes, least significant first. -/
def wordOf (bytes : List UInt8) : UInt32 :=
  bytes.foldr (fun byte w => w * 256 + byte.toUInt32) 0

/-- A list in chunks of `n`, at most `fuel` of them. -/
def chunks {α : Type} (n : Nat) : (fuel : Nat) → List α → List (List α)
  | 0, _ => []
  | fuel + 1, xs => if xs.isEmpty then [] else xs.take n :: chunks n fuel (xs.drop n)

/-- The function and the message word of a step. -/
def mix (step : Nat) (s : State) : UInt32 × Nat :=
  if step < 16 then ((s.b &&& s.c) ||| (~~~s.b &&& s.d), step)
  else if step < 32 then ((s.d &&& s.b) ||| (~~~s.d &&& s.c), (5 * step + 1) % 16)
  else if step < 48 then (s.b ^^^ s.c ^^^ s.d, (3 * step + 5) % 16)
  else (s.c ^^^ (s.b ||| ~~~s.d), (7 * step) % 16)

/-- One step on a block of sixteen words. -/
def round (block : List UInt32) (s : State) (step : Nat) (constant rotation : UInt32) : State :=
  let (f, i) := mix step s
  let f := f + s.a + constant + block.getD i 0
  ⟨s.d, s.b + ((f <<< rotation) ||| (f >>> (32 - rotation))), s.b, s.c⟩

/-- The steps from `step` on. -/
def rounds (block : List UInt32) : (step : Nat) → State → List (UInt32 × UInt32) → State
  | _, s, [] => s
  | step, s, (constant, rotation) :: rest =>
    rounds block (step + 1) (round block s step constant rotation) rest

/-- The state after a block of 64 bytes. -/
def absorb (s : State) (block : List UInt8) : State :=
  let words := (chunks 4 16 block).map wordOf
  let r := rounds words 0 s (constants.zip rotations)
  ⟨s.a + r.a, s.b + r.b, s.c + r.c, s.d + r.d⟩

/-- The low `n` bytes of a number, least significant first. -/
def lowBytes : (n m : Nat) → List UInt8
  | 0, _ => []
  | n + 1, m => UInt8.ofNat (m % 256) :: lowBytes n (m / 256)

/-- A message with its padding: a set bit, zeros, and the length in bits. -/
def padded (message : List UInt8) : List UInt8 :=
  let zeros := (119 - message.length % 64) % 64
  message ++ 0x80 :: List.replicate zeros 0 ++ lowBytes 8 (8 * message.length)

/-- The digest of a message. -/
def md5 (message : List UInt8) : List UInt8 :=
  let bytes := padded message
  let s := (chunks 64 bytes.length bytes).foldl absorb initial
  [s.a, s.b, s.c, s.d].flatMap fun w => lowBytes 4 w.toNat

/-- The digest of the UTF-8 form of a text, in hexadecimal. -/
def md5Hex? (s : Text) : Option Text :=
  s.utf8?.map fun message => (md5 message).flatMap fun b => toHex 2 b.toNat

end RouteDocs.Digest
