import RouteDocs.Random.Source

/-!
# `RouteDocs.Random.Twister`: the Mersenne twister

The source behind a seeded run: 624 words of 32 bits, which are renewed together once all
of them were drawn, and a bit mix on each word that is drawn. A bounded number is drawn
by taking as many bits as the bound has until the number is within it.
-/

set_option autoImplicit false

namespace RouteDocs

/-- The state of a Mersenne twister. -/
structure Twister where
  /-- The words. -/
  words : Array UInt32
  /-- How many of them were drawn. -/
  used : Nat
deriving DecidableEq, Repr

namespace Twister

/-- How many words there are. -/
def size : Nat := 624

/-- The word at a position, counted around. -/
def word (words : Array UInt32) (i : Nat) : UInt32 := words.getD (i % size) 0

/-- The mix of a word that seeding passes on to the next. -/
def spread (w : UInt32) : UInt32 := w ^^^ (w >>> 30)

/-- The words that a single word seeds. -/
def ofWord (seed : UInt32) : Array UInt32 :=
  (List.range (size - 1)).foldl
    (fun ws i => ws.push (1812433253 * spread (word ws i) + UInt32.ofNat (i + 1))) #[seed]

/-- The position after `i` in the seeding rounds, which never stand at position 0. -/
def nextPosition (i : Nat) : Nat := if i + 1 < size then i + 1 else 1

/-- Writes a word in a seeding round. The last word is also written to position 0. -/
def write (ws : Array UInt32) (i : Nat) (w : UInt32) : Array UInt32 :=
  let ws := ws.setIfInBounds i w
  if i + 1 < size then ws else ws.setIfInBounds 0 w

/-- The first seeding rounds, which mix in the words of the key. -/
def mixKey (key : Array UInt32) : (rounds i j : Nat) → Array UInt32 → Nat × Array UInt32
  | 0, i, _, ws => (i, ws)
  | rounds + 1, i, j, ws =>
    let w := (word ws i ^^^ (spread (word ws (i - 1)) * 1664525)) + key.getD j 0 + UInt32.ofNat j
    mixKey key rounds (nextPosition i) (if j + 1 < key.size then j + 1 else 0) (write ws i w)

/-- The last seeding rounds, which mix in the positions. -/
def mixPositions : (rounds i : Nat) → Array UInt32 → Array UInt32
  | 0, _, ws => ws
  | rounds + 1, i, ws =>
    let w := (word ws i ^^^ (spread (word ws (i - 1)) * 1566083941)) - UInt32.ofNat i
    mixPositions rounds (nextPosition i) (write ws i w)

/-- The words of 32 bits of a number, least significant first, at most `fuel` of them. -/
def keyWords : (fuel n : Nat) → List UInt32
  | 0, _ => []
  | fuel + 1, n =>
    if n = 0 then [] else UInt32.ofNat (n % 4294967296) :: keyWords fuel (n / 4294967296)

/-- The source that starts from a whole number, whose sign does not count. -/
def ofSeed (seed : Int) : Twister :=
  let n := seed.natAbs
  let key := if n = 0 then #[0] else (keyWords (n.log2 / 32 + 1) n).toArray
  let (i, ws) := mixKey key (max size key.size) 1 0 (ofWord 19650218)
  let ws := mixPositions (size - 1) i ws
  ⟨ws.setIfInBounds 0 0x80000000, size⟩

/-- Renews the word at a position from three words before. -/
def renewAt (ws : Array UInt32) (i : Nat) : Array UInt32 :=
  let y := (word ws i &&& 0x80000000) ||| (word ws (i + 1) &&& 0x7fffffff)
  let twist : UInt32 := if y &&& 1 = 0 then 0 else 0x9908b0df
  ws.setIfInBounds i (word ws (i + 397) ^^^ (y >>> 1) ^^^ twist)

/-- Renews all words, in order. -/
def renew (ws : Array UInt32) : Array UInt32 := (List.range size).foldl renewAt ws

/-- The mix on a word that is drawn. -/
def temper (y : UInt32) : UInt32 :=
  let y := y ^^^ (y >>> 11)
  let y := y ^^^ ((y <<< 7) &&& 0x9d2c5680)
  let y := y ^^^ ((y <<< 15) &&& 0xefc60000)
  y ^^^ (y >>> 18)

/-- The next 32 bits. -/
def next (s : Twister) : UInt32 × Twister :=
  let s := if s.used < size then s else ⟨renew s.words, 0⟩
  (temper (word s.words s.used), ⟨s.words, s.used + 1⟩)

/-- The next `count` bits as a number, word by word from the least significant, with at most
`fuel` words. -/
def bits : (fuel count : Nat) → Twister → Nat × Twister
  | 0, _, s => (0, s)
  | fuel + 1, count, s =>
    let (w, s) := s.next
    if count ≤ 32 then ((w >>> UInt32.ofNat (32 - count)).toNat, s)
    else
      let (high, s) := bits fuel (count - 32) s
      (w.toNat + 4294967296 * high, s)

/-- Draws numbers of `count` bits until one is at most `bound`. -/
def draw (bound count : Nat) : (fuel : Nat) → Twister → Fin (bound + 1) × Twister
  | 0, s => (0, s)
  | fuel + 1, s =>
    let (n, s) := bits (count / 32 + 1) count s
    if h : n < bound + 1 then (⟨n, h⟩, s) else draw bound count fuel s

/-- How often a number may be drawn again. Each draw is at least as likely as not to be
within its bound. -/
def maxDraws : Nat := 4096

/-- Draws are taken from the next words: by rejection for a bound, and by fifty-three bits for a
fraction. -/
instance : RandomSource Twister where
  upTo bound s := draw bound ((bound + 1).log2 + 1) maxDraws s
  unit s :=
    let (a, s) := s.next
    let (b, s) := s.next
    (Binary64.ofRatio false ((a >>> 5).toNat * 67108864 + (b >>> 6).toNat) 9007199254740992, s)

end Twister

end RouteDocs
