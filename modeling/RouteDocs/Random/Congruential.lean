import RouteDocs.Random.Source

/-!
# `RouteDocs.Random.Congruential`: a linear congruential source

A 64-bit state that each draw multiplies and shifts; the upper 31 bits are the number
drawn.
-/

set_option autoImplicit false

namespace RouteDocs

/-- The state of a linear congruential source. -/
structure Congruential where
  /-- The last state. -/
  state : UInt64
deriving DecidableEq, Repr

namespace Congruential

/-- The source that starts from a whole number. -/
def ofSeed (seed : Int) : Congruential := ⟨UInt64.ofNat (seed % 18446744073709551616).toNat⟩

/-- The next 31 bits. -/
def next (s : Congruential) : Nat × Congruential :=
  let state := s.state * 6364136223846793005 + 1442695040888963407
  ((state >>> 33).toNat, ⟨state⟩)

/-- Draws are taken from the next number: by the remainder for a bound, and by the quotient for a
fraction. -/
instance : RandomSource Congruential where
  upTo bound s :=
    let (n, s) := s.next
    (⟨n % (bound + 1), Nat.mod_lt _ (Nat.succ_pos _)⟩, s)
  unit s :=
    let (n, s) := s.next
    (Binary64.ofRatio false n 2147483648, s)

end Congruential

end RouteDocs
