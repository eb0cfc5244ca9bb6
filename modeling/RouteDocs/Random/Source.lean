import RouteDocs.Number.Binary64

/-!
# `RouteDocs.Random.Source`: where random choices come from

Synthesised values need two kinds of draws: a whole number up to a bound, and a fraction
from zero up to one. A source is a type of states with these draws; each draw gives the
state that the next one starts from. Nothing else is assumed of a source, so what holds
for all of them holds whatever is drawn.
-/

set_option autoImplicit false

namespace RouteDocs

/-- States that random choices can be drawn from. -/
class RandomSource (σ : Type) where
  /-- A whole number from zero to `bound`. -/
  upTo (bound : Nat) : σ → Fin (bound + 1) × σ
  /-- A fraction. -/
  unit : σ → Binary64 × σ

end RouteDocs
