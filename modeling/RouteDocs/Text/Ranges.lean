import RouteDocs.Text.Basic

/-!
# `RouteDocs.Text.Ranges`: character classes as tables

A class of characters beyond ASCII is given as a list of closed ranges of code points
in increasing order. `within` reads such a table.
-/

set_option autoImplicit false

namespace RouteDocs.Text

/-- Whether the code point of `c` lies in one of the closed ranges of `table`. -/
def within (table : List (Nat × Nat)) (c : CodePoint) : Bool :=
  table.any fun range => range.1 ≤ c.toNat && c.toNat ≤ range.2

end RouteDocs.Text
