/-!
# Sets of characters given by their edges

A Unicode property is a union of many intervals of code points. It is stored as the increasing list
of the code points at which membership changes, starting outside the set: a code point belongs to
the set when an odd number of edges is not above it.
-/

namespace FaultCodec
namespace Text

/-- The increasing code points at which membership changes. -/
structure CharSet where
  edges : List Nat

namespace CharSet

/-- Membership, with the answer for what lies before the first edge left. -/
def after (inside : Bool) (n : Nat) : List Nat → Bool
  | [] => inside
  | e :: es => if n < e then inside else after (!inside) n es

def contains (s : CharSet) (c : Char) : Bool := after false c.toNat s.edges

end CharSet
end Text
end FaultCodec
