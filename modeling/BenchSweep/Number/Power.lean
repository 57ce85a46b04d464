/-!
# Powers

The powers that bound numbers of a fixed width and that scale decimal ones.

## Main definitions

* `twoTo`, `tenTo`: powers of two and of ten.
-/

namespace BenchSweep.Number

/-- A power of two. -/
def twoTo (exponent : Nat) : Nat :=
  Nat.pow 2 exponent

/-- A power of ten. -/
def tenTo (exponent : Nat) : Nat :=
  Nat.pow 10 exponent

theorem twoTo_zero : twoTo 0 = 1 :=
  rfl

theorem twoTo_succ (n : Nat) : twoTo (n + 1) = twoTo n * 2 :=
  rfl

theorem tenTo_zero : tenTo 0 = 1 :=
  rfl

theorem tenTo_succ (n : Nat) : tenTo (n + 1) = tenTo n * 10 :=
  rfl

end BenchSweep.Number
