import BenchSweep.Number.Notation

/-!
# Parameter grids

A sweep runs a benchmark at every point of a grid: every combination of a server count, a client
count and a ratio. Servers vary slowest and ratios fastest, and the position in this order is the
index of a point.

## Main definitions

* `Point`: one combination, with its index.
* `Grid`: the three lists of values.
* `Grid.points`: the points in order.
* `Grid.size`: their number, as a count of 64 bits.
-/

namespace BenchSweep

open Number (Binary64 countText natText)

/-- A combination of the values of a grid. The index is a number without a bound; where the points
of a grid are counted in 64 bits, every index is below `2 ^ 64`. -/
structure Point where
  index : Nat
  servers : UInt64
  clients : UInt64
  ratio : Binary64
  deriving DecidableEq, Repr

namespace Point

/-- The arguments of a benchmark that vary from point to point. -/
def args (p : Point) : List String :=
  [countText p.servers, countText p.clients, p.ratio.ratioText]

/-- A point in messages. -/
def text (p : Point) : String :=
  "point #" ++ natText p.index ++ " (servers = " ++ countText p.servers ++ " | clients = "
    ++ countText p.clients ++ " | ratio = " ++ p.ratio.ratioText ++ ")"

end Point

/-- The values that a sweep combines. -/
structure Grid where
  servers : List UInt64
  clients : List UInt64
  ratios : List Binary64
  deriving DecidableEq, Repr

namespace Grid

/-- The grid of a sweep that names none: ratios are 0.2, 0.5 and 0.8. -/
def default : Grid where
  servers := [2, 5, 8, 10]
  clients := [2, 5, 8, 10]
  ratios := [⟨0x3FC999999999999A⟩, ⟨0x3FE0000000000000⟩, ⟨0x3FE999999999999A⟩]

/-- The combinations of a grid, in order. -/
def combinations (g : Grid) : List (UInt64 × UInt64 × Binary64) :=
  g.servers.flatMap fun s => g.clients.flatMap fun c => g.ratios.map fun r => (s, c, r)

/-- The points of a grid, in order. -/
def points (g : Grid) : List Point :=
  g.combinations.zipIdx.map fun ((s, c, r), i) => ⟨i, s, c, r⟩

/-- The product of the lengths of the lists, in arithmetic modulo `2 ^ 64`. -/
def size (g : Grid) : UInt64 :=
  .ofNat g.servers.length * .ofNat g.clients.length * .ofNat g.ratios.length

/-- Whether the size is zero. -/
def isEmpty (g : Grid) : Bool :=
  g.size = 0

end Grid

end BenchSweep
