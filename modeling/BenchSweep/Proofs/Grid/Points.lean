import BenchSweep.Grid
import Mathlib.Data.List.Basic
import Mathlib.Order.Basic

/-!
# The order of the points

The points of a grid are numbered like numbers of a mixed radix: the ratio is the last digit, the
number of clients the one before it, and the number of servers the first. So the index of a point
tells the positions of its values in the three lists, and the positions tell the index.

## Why positions and not values

A list of a grid may hold the same value twice, and then two points have the same values and are
still two points. So a point is told by where its values stand. The index is the number that has
these positions as its digits, the last digit has as many values as there are ratios, and quotients
and remainders give them back.

## Scope

The points are those of a grid of any size, and their number is one of all natural numbers. The size
that is computed with sixty-four bits is the subject of `BenchSweep.Proofs.Grid.Size`.

## Main definitions

* `Grid.positions`: the positions of the values of the point at an index.
* `Grid.indexAt`: the index of the point that has its values at given positions.

## Main results

* `Grid.indexAt_positions`, `Grid.positions_indexAt`: indices and positions determine each other.
* `Grid.getElem?_points_indexAt`: the point at given positions.
* `Grid.points_closed_form`: how many points there are, which they are, and how they are ordered.
-/

namespace BenchSweep

/-- Pieces of one length, one after the other, start at the multiples of the length. -/
theorem getElem?_flatMap_of_length {α β : Type} {f : α → List β} {n : ℕ}
    (hf : ∀ a, (f a).length = n) (l : List α) (u : ℕ) {v : ℕ} (hv : v < n) :
    (l.flatMap f)[u * n + v]? = l[u]?.bind fun a => (f a)[v]? := by
  induction l generalizing u with
  | nil => rfl
  | cons a l ih =>
    rw [List.flatMap_cons]
    cases u with
    | zero =>
      rw [Nat.zero_mul, Nat.zero_add, List.getElem?_append_left (by rwa [hf])]
      rfl
    | succ u =>
      rw [Nat.succ_mul, Nat.add_right_comm, List.getElem?_append_right (by rw [hf]; omega), hf,
        Nat.add_sub_cancel, ih, List.getElem?_cons_succ]

namespace Grid

variable (g : Grid)

/-! ### Indices and positions -/

/-- The positions in the three lists of the values of the point at an index. -/
def positions (i : ℕ) : ℕ × ℕ × ℕ :=
  (i / (g.clients.length * g.ratios.length), i / g.ratios.length % g.clients.length,
    i % g.ratios.length)

/-- The index of the point that has its values at given positions. -/
def indexAt (a b c : ℕ) : ℕ :=
  a * (g.clients.length * g.ratios.length) + (b * g.ratios.length + c)

theorem indexAt_positions (i : ℕ) :
    g.indexAt (g.positions i).1 (g.positions i).2.1 (g.positions i).2.2 = i := by
  have hratio := Nat.mod_mul_left_mod i g.clients.length g.ratios.length
  rw [indexAt, positions, ← Nat.mod_mul_left_div_self, ← hratio, Nat.div_add_mod', Nat.div_add_mod']

variable {g} {a b c i j : ℕ}

/-- The points of one number of servers are as many as there are pairs of the other values. -/
theorem pair_lt (hb : b < g.clients.length) (hc : c < g.ratios.length) :
    b * g.ratios.length + c < g.clients.length * g.ratios.length :=
  calc b * g.ratios.length + c < b * g.ratios.length + g.ratios.length := Nat.add_lt_add_left hc _
    _ = (b + 1) * g.ratios.length := (Nat.succ_mul ..).symm
    _ ≤ g.clients.length * g.ratios.length := Nat.mul_le_mul_right _ hb

theorem positions_indexAt (hb : b < g.clients.length) (hc : c < g.ratios.length) :
    g.positions (g.indexAt a b c) = (a, b, c) := by
  have hpair := pair_lt hb hc
  obtain ⟨hserver, hrest⟩ := (Nat.div_mod_unique (Nat.zero_lt_of_lt hpair)).2
    ⟨(by rw [indexAt, Nat.add_comm, Nat.mul_comm a] :
      _ + g.clients.length * g.ratios.length * a = g.indexAt a b c), hpair⟩
  obtain ⟨hclient, hratio⟩ := (Nat.div_mod_unique (Nat.zero_lt_of_lt hc)).2
    ⟨(by rw [Nat.add_comm, Nat.mul_comm] :
      c + g.ratios.length * b = b * g.ratios.length + c), hc⟩
  have hlast := Nat.mod_mul_left_mod (g.indexAt a b c) g.clients.length g.ratios.length
  rw [positions, ← Nat.mod_mul_left_div_self, ← hlast, hserver, hrest, hclient, hratio]

theorem indexAt_lt (ha : a < g.servers.length) (hb : b < g.clients.length)
    (hc : c < g.ratios.length) :
    g.indexAt a b c < g.servers.length * g.clients.length * g.ratios.length := by
  rw [Nat.mul_assoc]
  calc g.indexAt a b c < a * (g.clients.length * g.ratios.length) +
        g.clients.length * g.ratios.length := Nat.add_lt_add_left (pair_lt hb hc) _
    _ = (a + 1) * (g.clients.length * g.ratios.length) := (Nat.succ_mul ..).symm
    _ ≤ g.servers.length * (g.clients.length * g.ratios.length) := Nat.mul_le_mul_right _ ha

/-- An index below the product has positions inside the lists. -/
theorem positions_lt (hi : i < g.servers.length * g.clients.length * g.ratios.length) :
    (g.positions i).1 < g.servers.length ∧ (g.positions i).2.1 < g.clients.length ∧
      (g.positions i).2.2 < g.ratios.length := by
  have hproduct : 0 < g.servers.length * g.clients.length * g.ratios.length :=
    Nat.zero_lt_of_lt hi
  have hratios : 0 < g.ratios.length := Nat.pos_of_mul_pos_left hproduct
  have hclients : 0 < g.clients.length :=
    Nat.pos_of_mul_pos_left (Nat.pos_of_mul_pos_right hproduct)
  rw [Nat.mul_assoc, Nat.mul_comm] at hi
  exact ⟨Nat.div_lt_of_lt_mul hi, Nat.mod_lt _ hclients, Nat.mod_lt _ hratios⟩

/-! ### The order of positions -/

/-- Numbers are ordered by their quotients, and then by their remainders. -/
theorem div_lt_or_mod_lt (n : ℕ) (h : i < j) : i / n < j / n ∨ i / n = j / n ∧ i % n < j % n := by
  rcases Nat.lt_or_eq_of_le (Nat.div_le_div_right (Nat.le_of_lt h) : i / n ≤ j / n) with hlt | heq
  · exact .inl hlt
  · have hi := Nat.div_add_mod' i n
    have hj := Nat.div_add_mod' j n
    rw [heq] at hi
    exact .inr ⟨heq, by omega⟩

/-- Positions ascend with the index, the servers first and the ratios last. -/
theorem lex_positions (h : i < j) :
    Prod.Lex (· < ·) (Prod.Lex (· < ·) (· < ·)) (g.positions i) (g.positions j) := by
  rw [positions, positions]
  rcases div_lt_or_mod_lt (g.clients.length * g.ratios.length) h with hlt | ⟨heq, hlt⟩
  · exact .left _ _ hlt
  rw [heq]
  refine .right _ ?_
  -- within the points of one number of servers, the remainders are indices of pairs
  rcases div_lt_or_mod_lt g.ratios.length hlt with hlt | ⟨heq, hlt⟩
  · rw [Nat.mod_mul_left_div_self, Nat.mod_mul_left_div_self] at hlt
    exact .left _ _ hlt
  · rw [Nat.mod_mul_left_div_self, Nat.mod_mul_left_div_self] at heq
    rw [Nat.mod_mul_left_mod, Nat.mod_mul_left_mod] at hlt
    rw [heq]
    exact .right _ hlt

/-! ### Points -/

/-- The number of points is the product of the numbers of values. -/
theorem length_points (g : Grid) :
    g.points.length = g.servers.length * g.clients.length * g.ratios.length := by
  simp [points, combinations, List.length_flatMap, Nat.mul_assoc]

/-- The point at an index has the values of the combination there. -/
theorem getElem?_points (g : Grid) (i : ℕ) :
    g.points[i]? = g.combinations[i]?.map fun x => ⟨i, x.1, x.2.1, x.2.2⟩ := by
  rw [points, List.getElem?_map, List.getElem?_zipIdx, Option.map_map]
  simp only [Nat.zero_add]
  rfl

/-- The index of a point is its position. -/
theorem index_of_getElem? {p : Point} (h : g.points[i]? = some p) : p.index = i := by
  rw [getElem?_points] at h
  obtain ⟨x, -, rfl⟩ := Option.map_eq_some_iff.1 h
  rfl

theorem map_index_points (g : Grid) :
    g.points.map Point.index = List.range g.points.length := by
  refine List.ext_getElem? fun i => ?_
  rw [List.getElem?_map]
  cases h : g.points[i]? with
  | none => rw [List.getElem?_eq_none (by simpa using h)]; rfl
  | some p =>
    obtain ⟨hi, -⟩ := List.getElem?_eq_some_iff.1 h
    rw [List.getElem?_range hi, Option.map_some, index_of_getElem? h]

/-- The combination of the values at given positions. -/
theorem getElem?_combinations_indexAt (hb : b < g.clients.length) (hc : c < g.ratios.length) :
    g.combinations[g.indexAt a b c]? = g.servers[a]?.bind fun s =>
      g.clients[b]?.bind fun m => g.ratios[c]?.map fun r => (s, m, r) := by
  rw [combinations, indexAt, getElem?_flatMap_of_length (by simp [List.length_flatMap]) _ _
    (pair_lt hb hc)]
  simp only [getElem?_flatMap_of_length (fun _ => List.length_map _) _ _ hc, List.getElem?_map]

/-- **The point at given positions.** -/
theorem getElem?_points_indexAt (ha : a < g.servers.length) (hb : b < g.clients.length)
    (hc : c < g.ratios.length) :
    g.points[g.indexAt a b c]? =
      some ⟨g.indexAt a b c, g.servers[a], g.clients[b], g.ratios[c]⟩ := by
  rw [getElem?_points, getElem?_combinations_indexAt hb hc, List.getElem?_eq_getElem ha,
    List.getElem?_eq_getElem hb, List.getElem?_eq_getElem hc]
  rfl

/-- **The points in closed form.** There are as many as the product of the lengths says, and their
indices are the numbers below it. Quotients and remainders of an index are the positions of the
values. Every combination of positions comes exactly once, and they ascend, the servers first and
the ratios last. Where a list is empty there is no point. -/
theorem points_closed_form (g : Grid) :
    g.points.length = g.servers.length * g.clients.length * g.ratios.length ∧
    g.points.map Point.index =
      List.range (g.servers.length * g.clients.length * g.ratios.length) ∧
    (∀ i < g.servers.length * g.clients.length * g.ratios.length,
      ∃ (hs : i / (g.clients.length * g.ratios.length) < g.servers.length)
        (hm : i / g.ratios.length % g.clients.length < g.clients.length)
        (hr : i % g.ratios.length < g.ratios.length),
        g.points[i]? = some {
          index := i
          servers := g.servers[i / (g.clients.length * g.ratios.length)]
          clients := g.clients[i / g.ratios.length % g.clients.length]
          ratio := g.ratios[i % g.ratios.length] }) ∧
    (∀ a < g.servers.length, ∀ b < g.clients.length, ∀ c < g.ratios.length,
      ∃! i, i < g.servers.length * g.clients.length * g.ratios.length ∧
        g.positions i = (a, b, c)) ∧
    (∀ i j, i < j →
      Prod.Lex (· < ·) (Prod.Lex (· < ·) (· < ·)) (g.positions i) (g.positions j)) ∧
    (g.servers = [] ∨ g.clients = [] ∨ g.ratios = [] → g.points = []) := by
  refine ⟨g.length_points, ?_, fun i hi => ?_, fun a ha b hb c hc => ?_,
    fun i j => lex_positions, fun hempty => ?_⟩
  · rw [← g.length_points]
    exact g.map_index_points
  · obtain ⟨hs, hm, hr⟩ := positions_lt hi
    have hpoint := getElem?_points_indexAt hs hm hr
    rw [indexAt_positions] at hpoint
    exact ⟨hs, hm, hr, hpoint⟩
  · refine ⟨g.indexAt a b c, ⟨indexAt_lt ha hb hc, positions_indexAt hb hc⟩, ?_⟩
    rintro i ⟨-, hi⟩
    rw [← g.indexAt_positions i, hi]
  · rw [← List.length_eq_zero_iff, g.length_points]
    rcases hempty with h | h | h <;> simp [h]

end Grid

end BenchSweep
