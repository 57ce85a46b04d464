import BenchSweep.Proofs.Config.Partial
import BenchSweep.Proofs.Json.Ratio
import BenchSweep.Proofs.ListText
import BenchSweep.Proofs.Number.Numeral

/-!
# A ratio on the command line and in a configuration

The same text of a ratio may be given as an entry of a list on the command line or in a
configuration. The command line reads the nearest number. A configuration reads the same number if
the literal is exact, and else one with the same sign that is a few steps away at most.

## Why the two are compared in steps

The two readers are meant to agree, and on most texts they do, but the reader of configurations
rounds the digits and their quotient by a power of ten apart, and the number it ends at need not be
the nearest one. `Config.ofJson_ratio_inexact` is a literal of sixteen digits on which they differ,
and the difference is not lost later on: the benchmark is given another argument. So the theorem
says how far apart they can be, in neighbours of binary64, and on which literals they are equal. The
length of the text is bounded for the reason that is given in `BenchSweep.Proofs.Json.Ratio`.

The nearest number is stated by the value of the literal, and not by the reader of the command line,
of which it is the first thing that is said.

## Main definitions

* `ratioConfig`: the text of a configuration with one ratio.

## Main results

* `Config.ofJson_ratio`: the ratio of a configuration and that of a list.
* `Config.ofJson_ratio_inexact`: they are not always the same.
-/

namespace BenchSweep

open Json
open Number (Binary64 Literal twoTo)
open Number.Binary64 (IsNearest IsWithin)

/-! ### A configuration with one ratio -/

/-- The text of a configuration with one ratio. -/
def ratioConfig (ratio : List Char) : List Char :=
  "\x7b\"grid\":\x7b\"ratios\":[".toList ++ (ratio ++ "]\x7d\x7d".toList)

/-- The text is what is written for an object in an object. -/
theorem ratioConfig_eq (s : List Char) :
    ratioConfig s = writeObject [writeMember "grid"
      (writeObject [writeMember "ratios" (writeList id [s])])] := by
  have hopen : "\x7b\"grid\":\x7b\"ratios\":[".toList =
      '\x7b' :: (writeString "grid" ++ ':' :: '\x7b' :: (writeString "ratios" ++ [':', '['])) := by
    decide
  have hclose : "]\x7d\x7d".toList = [']', '\x7d', '\x7d'] := by decide
  refine (congrArg₂ (· ++ ·) hopen (congrArg (s ++ ·) hclose)).trans ?_
  simp only [writeObject, writeMember, writeList, separated, List.map_cons, List.map_nil, id,
    List.intercalate_singleton, List.append_assoc, List.cons_append, List.nil_append]

/-- The text gives the ratio and nothing else. -/
theorem isPartialConfig_ratioConfig {s : List Char} {x : Binary64} (h : IsFloat s x) :
    IsPartialConfig (ratioConfig s) { grid := some { ratios := some [x] } } := by
  have hratios : IsListOf IsFloat (writeList id [s]) [x] :=
    ⟨[s], isList_writeList [s], .cons h .nil⟩
  have hgrid : IsPartialGrid (writeObject [writeMember "ratios" (writeList id [s])])
      { ratios := some [x] } :=
    ⟨[("ratios", writeList id [s])], isObject_writeObject [("ratios", writeList id [s])],
      by simp [FieldIn], by simp [FieldIn], ⟨[], _, [], rfl, by simp, by simp, hratios⟩,
      by simp [OthersAreValues, gridNames]⟩
  rw [ratioConfig_eq]
  exact ⟨[("grid", _)], isObject_writeObject [("grid", _)], by simp [FieldIn], by simp [FieldIn],
    by simp [FieldIn], by simp [FieldIn], ⟨[], _, [], rfl, by simp, by simp, hgrid⟩,
    by simp [FieldIn], by simp [FieldIn], by simp [FieldIn],
    by simp [OthersAreValues, configNames]⟩

namespace Config

/-- A configuration with one ratio is read as the defaults with this ratio. -/
theorem ofJson_ratioConfig {s : List Char} {x : Binary64} (h : IsFloat s x) :
    ofJson (String.ofList (ratioConfig s)) =
      .ok { grid := { Grid.default with ratios := [x] } } := by
  have hread := read_of_takes (takes_partialConfig (isPartialConfig_ratioConfig h)) blanks_nil
    blanks_nil
  rw [List.append_nil, List.nil_append] at hread
  rw [ofJson, String.toList_ofList, hread]
  rfl

/-- **A ratio in a configuration and on the command line.** For every literal from zero to one the
command line reads the number nearest to its value, with its sign. The configuration reads a number
from zero to one that has the same sign, and is at most two steps away, or four where the literal
has more than three hundred and eight places. Where the literal is exact, both read the same
number. -/
theorem ofJson_ratio (l : Literal) (hlow : 0 ≤ l.value) (hup : l.value ≤ 1)
    (hlength : l.chars.length < twoTo 30) :
    ∃ x y, readRatios (String.ofList l.chars) = .ok [x] ∧
      x.isNegative = l.negative ∧ IsNearest l.value x.magnitude ∧
      ofJson (String.ofList (ratioConfig l.chars)) =
        .ok { grid := { Grid.default with ratios := [y] } } ∧
      y.isNegative = l.negative ∧ y.inUnitInterval = true ∧
      IsWithin 4 y.magnitude x.magnitude ∧
      (-308 ≤ l.decimal.exponent → IsWithin 2 y.magnitude x.magnitude) ∧
      (IsExact l → y = x) := by
  obtain ⟨hsign, hnearest⟩ := isNearest_number l
  obtain ⟨y, hfloat, hnear⟩ := exists_float?_isNear hlow hup hlength
  obtain ⟨k, hk, hfour, htwo⟩ := hnear.exists_isNearest
  obtain rfl : k = l.number.magnitude := hk.unique hnearest
  rw [abs_of_nonneg hlow] at hnearest
  refine ⟨l.number, y, readRatios_of_readBinary64 l.readBinary64_chars, hsign, hnearest,
    ofJson_ratioConfig ⟨l, rfl, hfloat⟩, hnear.isNegative_eq, hnear.inUnitInterval, hfour, htwo,
    fun hexact => ?_⟩
  exact Option.some.inj (hfloat.symm.trans (float?_of_isExact hlength hexact))

/-- A ratio of sixteen digits. -/
def sixteenDigits : Literal where
  negative := false
  whole := ['0']
  fraction := "9796751263897743".toList
  whole_ne_nil := by decide
  isDigit_whole := List.all_eq_true.1 rfl
  whole_eq_zero := by decide
  isDigit_fraction := List.all_eq_true.1 rfl

theorem value_sixteenDigits : sixteenDigits.value = 9796751263897743 / 10 ^ 16 := by
  have hdecimal : sixteenDigits.decimal = ⟨9796751263897743, -16⟩ := by decide
  rw [Literal.value, hdecimal, Number.Decimal.value]
  norm_num [sixteenDigits]

theorem value_sixteenDigits_mem : 0 ≤ sixteenDigits.value ∧ sixteenDigits.value ≤ 1 := by
  rw [value_sixteenDigits]
  norm_num

/-- The general theorem at a ratio of sixteen digits: two steps are the bound. -/
theorem ofJson_ratio_sixteen_digits :
    0 ≤ sixteenDigits.value ∧ sixteenDigits.value ≤ 1 ∧ sixteenDigits.chars.length < twoTo 30 ∧
      ∃ x y, readRatios (String.ofList sixteenDigits.chars) = .ok [x] ∧
        IsNearest sixteenDigits.value x.magnitude ∧
        ofJson (String.ofList (ratioConfig sixteenDigits.chars)) =
          .ok { grid := { Grid.default with ratios := [y] } } ∧
        IsWithin 2 y.magnitude x.magnitude := by
  obtain ⟨hlow, hup⟩ := value_sixteenDigits_mem
  have hlength : sixteenDigits.chars.length < twoTo 30 := by decide
  obtain ⟨x, y, hlist, -, hnearest, hread, -, -, -, htwo, -⟩ :=
    ofJson_ratio sixteenDigits hlow hup hlength
  exact ⟨hlow, hup, hlength, x, y, hlist, hnearest, hread, htwo (by decide)⟩

/-- A ratio of sixteen digits that a configuration reads as the number after the nearest one, which
the command line reads. The text of the ratio, which the benchmark is given and the table shows, is
the text that was written on the command line, and another one in the configuration. -/
theorem ofJson_ratio_inexact :
    0 ≤ sixteenDigits.value ∧ sixteenDigits.value ≤ 1 ∧
      sixteenDigits.chars = "0.9796751263897743".toList ∧
      readRatios (String.ofList sixteenDigits.chars) = .ok [⟨0x3fef597fa6918f56⟩] ∧
      ofJson (String.ofList (ratioConfig sixteenDigits.chars)) =
        .ok { grid := { Grid.default with ratios := [⟨0x3fef597fa6918f57⟩] } } ∧
      (Binary64.mk 0x3fef597fa6918f56).ratioText = "0.9796751263897743" ∧
      (Binary64.mk 0x3fef597fa6918f57).ratioText = "0.9796751263897744" := by
  obtain ⟨hlow, hup⟩ := value_sixteenDigits_mem
  have hnumber : sixteenDigits.number = ⟨0x3fef597fa6918f56⟩ := by decide +kernel
  have hfloat : float? sixteenDigits = some ⟨0x3fef597fa6918f57⟩ := by decide +kernel
  refine ⟨hlow, hup, by decide, ?_, ofJson_ratioConfig ⟨sixteenDigits, rfl, hfloat⟩,
    by decide +kernel, by decide +kernel⟩
  rw [← hnumber]
  exact readRatios_of_readBinary64 sixteenDigits.readBinary64_chars

end Config

end BenchSweep
