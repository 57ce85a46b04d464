import BenchSweep.Config.Writer
import BenchSweep.Proofs.Config.Partial
import BenchSweep.Proofs.Json.Float

/-!
# Configurations that are written and read back

The text of a configuration gives every field, once and in order. So it is read as the
configuration, whatever its paths, words and numbers are, as long as its ratios have few digits and
places.

## Why the ratios are short

A ratio is written with the fewest digits that tell it from its neighbours, but the reader of
configurations rounds twice, so that a ratio of sixteen digits need not come back. With fifteen
digits and twenty-two places at most, one rounding is left and nothing is lost; this is
`IsShortRatio`. There is no hypothesis on anything else: any text may be a path or a word, since
what cannot stand between quotes is escaped, and the configuration need not be one that the check
accepts.

## How the proof goes

Nothing is read in this module. What is written is shown to be a text of the grammar that gives
every field, once and with its value, and all texts of this kind are read by `takes_partialConfig`.
No field is left to a default.

## Main definitions

* `Config.given`: every field of a configuration, as given.

## Main results

* `Config.ofJson_toJson`: the text of a configuration is read as the configuration.
-/

namespace BenchSweep

open Json
open Number (Binary64 decimal)

/-! ### Fields of written records -/

theorem othersAreValues_of_map_eq {members : List (String × List Char)} {names : List String}
    (h : members.map Prod.fst = names) : OthersAreValues names members :=
  fun _ hm hname => absurd (h ▸ List.mem_map_of_mem hm) hname

theorem isOptionString_write (value : Option String) :
    IsOption IsString (writeOption writeString value) value :=
  isOption_writeOption fun v _ => isString_writeString v

theorem isStrings_write (values : List String) :
    IsListOf IsString (writeList writeString values) values :=
  isListOf_writeList fun v _ => isString_writeString v

theorem isCount_write (n : UInt64) : IsCount (writeCount n) n :=
  rfl

theorem isCounts_write (values : List UInt64) :
    IsListOf IsCount (writeList writeCount values) values :=
  isListOf_writeList fun n _ => isCount_write n

/-! ### Written records -/

/-- The fields of an invocation, as given. -/
def Invocation.given (i : Invocation) : PartialInvocation where
  configFile := some i.configFile
  host := some i.host
  port := some i.port
  artifact := some i.artifact
  dataDir := some i.dataDir

/-- The fields of a grid, as given. -/
def Grid.given (g : Grid) : PartialGrid where
  servers := some g.servers
  clients := some g.clients
  ratios := some g.ratios

/-- The fields of a configuration, as given. -/
def Config.given (c : Config) : PartialConfig where
  workdir := some c.workdir
  build := some c.build
  benchmark := some c.benchmark
  invocation := some c.invocation.given
  grid := some c.grid.given
  output := some c.output
  parallel := some c.parallel
  timeoutSeconds := some c.timeoutSeconds

theorem Config.fill_given (c : Config) : c.given.fill = c :=
  rfl

theorem isPartialInvocation_write (i : Invocation) : IsPartialInvocation i.write i.given := by
  let members := [("config_file", writeString i.configFile), ("zk_host", writeString i.host),
    ("zk_port", decimal i.port.toNat), ("server_artifact", writeString i.artifact),
    ("data_dir", writeString i.dataDir)]
  have hnodup : (members.map Prod.fst).Nodup := (by decide : invocationNames.Nodup)
  refine ⟨members, isObject_writeObject members, ?_⟩
  exact {
    configFile := .of_nodup hnodup (by simp [members]) (isString_writeString _)
    host := .of_nodup hnodup (by simp [members]) (isString_writeString _)
    port := .of_nodup hnodup (by simp [members]) rfl
    artifact := .of_nodup hnodup (by simp [members]) (isString_writeString _)
    dataDir := .of_nodup hnodup (by simp [members]) (isString_writeString _)
    others := othersAreValues_of_map_eq rfl }

theorem isFloat_writeRatio {x : Binary64} (h : IsShortRatio x) : IsFloat (writeRatio x) x := by
  have hfinite : x.isFinite = true := decide_eq_true (h.magnitude_le.trans_lt (by decide))
  rw [writeRatio, Binary64.jsonText, if_pos hfinite, String.toList_ofList]
  exact isFloat_jsonChars h

theorem isPartialGrid_write {g : Grid} (h : ∀ x ∈ g.ratios, IsShortRatio x) :
    IsPartialGrid g.write g.given := by
  let members := [("servers", writeList writeCount g.servers),
    ("clients", writeList writeCount g.clients), ("ratios", writeList writeRatio g.ratios)]
  have hnodup : (members.map Prod.fst).Nodup := (by decide : gridNames.Nodup)
  refine ⟨members, isObject_writeObject members, ?_⟩
  exact {
    servers := .of_nodup hnodup (by simp [members]) (isCounts_write _)
    clients := .of_nodup hnodup (by simp [members]) (isCounts_write _)
    ratios := .of_nodup hnodup (by simp [members])
      (isListOf_writeList fun x hx => isFloat_writeRatio (h x hx))
    others := othersAreValues_of_map_eq rfl }

/-- **The text of a configuration gives every field.** -/
theorem isPartialConfig_write {c : Config} (h : ∀ x ∈ c.grid.ratios, IsShortRatio x) :
    IsPartialConfig c.write c.given := by
  let members := [("workdir", writeOption writeString c.workdir),
    ("build", writeList (writeList writeString) c.build),
    ("benchmark", writeList writeString c.benchmark), ("invocation", c.invocation.write),
    ("grid", c.grid.write), ("output", writeString c.output),
    ("parallel", writeCount c.parallel), ("timeout_secs", writeOption writeCount c.timeoutSeconds)]
  have hnodup : (members.map Prod.fst).Nodup := (by decide : configNames.Nodup)
  refine ⟨members, isObject_writeObject members, ?_⟩
  exact {
    workdir := .of_nodup hnodup (by simp [members]) (isOptionString_write _)
    build := .of_nodup hnodup (by simp [members]) (isListOf_writeList fun v _ => isStrings_write v)
    benchmark := .of_nodup hnodup (by simp [members]) (isStrings_write _)
    invocation := .of_nodup hnodup (by simp [members]) (isPartialInvocation_write _)
    grid := .of_nodup hnodup (by simp [members]) (isPartialGrid_write h)
    output := .of_nodup hnodup (by simp [members]) (isString_writeString _)
    parallel := .of_nodup hnodup (by simp [members]) (isCount_write _)
    timeoutSeconds := .of_nodup hnodup (by simp [members])
      (isOption_writeOption fun n _ => isCount_write n)
    others := othersAreValues_of_map_eq rfl }

namespace Config

/-- **The text of a configuration is read as the configuration**, bit for bit, if its ratios are
short. -/
theorem ofJson_toJson (c : Config) (h : ∀ x ∈ c.grid.ratios, IsShortRatio x) :
    ofJson c.toJson = .ok c := by
  have hread := read_of_takes (takes_partialConfig (isPartialConfig_write h)) blanks_nil blanks_nil
  rw [List.append_nil, List.nil_append, fill_given] at hread
  rw [ofJson, toJson, String.toList_ofList, hread]
  rfl

/-- A configuration that no check accepts, with escapes and a negative zero. -/
theorem ofJson_toJson_negative_zero :
    let c : Config :=
      { build := [[]], benchmark := ["\"\\\n\x01é"], parallel := 0, timeoutSeconds := some 0
        grid := { servers := [], clients := [0],
                  ratios := [.ofMagnitude true 0, .ofMagnitude false 4591870180066957722] } }
    (∀ x ∈ c.grid.ratios, IsShortRatio x) ∧ ofJson c.toJson = .ok c := by
  intro c
  have hshort : ∀ x ∈ c.grid.ratios, IsShortRatio x := by
    intro x hx
    simp only [c, List.mem_cons, List.not_mem_nil, or_false] at hx
    rcases hx with rfl | rfl
    · exact ⟨0, 0, by decide, by decide, by decide, by decide +kernel⟩
    · exact ⟨1, 1, by decide, by decide, by decide, by decide +kernel⟩
  exact ⟨hshort, ofJson_toJson c hshort⟩

end Config

end BenchSweep
