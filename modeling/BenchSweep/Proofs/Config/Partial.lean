import BenchSweep.Config.Reader
import BenchSweep.Proofs.Json.Ratio
import BenchSweep.Proofs.Json.Record
import BenchSweep.Proofs.Json.Written

/-!
# Configurations that are given in part

A text may give any of the fields of a configuration, in any order and among members of other names,
and likewise for its invocation and its grid. Each field that is given has its value, and each other
field has its default, at every level by itself. A field that is given twice at one level is a
fault.

## Why every level has its own defaults

A text that gives one field of the grid leaves the other two to the default grid, and not to the
grid that some other text has given. So the fields that are given are collected level by level, in
`PartialGrid` and `PartialInvocation`, and each record is filled up by its own defaults before it is
put into the one around it. A name counts at the level where it stands and nowhere else.

## Scope

Two kinds of texts are told: those in which each field comes once at most, and those in which one
comes again, as long as every member of a known name has a value of its type. What is reported of a
value of another type, or of a text that is no object, is not a subject here. Members of other names
may have any value and come as often as they like.

## What a ratio is read as

`IsFloat` names the number that the reader makes of a literal. It would be compatible with a reader
that is far off, so the theorem adds what this number is: the nearest one if the literal is exact,
and one near it if the literal is from zero to one. `BenchSweep.Proofs.Json.Ratio` says why no more
can be said of all literals.

## Main definitions

* `PartialGrid`, `PartialInvocation`, `PartialConfig`: the fields that are given.
* `PartialConfig.fill`: the configuration with the defaults in the other fields.
* `IsPartialConfig`: the texts that give certain fields.
* `ConfigTyped`, `ConfigRepeats`: texts that may give a field more than once, and those that do.

## Main results

* `Config.ofJson_partial`: what a text is read as.
-/

namespace BenchSweep

open Json
open Number (Binary64 Literal twoTo)
open Number.Binary64 (IsNearest)

/-! ### What is given -/

/-- The fields of an invocation that are given. -/
structure PartialInvocation where
  configFile : Option String := none
  host : Option String := none
  port : Option UInt16 := none
  artifact : Option String := none
  dataDir : Option String := none

/-- The fields of a grid that are given. -/
structure PartialGrid where
  servers : Option (List UInt64) := none
  clients : Option (List UInt64) := none
  ratios : Option (List Binary64) := none

/-- The fields of a configuration that are given. -/
structure PartialConfig where
  workdir : Option (Option String) := none
  build : Option (List (List String)) := none
  benchmark : Option (List String) := none
  invocation : Option PartialInvocation := none
  grid : Option PartialGrid := none
  output : Option String := none
  parallel : Option UInt64 := none
  timeoutSeconds : Option (Option UInt64) := none

/-- The invocation of a sweep that names none. -/
def Invocation.default : Invocation := {}

/-- The configuration of a sweep that names nothing. -/
def Config.default : Config := {}

/-- The invocation with the defaults in the fields that are not given. -/
def PartialInvocation.fill (p : PartialInvocation) : Invocation where
  configFile := p.configFile.getD Invocation.default.configFile
  host := p.host.getD Invocation.default.host
  port := p.port.getD Invocation.default.port
  artifact := p.artifact.getD Invocation.default.artifact
  dataDir := p.dataDir.getD Invocation.default.dataDir

/-- The grid with the defaults in the fields that are not given. -/
def PartialGrid.fill (p : PartialGrid) : Grid where
  servers := p.servers.getD Grid.default.servers
  clients := p.clients.getD Grid.default.clients
  ratios := p.ratios.getD Grid.default.ratios

/-- The configuration with the defaults in the fields that are not given. -/
def PartialConfig.fill (p : PartialConfig) : Config where
  workdir := p.workdir.getD Config.default.workdir
  build := p.build.getD Config.default.build
  benchmark := p.benchmark.getD Config.default.benchmark
  invocation := (p.invocation.map PartialInvocation.fill).getD Config.default.invocation
  grid := (p.grid.map PartialGrid.fill).getD Config.default.grid
  output := p.output.getD Config.default.output
  parallel := p.parallel.getD Config.default.parallel
  timeoutSeconds := p.timeoutSeconds.getD Config.default.timeoutSeconds

/-! ### The texts -/

/-- Members of other names than those of a list have any value. -/
def OthersAreValues (names : List String) (members : List (String × List Char)) : Prop :=
  ∀ m ∈ members, m.1 ∉ names → IsValue m.2

/-- The names of the fields of an invocation. -/
def invocationNames : List String :=
  ["config_file", "zk_host", "zk_port", "server_artifact", "data_dir"]

/-- The names of the fields of a grid. -/
def gridNames : List String :=
  ["servers", "clients", "ratios"]

/-- The names of the fields of a configuration. -/
def configNames : List String :=
  ["workdir", "build", "benchmark", "invocation", "grid", "output", "parallel", "timeout_secs"]

/-- Members that give certain fields of an invocation. -/
structure InvocationMembers (members : List (String × List Char)) (p : PartialInvocation) :
    Prop where
  configFile : FieldIn members "config_file" IsString p.configFile
  host : FieldIn members "zk_host" IsString p.host
  port : FieldIn members "zk_port" IsPort p.port
  artifact : FieldIn members "server_artifact" IsString p.artifact
  dataDir : FieldIn members "data_dir" IsString p.dataDir
  others : OthersAreValues invocationNames members

/-- Members that give certain fields of a grid. -/
structure GridMembers (members : List (String × List Char)) (p : PartialGrid) : Prop where
  servers : FieldIn members "servers" (IsListOf IsCount) p.servers
  clients : FieldIn members "clients" (IsListOf IsCount) p.clients
  ratios : FieldIn members "ratios" (IsListOf IsFloat) p.ratios
  others : OthersAreValues gridNames members

/-- An object that gives certain fields of an invocation. -/
def IsPartialInvocation (s : List Char) (p : PartialInvocation) : Prop :=
  ∃ members, IsObject IsString s members ∧ InvocationMembers members p

/-- An object that gives certain fields of a grid. -/
def IsPartialGrid (s : List Char) (p : PartialGrid) : Prop :=
  ∃ members, IsObject IsString s members ∧ GridMembers members p

/-- Members that give certain fields of a configuration. -/
structure ConfigMembers (members : List (String × List Char)) (p : PartialConfig) : Prop where
  workdir : FieldIn members "workdir" (IsOption IsString) p.workdir
  build : FieldIn members "build" (IsListOf (IsListOf IsString)) p.build
  benchmark : FieldIn members "benchmark" (IsListOf IsString) p.benchmark
  invocation : FieldIn members "invocation" IsPartialInvocation p.invocation
  grid : FieldIn members "grid" IsPartialGrid p.grid
  output : FieldIn members "output" IsString p.output
  parallel : FieldIn members "parallel" IsCount p.parallel
  timeoutSeconds : FieldIn members "timeout_secs" (IsOption IsCount) p.timeoutSeconds
  others : OthersAreValues configNames members

/-- An object that gives certain fields of a configuration. -/
def IsPartialConfig (s : List Char) (p : PartialConfig) : Prop :=
  ∃ members, IsObject IsString s members ∧ ConfigMembers members p

/-! ### Texts that may repeat a field -/

/-- All members of a name have values of one type. -/
def FieldsAre {β : Type} (members : List (String × List Char)) (name : String)
    (IsItem : List Char → β → Prop) : Prop :=
  ∀ m ∈ members, m.1 = name → ∃ v, IsItem m.2 v

/-- Members of the types of an invocation; a name may come more than once. -/
structure InvocationTyped (members : List (String × List Char)) : Prop where
  configFile : FieldsAre members "config_file" IsString
  host : FieldsAre members "zk_host" IsString
  port : FieldsAre members "zk_port" IsPort
  artifact : FieldsAre members "server_artifact" IsString
  dataDir : FieldsAre members "data_dir" IsString
  others : OthersAreValues invocationNames members

/-- Members of the types of a grid; a name may come more than once. -/
structure GridTyped (members : List (String × List Char)) : Prop where
  servers : FieldsAre members "servers" (IsListOf IsCount)
  clients : FieldsAre members "clients" (IsListOf IsCount)
  ratios : FieldsAre members "ratios" (IsListOf IsFloat)
  others : OthersAreValues gridNames members

/-- An object of the type of an invocation, with its members. -/
def IsInvocationObject (s : List Char) (members : List (String × List Char)) : Prop :=
  IsObject IsString s members ∧ InvocationTyped members

/-- An object of the type of a grid, with its members. -/
def IsGridObject (s : List Char) (members : List (String × List Char)) : Prop :=
  IsObject IsString s members ∧ GridTyped members

/-- Members of the types of a configuration; a name may come more than once. -/
structure ConfigTyped (members : List (String × List Char)) : Prop where
  workdir : FieldsAre members "workdir" (IsOption IsString)
  build : FieldsAre members "build" (IsListOf (IsListOf IsString))
  benchmark : FieldsAre members "benchmark" (IsListOf IsString)
  invocation : FieldsAre members "invocation" IsInvocationObject
  grid : FieldsAre members "grid" IsGridObject
  output : FieldsAre members "output" IsString
  parallel : FieldsAre members "parallel" IsCount
  timeoutSeconds : FieldsAre members "timeout_secs" (IsOption IsCount)
  others : OthersAreValues configNames members

/-- A field is given twice at one level. -/
def ConfigRepeats (members : List (String × List Char)) : Prop :=
  Repeats configNames members ∨
    (∃ m ∈ members, m.1 = "invocation" ∧
      ∃ inner, IsInvocationObject m.2 inner ∧ Repeats invocationNames inner) ∨
    ∃ m ∈ members, m.1 = "grid" ∧ ∃ inner, IsGridObject m.2 inner ∧ Repeats gridNames inner

/-! ### Fields -/

section Fields

variable {α : Type} {fields : List (RecordField α)} {members : List (String × List Char)}

theorem FieldsAre.of_fieldIn {γ : Type} {name : String} {IsItem : List Char → γ → Prop}
    {value : Option γ} (h : FieldIn members name IsItem value) : FieldsAre members name IsItem :=
  fun _ hm hname => h.exists_item hm hname

theorem OthersAreValues.exists_effect {names : List String}
    (h : OthersAreValues names members) (hnames : fields.map RecordField.name = names)
    {m : String × List Char} (hm : m ∈ members) (hname : m.1 ∉ names) : ∃ g, Effect fields m g :=
  ⟨id, .unknown (find?_eq_none_iff.2 (hnames ▸ hname)) (h m hm hname)⟩

end Fields

/-! ### Grids -/

theorem takes_list_count {s : List Char} {v : List UInt64} (h : IsListOf IsCount s v) :
    Takes (readListOf readCount) s v :=
  takes_readListOf (fun _ _ h => ⟨takes_readCount h, h ▸ starts_decimal _⟩) h

theorem takes_list_float {s : List Char} {v : List Binary64} (h : IsListOf IsFloat s v) :
    Takes (readListOf readFloat) s v :=
  takes_readListOf (fun _ _ h => ⟨takes_readFloat h, h.elim fun l hl => hl.1 ▸ starts_literal l⟩) h

namespace Grid

theorem map_name_fields : fields.map RecordField.name = gridNames :=
  rfl

theorem field_servers : FieldAt fields "servers" (readListOf readCount)
    (fun value g => { g with servers := value }) Grid.servers where
  find := by simp [fields, RecordField.of]
  get_set _ _ := rfl
  keeps := by simp [fields]

theorem field_clients : FieldAt fields "clients" (readListOf readCount)
    (fun value g => { g with clients := value }) Grid.clients where
  find := by simp [fields, RecordField.of]
  get_set _ _ := rfl
  keeps := by simp [fields]

theorem field_ratios : FieldAt fields "ratios" (readListOf readFloat)
    (fun value g => { g with ratios := value }) Grid.ratios where
  find := by simp [fields, RecordField.of]
  get_set _ _ := rfl
  keeps := by simp [fields]

end Grid

theorem GridMembers.typed {members : List (String × List Char)} {p : PartialGrid}
    (h : GridMembers members p) : GridTyped members where
  servers := .of_fieldIn h.servers
  clients := .of_fieldIn h.clients
  ratios := .of_fieldIn h.ratios
  others := h.others

theorem GridMembers.not_repeats {members : List (String × List Char)} {p : PartialGrid}
    (h : GridMembers members p) : ¬Repeats gridNames members := by
  rintro ⟨name, hname, htwo⟩
  simp only [gridNames, List.mem_cons, List.not_mem_nil, or_false] at hname
  rcases hname with rfl | rfl | rfl
  · exact absurd h.servers.nameCount_le (by omega)
  · exact absurd h.clients.nameCount_le (by omega)
  · exact absurd h.ratios.nameCount_le (by omega)

theorem GridTyped.exists_effect {members : List (String × List Char)} (h : GridTyped members) :
    ∀ m ∈ members, ∃ g, Effect Grid.fields m g := by
  intro m hm
  by_cases hname : m.1 ∈ gridNames
  · simp only [gridNames, List.mem_cons, List.not_mem_nil, or_false] at hname
    rcases hname with hname | hname | hname
    · obtain ⟨v, hv⟩ := h.servers m hm hname
      exact Grid.field_servers.exists_effect hname (takes_list_count hv)
    · obtain ⟨v, hv⟩ := h.clients m hm hname
      exact Grid.field_clients.exists_effect hname (takes_list_count hv)
    · obtain ⟨v, hv⟩ := h.ratios m hm hname
      exact Grid.field_ratios.exists_effect hname (takes_list_float hv)
  · exact h.others.exists_effect Grid.map_name_fields hm hname

/-- An object of the type of a grid is read if no name comes again. -/
theorem exists_takes_grid {s : List Char} {members : List (String × List Char)}
    (h : IsGridObject s members) (hrepeats : ¬Repeats gridNames members) :
    ∃ g, Takes Grid.read s g := by
  obtain ⟨effects, heffects⟩ := exists_effects h.2.exists_effect
  exact ⟨_, takes_readRecord h.1 heffects hrepeats _ _⟩

theorem stops_grid {s : List Char} {members : List (String × List Char)}
    (h : IsGridObject s members) (hrepeats : Repeats gridNames members) : Stops Grid.read s :=
  stops_readRecord h.1 (fun m hm => .inl (h.2.exists_effect m hm)) (.inl hrepeats) _ _

/-- **A grid that is given in part is read with its defaults.** -/
theorem takes_partialGrid {s : List Char} {p : PartialGrid} (h : IsPartialGrid s p) :
    Takes Grid.read s p.fill := by
  obtain ⟨members, hobject, hmembers⟩ := h
  obtain ⟨effects, heffects⟩ := exists_effects hmembers.typed.exists_effect
  have htakes := takes_readRecord hobject heffects hmembers.not_repeats "struct ParameterGrid"
    Grid.default
  have hfill : effects.foldl (fun g effect => effect g) Grid.default = p.fill := by
    rw [PartialGrid.fill,
      ← Grid.field_servers.get_foldl_self (fun _ _ => takes_list_count) hmembers.servers heffects,
      ← Grid.field_clients.get_foldl_self (fun _ _ => takes_list_count) hmembers.clients heffects,
      ← Grid.field_ratios.get_foldl_self (fun _ _ => takes_list_float) hmembers.ratios heffects]
  exact hfill ▸ htakes

/-! ### Invocations -/

theorem starts_of_isString {s : List Char} {value : String} (h : IsString s value) : Starts s := by
  obtain ⟨body, rfl, -⟩ := h
  exact starts_of_mem _ (by decide)

theorem takes_text {s : List Char} {value : String} (h : IsString s value) :
    Takes readText s value :=
  takes_readStringAs "a string" h

theorem takes_path {s : List Char} {value : String} (h : IsString s value) :
    Takes readPath s value :=
  takes_readStringAs "path string" h

namespace Invocation

theorem map_name_fields : fields.map RecordField.name = invocationNames :=
  rfl

theorem field_configFile : FieldAt fields "config_file" readPath
    (fun value i => { i with configFile := value }) Invocation.configFile where
  find := by simp [fields, RecordField.of]
  get_set _ _ := rfl
  keeps := by simp [fields]

theorem field_host : FieldAt fields "zk_host" readText
    (fun value i => { i with host := value }) Invocation.host where
  find := by simp [fields, RecordField.of]
  get_set _ _ := rfl
  keeps := by simp [fields]

theorem field_port : FieldAt fields "zk_port" readPort
    (fun value i => { i with port := value }) Invocation.port where
  find := by simp [fields, RecordField.of]
  get_set _ _ := rfl
  keeps := by simp [fields]

theorem field_artifact : FieldAt fields "server_artifact" readPath
    (fun value i => { i with artifact := value }) Invocation.artifact where
  find := by simp [fields, RecordField.of]
  get_set _ _ := rfl
  keeps := by simp [fields]

theorem field_dataDir : FieldAt fields "data_dir" readPath
    (fun value i => { i with dataDir := value }) Invocation.dataDir where
  find := by simp [fields, RecordField.of]
  get_set _ _ := rfl
  keeps := by simp [fields]

end Invocation

theorem InvocationMembers.typed {members : List (String × List Char)} {p : PartialInvocation}
    (h : InvocationMembers members p) : InvocationTyped members where
  configFile := .of_fieldIn h.configFile
  host := .of_fieldIn h.host
  port := .of_fieldIn h.port
  artifact := .of_fieldIn h.artifact
  dataDir := .of_fieldIn h.dataDir
  others := h.others

theorem InvocationMembers.not_repeats {members : List (String × List Char)} {p : PartialInvocation}
    (h : InvocationMembers members p) : ¬Repeats invocationNames members := by
  rintro ⟨name, hname, htwo⟩
  simp only [invocationNames, List.mem_cons, List.not_mem_nil, or_false] at hname
  rcases hname with rfl | rfl | rfl | rfl | rfl
  · exact absurd h.configFile.nameCount_le (by omega)
  · exact absurd h.host.nameCount_le (by omega)
  · exact absurd h.port.nameCount_le (by omega)
  · exact absurd h.artifact.nameCount_le (by omega)
  · exact absurd h.dataDir.nameCount_le (by omega)

theorem InvocationTyped.exists_effect {members : List (String × List Char)}
    (h : InvocationTyped members) : ∀ m ∈ members, ∃ g, Effect Invocation.fields m g := by
  intro m hm
  by_cases hname : m.1 ∈ invocationNames
  · simp only [invocationNames, List.mem_cons, List.not_mem_nil, or_false] at hname
    rcases hname with hname | hname | hname | hname | hname
    · obtain ⟨v, hv⟩ := h.configFile m hm hname
      exact Invocation.field_configFile.exists_effect hname (takes_path hv)
    · obtain ⟨v, hv⟩ := h.host m hm hname
      exact Invocation.field_host.exists_effect hname (takes_text hv)
    · obtain ⟨v, hv⟩ := h.port m hm hname
      exact Invocation.field_port.exists_effect hname (takes_readPort hv)
    · obtain ⟨v, hv⟩ := h.artifact m hm hname
      exact Invocation.field_artifact.exists_effect hname (takes_path hv)
    · obtain ⟨v, hv⟩ := h.dataDir m hm hname
      exact Invocation.field_dataDir.exists_effect hname (takes_path hv)
  · exact h.others.exists_effect Invocation.map_name_fields hm hname

/-- An object of the type of an invocation is read if no name comes again. -/
theorem exists_takes_invocation {s : List Char} {members : List (String × List Char)}
    (h : IsInvocationObject s members) (hrepeats : ¬Repeats invocationNames members) :
    ∃ i, Takes Invocation.read s i := by
  obtain ⟨effects, heffects⟩ := exists_effects h.2.exists_effect
  exact ⟨_, takes_readRecord h.1 heffects hrepeats _ _⟩

theorem stops_invocation {s : List Char} {members : List (String × List Char)}
    (h : IsInvocationObject s members) (hrepeats : Repeats invocationNames members) :
    Stops Invocation.read s :=
  stops_readRecord h.1 (fun m hm => .inl (h.2.exists_effect m hm)) (.inl hrepeats) _ _

/-- **An invocation that is given in part is read with its defaults.** -/
theorem takes_partialInvocation {s : List Char} {p : PartialInvocation}
    (h : IsPartialInvocation s p) : Takes Invocation.read s p.fill := by
  obtain ⟨members, hobject, hmembers⟩ := h
  obtain ⟨effects, heffects⟩ := exists_effects hmembers.typed.exists_effect
  have htakes := takes_readRecord hobject heffects hmembers.not_repeats "struct InvocationSpec"
    Invocation.default
  have hfill : effects.foldl (fun i effect => effect i) Invocation.default = p.fill := by
    rw [PartialInvocation.fill,
      ← Invocation.field_configFile.get_foldl_self (fun _ _ => takes_path) hmembers.configFile
        heffects,
      ← Invocation.field_host.get_foldl_self (fun _ _ => takes_text) hmembers.host heffects,
      ← Invocation.field_port.get_foldl_self (fun _ _ => takes_readPort) hmembers.port heffects,
      ← Invocation.field_artifact.get_foldl_self (fun _ _ => takes_path) hmembers.artifact heffects,
      ← Invocation.field_dataDir.get_foldl_self (fun _ _ => takes_path) hmembers.dataDir heffects]
  exact hfill ▸ htakes

/-! ### Configurations -/

theorem takes_texts {s : List Char} {v : List String} (h : IsListOf IsString s v) :
    Takes (readListOf readText) s v :=
  takes_readListOf (fun _ _ h => ⟨takes_text h, starts_of_isString h⟩) h

theorem starts_of_isList {s : List Char} {items : List (List Char)} (h : IsList s items) :
    Starts s := by
  obtain ⟨body, rfl, -⟩ := h
  exact starts_of_mem _ (by decide)

theorem takes_commands {s : List Char} {v : List (List String)}
    (h : IsListOf (IsListOf IsString) s v) : Takes (readListOf (readListOf readText)) s v :=
  takes_readListOf (fun _ _ h => ⟨takes_texts h, h.elim fun _ h => starts_of_isList h.1⟩) h

theorem takes_optionPath {s : List Char} {v : Option String} (h : IsOption IsString s v) :
    Takes (readOption readPath) s v :=
  takes_readOption (fun _ _ h => ⟨takes_path h, starts_of_isString h, by
    rw [head?_of_isString h]
    decide⟩) h

theorem head?_decimal_ne_letter (n : ℕ) : (Number.decimal n).head? ≠ some 'n' := by
  intro h
  have := Number.isDigit_of_mem_decimal (List.mem_of_mem_head? h)
  revert this
  decide

theorem takes_optionSeconds {s : List Char} {v : Option UInt64} (h : IsOption IsCount s v) :
    Takes (readOption readSeconds) s v :=
  takes_readOption (fun _ _ h => ⟨takes_readSeconds h, h ▸ starts_decimal _,
    h ▸ head?_decimal_ne_letter _⟩) h

namespace Config

theorem map_name_fields : fields.map RecordField.name = configNames :=
  rfl

theorem field_workdir : FieldAt fields "workdir" (readOption readPath)
    (fun value c => { c with workdir := value }) Config.workdir where
  find := by simp [fields, RecordField.of]
  get_set _ _ := rfl
  keeps := by simp [fields]

theorem field_build : FieldAt fields "build" (readListOf (readListOf readText))
    (fun value c => { c with build := value }) Config.build where
  find := by simp [fields, RecordField.of]
  get_set _ _ := rfl
  keeps := by simp [fields]

theorem field_benchmark : FieldAt fields "benchmark" (readListOf readText)
    (fun value c => { c with benchmark := value }) Config.benchmark where
  find := by simp [fields, RecordField.of]
  get_set _ _ := rfl
  keeps := by simp [fields]

theorem field_invocation : FieldAt fields "invocation" Invocation.read
    (fun value c => { c with invocation := value }) Config.invocation where
  find := by simp [fields, RecordField.of]
  get_set _ _ := rfl
  keeps := by simp [fields]

theorem field_grid : FieldAt fields "grid" Grid.read
    (fun value c => { c with grid := value }) Config.grid where
  find := by simp [fields, RecordField.of]
  get_set _ _ := rfl
  keeps := by simp [fields]

theorem field_output : FieldAt fields "output" readPath
    (fun value c => { c with output := value }) Config.output where
  find := by simp [fields, RecordField.of]
  get_set _ _ := rfl
  keeps := by simp [fields]

theorem field_parallel : FieldAt fields "parallel" readCount
    (fun value c => { c with parallel := value }) Config.parallel where
  find := by simp [fields, RecordField.of]
  get_set _ _ := rfl
  keeps := by simp [fields]

theorem field_timeoutSeconds : FieldAt fields "timeout_secs" (readOption readSeconds)
    (fun value c => { c with timeoutSeconds := value }) Config.timeoutSeconds where
  find := by simp [fields, RecordField.of]
  get_set _ _ := rfl
  keeps := by simp [fields]

end Config

theorem ConfigMembers.not_repeats {members : List (String × List Char)} {p : PartialConfig}
    (h : ConfigMembers members p) : ¬Repeats configNames members := by
  rintro ⟨name, hname, htwo⟩
  simp only [configNames, List.mem_cons, List.not_mem_nil, or_false] at hname
  rcases hname with rfl | rfl | rfl | rfl | rfl | rfl | rfl | rfl
  · exact absurd h.workdir.nameCount_le (by omega)
  · exact absurd h.build.nameCount_le (by omega)
  · exact absurd h.benchmark.nameCount_le (by omega)
  · exact absurd h.invocation.nameCount_le (by omega)
  · exact absurd h.grid.nameCount_le (by omega)
  · exact absurd h.output.nameCount_le (by omega)
  · exact absurd h.parallel.nameCount_le (by omega)
  · exact absurd h.timeoutSeconds.nameCount_le (by omega)

theorem ConfigMembers.typed {members : List (String × List Char)} {p : PartialConfig}
    (h : ConfigMembers members p) : ConfigTyped members where
  workdir := .of_fieldIn h.workdir
  build := .of_fieldIn h.build
  benchmark := .of_fieldIn h.benchmark
  invocation m hm hname := by
    obtain ⟨_, inner, hobject, hinner⟩ := h.invocation.exists_item hm hname
    exact ⟨inner, hobject, hinner.typed⟩
  grid m hm hname := by
    obtain ⟨_, inner, hobject, hinner⟩ := h.grid.exists_item hm hname
    exact ⟨inner, hobject, hinner.typed⟩
  output := .of_fieldIn h.output
  parallel := .of_fieldIn h.parallel
  timeoutSeconds := .of_fieldIn h.timeoutSeconds
  others := h.others

/-- A member of a configuration that is no record does something to it. -/
theorem ConfigTyped.effect_or_record {members : List (String × List Char)} (h : ConfigTyped members)
    {m : String × List Char} (hm : m ∈ members) :
    (∃ g, Effect Config.fields m g) ∨ m.1 = "invocation" ∨ m.1 = "grid" := by
  by_cases hname : m.1 ∈ configNames
  · simp only [configNames, List.mem_cons, List.not_mem_nil, or_false] at hname
    rcases hname with hname | hname | hname | hname | hname | hname | hname | hname
    · obtain ⟨v, hv⟩ := h.workdir m hm hname
      exact .inl (Config.field_workdir.exists_effect hname (takes_optionPath hv))
    · obtain ⟨v, hv⟩ := h.build m hm hname
      exact .inl (Config.field_build.exists_effect hname (takes_commands hv))
    · obtain ⟨v, hv⟩ := h.benchmark m hm hname
      exact .inl (Config.field_benchmark.exists_effect hname (takes_texts hv))
    · exact .inr (.inl hname)
    · exact .inr (.inr hname)
    · obtain ⟨v, hv⟩ := h.output m hm hname
      exact .inl (Config.field_output.exists_effect hname (takes_path hv))
    · obtain ⟨v, hv⟩ := h.parallel m hm hname
      exact .inl (Config.field_parallel.exists_effect hname (takes_readCount hv))
    · obtain ⟨v, hv⟩ := h.timeoutSeconds m hm hname
      exact .inl (Config.field_timeoutSeconds.exists_effect hname (takes_optionSeconds hv))
  · exact .inl (h.others.exists_effect Config.map_name_fields hm hname)

theorem ConfigMembers.exists_effect {members : List (String × List Char)} {p : PartialConfig}
    (h : ConfigMembers members p) : ∀ m ∈ members, ∃ g, Effect Config.fields m g := by
  intro m hm
  rcases h.typed.effect_or_record hm with heffect | hname | hname
  · exact heffect
  · obtain ⟨v, hv⟩ := h.invocation.exists_item hm hname
    exact Config.field_invocation.exists_effect hname (takes_partialInvocation hv)
  · obtain ⟨v, hv⟩ := h.grid.exists_item hm hname
    exact Config.field_grid.exists_effect hname (takes_partialGrid hv)

/-- A member of a configuration does something to it, or a name comes again inside. -/
theorem ConfigTyped.effect_or_isStopped {members : List (String × List Char)}
    (h : ConfigTyped members) : ∀ m ∈ members,
      (∃ g, Effect Config.fields m g) ∨ IsStopped Config.fields m := by
  intro m hm
  rcases h.effect_or_record hm with heffect | hname | hname
  · exact .inl heffect
  · obtain ⟨inner, hinner⟩ := h.invocation m hm hname
    by_cases hrepeats : Repeats invocationNames inner
    · exact .inr (Config.field_invocation.isStopped hname (stops_invocation hinner hrepeats))
    · obtain ⟨i, hi⟩ := exists_takes_invocation hinner hrepeats
      exact .inl (Config.field_invocation.exists_effect hname hi)
  · obtain ⟨inner, hinner⟩ := h.grid m hm hname
    by_cases hrepeats : Repeats gridNames inner
    · exact .inr (Config.field_grid.isStopped hname (stops_grid hinner hrepeats))
    · obtain ⟨g, hg⟩ := exists_takes_grid hinner hrepeats
      exact .inl (Config.field_grid.exists_effect hname hg)

/-- **A configuration that is given in part is read with its defaults.** -/
theorem takes_partialConfig {s : List Char} {p : PartialConfig} (h : IsPartialConfig s p) :
    Takes Config.read s p.fill := by
  obtain ⟨members, hobject, hmembers⟩ := h
  obtain ⟨effects, heffects⟩ := exists_effects hmembers.exists_effect
  have htakes := takes_readRecord hobject heffects hmembers.not_repeats "struct SweepConfig"
    Config.default
  have hfill : effects.foldl (fun c effect => effect c) Config.default = p.fill := by
    rw [PartialConfig.fill,
      ← Config.field_workdir.get_foldl_self (fun _ _ => takes_optionPath) hmembers.workdir heffects,
      ← Config.field_build.get_foldl_self (fun _ _ => takes_commands) hmembers.build heffects,
      ← Config.field_benchmark.get_foldl_self (fun _ _ => takes_texts) hmembers.benchmark heffects,
      ← Config.field_invocation.get_foldl (fun _ _ h => takes_partialInvocation h)
        hmembers.invocation heffects,
      ← Config.field_grid.get_foldl (fun _ _ h => takes_partialGrid h) hmembers.grid heffects,
      ← Config.field_output.get_foldl_self (fun _ _ => takes_path) hmembers.output heffects,
      ← Config.field_parallel.get_foldl_self (fun _ _ => takes_readCount) hmembers.parallel
        heffects,
      ← Config.field_timeoutSeconds.get_foldl_self (fun _ _ => takes_optionSeconds)
        hmembers.timeoutSeconds heffects]
  exact hfill ▸ htakes

/-- A name that comes again at some level stops the reading of a configuration. -/
theorem stops_config {s : List Char} {members : List (String × List Char)}
    (hobject : IsObject IsString s members) (htyped : ConfigTyped members)
    (hrepeats : ConfigRepeats members) : Stops Config.read s := by
  refine stops_readRecord hobject htyped.effect_or_isStopped ?_ _ _
  rcases hrepeats with hrepeats | ⟨m, hm, hname, inner, hinner, hrepeats⟩ |
    ⟨m, hm, hname, inner, hinner, hrepeats⟩
  · exact .inl hrepeats
  · exact .inr ⟨m, hm, Config.field_invocation.isStopped hname (stops_invocation hinner hrepeats)⟩
  · exact .inr ⟨m, hm, Config.field_grid.isStopped hname (stops_grid hinner hrepeats)⟩

namespace Config

/-- **A text that gives some fields, each once, is read as the configuration with these fields and
the defaults; a text that gives a field twice at one level is at fault.** The text of a ratio has
one value: that of an exact literal is the nearest number, and that of a literal from zero to one is
near it. -/
theorem ofJson_partial (before s after : List Char) (hbefore : Blanks before)
    (hafter : Blanks after) :
    (∀ p, IsPartialConfig s p → ofJson (String.ofList (before ++ (s ++ after))) = .ok p.fill) ∧
    (∀ members, IsObject IsString s members → ConfigTyped members → ConfigRepeats members →
      ∃ name line column, ofJson (String.ofList (before ++ (s ++ after))) =
        .error ⟨[.configText], .json ⟨.duplicate name, line, column⟩⟩) ∧
    (∀ ratio x y, IsFloat ratio x → IsFloat ratio y → x = y) ∧
    ∀ l : Literal, l.chars.length < twoTo 30 →
      (0 ≤ l.value → l.value ≤ 1 → ∃ x, IsFloat l.chars x ∧ IsNear l x) ∧
      (IsExact l → ∃ x, IsFloat l.chars x ∧ x.isNegative = l.negative ∧
        IsNearest |l.value| x.magnitude) := by
  refine ⟨fun p h => ?_, fun members hobject htyped hrepeats => ?_,
    fun ratio x y hx hy => hx.unique hy, fun l hlength => ⟨fun hlow hup => ?_, fun hexact => ?_⟩⟩
  · rw [ofJson, String.toList_ofList, read_of_takes (takes_partialConfig h) hbefore hafter]
    rfl
  · obtain ⟨name, line, column, hread⟩ :=
      read_of_stops (stops_config hobject htyped hrepeats) hbefore hafter
    refine ⟨name, line, column, ?_⟩
    rw [ofJson, String.toList_ofList, hread]
    rfl
  · obtain ⟨x, hx, hnear⟩ := exists_float?_isNear hlow hup hlength
    exact ⟨x, ⟨l, rfl, hx⟩, hnear⟩
  · exact ⟨l.number, ⟨l, rfl, float?_of_isExact hlength hexact⟩, isNearest_number l⟩

/-- A character of a name may be written by its code. -/
theorem isString_grid_escaped : IsString "\"gr\\u0069d\"".toList "grid" := by
  have hd : IsChars ['d'] ['d'] := .plain (by decide) .nil
  have hi : IsChars ['\\', 'u', '0', '0', '6', '9', 'd'] ['i', 'd'] :=
    .unicode (show hexValue? '0' '0' '6' '9' = some 105 by decide) rfl rfl hd
  exact ⟨_, by decide, .plain (by decide) (.plain (by decide) hi)⟩

/-- A number may be too large for any float. -/
theorem isValue_huge : IsValue "[1e999]".toList :=
  .list ⟨"1e999".toList, by decide, .series (.one (isPadded_self _))⟩ fun item hitem => by
    rw [List.mem_singleton.1 hitem]
    exact .number ⟨false, ['1'], [],
      some ⟨false, none, "999".toList, by decide, List.all_eq_true.1 rfl⟩,
      by decide, List.all_eq_true.1 rfl, by decide, List.all_eq_true.1 rfl⟩

/-- A count that is given twice is of the right type both times. -/
theorem configTyped_parallel : ConfigTyped [("parallel", ['1']), ("parallel", ['2'])] := by
  have hone : IsCount ['1'] 1 := rfl
  have htwo : IsCount ['2'] 2 := rfl
  have hparallel : FieldsAre [("parallel", ['1']), ("parallel", ['2'])] "parallel" IsCount := by
    simpa [FieldsAre] using ⟨⟨1, hone⟩, ⟨2, htwo⟩⟩
  exact ⟨by simp [FieldsAre], by simp [FieldsAre], by simp [FieldsAre], by simp [FieldsAre],
    by simp [FieldsAre], by simp [FieldsAre], hparallel, by simp [FieldsAre],
    by simp [OthersAreValues, configNames]⟩

/-- A ratio of one place. -/
theorem isFloat_half : IsFloat ['0', '.', '5'] ⟨0x3FE0000000000000⟩ :=
  ⟨⟨false, ['0'], ['5'], none, by decide, List.all_eq_true.1 rfl, by decide,
    List.all_eq_true.1 rfl⟩, by decide, by decide +kernel⟩

/-- A grid under an escaped name with two of its fields, among members of an unknown name; and a
field that is given twice. -/
theorem ofJson_partial_escaped :
    let clients := "\"clients\": [3]".toList
    let ratios := "\"ratios\":[0.5]".toList
    let grid := '\x7b' :: (clients ++ ',' :: ratios ++ ['\x7d'])
    let body := "\"gr\\u0069d\":".toList ++ (grid ++ " , \"x\":[1e999],\"x\":null".toList)
    let given := '\x7b' :: (body ++ ['\x7d'])
    let repeated := '\x7b' :: ("\"parallel\":1,\"parallel\":2".toList ++ ['\x7d'])
    (∃ p, IsPartialConfig given p) ∧
      (∃ members, IsObject IsString repeated members ∧ ConfigTyped members ∧
        ConfigRepeats members) ∧
      ofJson (String.ofList given) =
        .ok { grid := { Grid.default with clients := [3], ratios := [⟨0x3FE0000000000000⟩] } } ∧
      ∃ name line column, ofJson (String.ofList repeated) =
        .error ⟨[.configText], .json ⟨.duplicate name, line, column⟩⟩ := by
  intro clients ratios grid body given repeated
  have hblank : Blanks [' '] := by simp [Blanks, isBlank]
  have hclients : IsMember IsString clients ("clients", ['[', '3', ']']) :=
    ⟨"\"clients\"".toList, _, " [3]".toList, by decide, isPadded_self _,
      isString_writeString "clients", [' '], [], hblank, blanks_nil, by decide⟩
  have hratios : IsMember IsString ratios ("ratios", "[0.5]".toList) :=
    ⟨"\"ratios\"".toList, _, "[0.5]".toList, by decide, isPadded_self _,
      isString_writeString "ratios", isPadded_self _⟩
  have hthree : IsListOf IsCount ['[', '3', ']'] [3] :=
    ⟨[['3']], ⟨['3'], rfl, .series (.one (isPadded_self _))⟩, .cons rfl .nil⟩
  have hhalf : IsListOf IsFloat "[0.5]".toList [⟨0x3FE0000000000000⟩] :=
    ⟨[['0', '.', '5']], ⟨['0', '.', '5'], by decide, .series (.one (isPadded_self _))⟩,
      .cons isFloat_half .nil⟩
  have hgrid : IsPartialGrid grid
      { clients := some [3], ratios := some [⟨0x3FE0000000000000⟩] } :=
    ⟨[("clients", ['[', '3', ']']), ("ratios", "[0.5]".toList)],
      ⟨clients ++ ',' :: ratios, rfl, .series (.more hclients (.one hratios))⟩, by simp [FieldIn],
      ⟨[], _, _, rfl, by simp, by simp, hthree⟩,
      ⟨[("clients", ['[', '3', ']'])], _, [], rfl, by simp, by simp, hhalf⟩,
      by simp [OthersAreValues, gridNames]⟩
  have hx : IsString ['"', 'x', '"'] "x" := isString_writeString "x"
  have hgiven : IsPartialConfig given
      { grid := some { clients := some [3], ratios := some [⟨0x3FE0000000000000⟩] } } := by
    have hfirst : IsMember IsString ("\"gr\\u0069d\":".toList ++ (grid ++ [' '])) ("grid", grid) :=
      ⟨_, _, grid ++ [' '], rfl, isPadded_self _, isString_grid_escaped, [], [' '], blanks_nil,
        hblank, rfl⟩
    have hsecond : IsMember IsString " \"x\":[1e999]".toList ("x", "[1e999]".toList) :=
      ⟨" \"x\"".toList, _, "[1e999]".toList, by decide, ⟨[' '], [], hblank, blanks_nil, by decide⟩,
        hx, isPadded_self _⟩
    have hthird : IsMember IsString "\"x\":null".toList ("x", ['n', 'u', 'l', 'l']) :=
      ⟨_, _, ['n', 'u', 'l', 'l'], by decide, isPadded_self _, hx, isPadded_self _⟩
    let members := [("grid", grid), ("x", "[1e999]".toList), ("x", ['n', 'u', 'l', 'l'])]
    refine ⟨members, ⟨body, rfl, .series ?_⟩, ?_⟩
    · exact .more hfirst (.more hsecond (.one hthird))
    · have hothers : OthersAreValues configNames members := by
        simpa [OthersAreValues, members, configNames, IsValue.null] using isValue_huge
      have hone : FieldIn members "grid" IsPartialGrid
          (some { clients := some [3], ratios := some [⟨0x3FE0000000000000⟩] }) :=
        ⟨[], _, _, rfl, by simp, by simp, hgrid⟩
      have hnone {name : String} (hgrid : name ≠ "grid") (hx : name ≠ "x") :
          name ∉ members.map Prod.fst := by
        simp [members, hgrid, hx]
      exact ⟨hnone (by decide) (by decide), hnone (by decide) (by decide),
        hnone (by decide) (by decide), hnone (by decide) (by decide), hone,
        hnone (by decide) (by decide), hnone (by decide) (by decide),
        hnone (by decide) (by decide), hothers⟩
  have hobject : IsObject IsString repeated [("parallel", ['1']), ("parallel", ['2'])] :=
    isObject_writeObject [("parallel", ['1']), ("parallel", ['2'])]
  have hrepeats : ConfigRepeats [("parallel", ['1']), ("parallel", ['2'])] :=
    .inl ⟨"parallel", by decide, by decide⟩
  refine ⟨⟨_, hgiven⟩, ⟨_, hobject, configTyped_parallel, hrepeats⟩, ?_, ?_⟩
  · have h := (ofJson_partial [] given [] blanks_nil blanks_nil).1 _ hgiven
    rw [List.append_nil, List.nil_append] at h
    exact h
  · have h := (ofJson_partial [] repeated [] blanks_nil blanks_nil).2.1 _ hobject
      configTyped_parallel hrepeats
    rwa [List.append_nil, List.nil_append] at h

end Config

end BenchSweep
