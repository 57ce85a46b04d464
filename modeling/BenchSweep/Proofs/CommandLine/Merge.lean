import BenchSweep.CommandLine.Run
import BenchSweep.Proofs.CommandLine.Arguments
import BenchSweep.Proofs.CommandLine.Values
import Mathlib.Data.List.Perm.Basic

/-!
# Four layers of values

The value of a field comes from its flag, or else from the variable of its flag, or else from the
file of the configuration, or else it is the default. Each field takes its value by itself, so that
the order of the flags has no part in it.

## Why a configuration is told field by field

Sixteen flags over four layers give more combinations than could be listed, and a list would say of
each only what one run does. So a configuration is told by what stands in the field of each flag:
`Settings.Merges` asks of every field that it has what the text given for its flag says, and
otherwise what the configuration below has there. A text that went into the field of another flag
would break it at two fields, and one that was left out at one.

## Scope

What a command line gives is told by its arguments, and what a file gives by its text, which
`readText` finds under the path. Nothing is said here of how arguments are split by a shell. The
requests of the sweep that is run are the subject of `BenchSweep.Proofs.Sweep.Phases`; here a
command line that fails is shown to make none.

## Main definitions

* `Settings.Gives`: what settings give for a flag.
* `Settings.Starts`: the configuration below the settings.
* `Settings.Merges`: a configuration has the values of the settings over those of another one.
* `Settings.Fails`: the first thing that cannot be read.

## Main results

* `Settings.config_eq_ok_iff`, `Settings.config_eq_error_iff`: the configuration of settings.
* `run_eq_of_perm`: flags may be given in any order.
* `run_of_read_eq_ok`: what an accepted command line runs.
-/

namespace BenchSweep.CommandLine

namespace Settings

/-- What settings give for a flag: nothing but the flag itself, the value beside it, or the value of
its variable. -/
inductive Gives (s : Settings) : Flag → String → Prop
  | alone {f : Flag} (hf : f ∈ [Flag.skipBuild, .dryRun]) (huse : f ∈ s.uses.map Use.flag) :
      Gives s f ""
  | beside {f : Flag} {text : String} (hf : f ∉ [Flag.skipBuild, .dryRun])
      (huse : ⟨f, some text⟩ ∈ s.uses) : Gives s f text
  | fromEnv {f : Flag} {name text : String} (hname : f.HasVariable name)
      (henv : s.env name = some text) (hbeside : ∀ value, ⟨f, some value⟩ ∉ s.uses) : Gives s f text

/-- The configuration below the settings: that of the text in a file, or else the default. -/
inductive Starts (s : Settings) (readText : String → Except SystemError String) :
    Except Failure Config → Prop
  | default (hpath : ∀ path, ¬ s.Gives .config path) : Starts s readText (.ok {})
  | file {path text : String} {c : Config} (hpath : s.Gives .config path)
      (htext : readText path = .ok text) (hjson : Config.ofJson text = .ok c) :
      Starts s readText (.ok c)
  | noText {path : String} {e : SystemError} (hpath : s.Gives .config path)
      (htext : readText path = .error e) :
      Starts s readText (.error ⟨[.readingConfig path], .system e⟩)
  | noConfig {path text : String} {e : Failure} (hpath : s.Gives .config path)
      (htext : readText path = .ok text) (hjson : Config.ofJson text = .error e) :
      Starts s readText (.error (e.inContext (.parsingConfig path)))

/-- All that settings give for a flag says something. -/
def Reads (s : Settings) (f : Flag) : Prop :=
  ∀ text, s.Gives f text → ∃ v, f.Says text v

/-- A configuration has, in the field of every flag, what the settings give for it, and otherwise
the value that another configuration has there. -/
def Merges (s : Settings) (c c' : Config) : Prop :=
  ∀ f, (∀ text, s.Gives f text → f.Says text (c'.field f)) ∧
    ((∀ text, ¬ s.Gives f text) → c'.field f = c.field f)

/-- The first thing that cannot be read: the file, and then the texts that are given. -/
inductive Fails (s : Settings) (readText : String → Except SystemError String) : Failure → Prop
  | file {e : Failure} (h : s.Starts readText (.error e)) : Fails s readText e
  | value {c : Config} {before after : List Flag} {f : Flag} {text : String} {e : Failure}
      (h : s.Starts readText (.ok c)) (hsplit : readFlags = before ++ f :: after)
      (hbefore : ∀ g ∈ before, s.Reads g) (hgives : s.Gives f text)
      (hrefuses : f.Refuses text e) : Fails s readText e

variable {s s' : Settings} {c c' : Config} {readText : String → Except SystemError String}

/-! ### What is given -/

/-- No flag is given twice, so the value that is found first is the only one. -/
theorem findSome?_value_eq_some_iff (hs : (s.uses.map Use.flag).Nodup) {f : Flag} {text : String} :
    (s.uses.findSome? fun u => if u.flag = f then u.value else none) = some text ↔
      ⟨f, some text⟩ ∈ s.uses := by
  have hmem {t : String}
      (h : (s.uses.findSome? fun u => if u.flag = f then u.value else none) = some t) :
      ⟨f, some t⟩ ∈ s.uses := by
    obtain ⟨⟨g, value⟩, huse, hvalue⟩ := List.exists_of_findSome?_eq_some h
    by_cases hg : g = f
    · rw [if_pos hg] at hvalue
      subst hg
      exact hvalue ▸ huse
    · rw [if_neg hg] at hvalue
      cases hvalue
  refine ⟨hmem, fun huse => ?_⟩
  cases hfound : s.uses.findSome? fun u => if u.flag = f then u.value else none with
  | none =>
    have := List.findSome?_eq_none_iff.1 hfound _ huse
    simp at this
  | some t =>
    have hsame := List.inj_on_of_nodup_map hs (hmem hfound) huse rfl
    exact congrArg Use.value hsame

theorem takesValue_eq_false_iff {f : Flag} :
    f.takesValue = false ↔ f ∈ [Flag.skipBuild, .dryRun] := by
  cases f <;> decide

theorem given?_eq_some_iff (hs : s.Accepted) {f : Flag} {text : String} :
    s.given? f = some text ↔ s.Gives f text := by
  rw [given?]
  by_cases hf : f ∈ [Flag.skipBuild, .dryRun]
  · have hhas : s.has f = true ↔ f ∈ s.uses.map Use.flag := by
      simp [has]
    rw [takesValue_eq_false_iff.2 hf, if_neg Bool.false_ne_true]
    constructor
    · intro h
      split at h
      next hgiven =>
        cases h
        exact .alone hf (hhas.1 hgiven)
      next => cases h
    · rintro (⟨_, huse⟩ | ⟨hf', _⟩ | ⟨hname, _, _⟩)
      · rw [if_pos (hhas.2 huse)]
      · exact absurd hf hf'
      · cases hname <;> exact absurd hf (by decide)
  · have htakes : f.takesValue = true := by
      rwa [← Bool.not_eq_false, takesValue_eq_false_iff]
    have hnone : (s.uses.findSome? fun u => if u.flag = f then u.value else none) = none ↔
        ∀ value, ⟨f, some value⟩ ∉ s.uses := by
      rw [Option.eq_none_iff_forall_ne_some]
      exact forall_congr' fun value => not_congr (findSome?_value_eq_some_iff hs.nodup)
    rw [if_pos htakes, value?, Option.or_eq_some_iff, findSome?_value_eq_some_iff hs.nodup,
      Option.bind_eq_some_iff, hnone]
    constructor
    · rintro (huse | ⟨hbeside, name, hname, henv⟩)
      · exact .beside hf huse
      · exact .fromEnv (Flag.variableName?_eq_some_iff.1 hname) henv hbeside
    · rintro (⟨hf', _⟩ | ⟨_, huse⟩ | ⟨hname, henv, hbeside⟩)
      · exact absurd hf' hf
      · exact .inl huse
      · exact .inr ⟨hbeside, _, Flag.variableName?_eq_some_iff.2 hname, henv⟩

theorem given?_eq_none_iff (hs : s.Accepted) {f : Flag} :
    s.given? f = none ↔ ∀ text, ¬ s.Gives f text := by
  rw [Option.eq_none_iff_forall_ne_some]
  exact forall_congr' fun text => not_congr (given?_eq_some_iff hs)

theorem has_dryRun_eq : s.has .dryRun = (s.given? .dryRun).isSome := by
  rw [given?, if_neg (by decide)]
  cases s.has .dryRun <;> rfl

/-! ### The configuration of settings -/

theorem starts_base (hs : s.Accepted) : s.Starts readText (s.base readText) := by
  have hgiven : s.value? .config = s.given? .config := rfl
  rw [base, hgiven]
  split
  next path hpath =>
    have hgives := (given?_eq_some_iff hs).1 hpath
    rw [Config.ofFile]
    split
    next e htext => exact .noText hgives htext
    next text htext =>
      cases hjson : Config.ofJson text with
      | error e => exact .noConfig hgives htext hjson
      | ok c => exact .file hgives htext hjson
  next hpath => exact .default ((given?_eq_none_iff hs).1 hpath)

theorem Starts.eq_base (hs : s.Accepted) {start : Except Failure Config}
    (h : s.Starts readText start) : start = s.base readText := by
  have hgiven : s.value? .config = s.given? .config := rfl
  have hfile {path : String} (hpath : s.Gives .config path) :
      s.base readText = Config.ofFile readText path := by
    rw [base, hgiven, (given?_eq_some_iff hs).2 hpath]
  cases h with
  | default hpath => rw [base, hgiven, (given?_eq_none_iff hs).2 hpath]
  | file hpath htext hjson =>
    rw [hfile hpath, Config.ofFile, htext]
    dsimp only
    rw [hjson]
    rfl
  | noText hpath htext => rw [hfile hpath, Config.ofFile, htext]
  | noConfig hpath htext hjson =>
    rw [hfile hpath, Config.ofFile, htext]
    dsimp only
    rw [hjson]
    rfl

theorem resolve_eq_ok_iff (hs : s.Accepted) {f : Flag} {v : f.Field} :
    s.resolve c f = .ok v ↔
      (∀ text, s.Gives f text → f.Says text v) ∧
        ((∀ text, ¬ s.Gives f text) → v = c.field f) := by
  rw [resolve]
  cases hgiven : s.given? f with
  | none =>
    have hnot := (given?_eq_none_iff hs).1 hgiven
    simp [hnot, eq_comm]
  | some text =>
    have hgives := (given?_eq_some_iff hs).1 hgiven
    refine Flag.read_eq_ok_iff.trans ?_
    constructor
    · intro h
      refine ⟨fun t ht => ?_, fun hnot => absurd hgives (hnot text)⟩
      cases hgiven.symm.trans ((given?_eq_some_iff hs).2 ht)
      exact h
    · exact fun h => h.1 text hgives

theorem override_eq_ok_iff_merges (hs : s.Accepted) : s.override c = .ok c' ↔ s.Merges c c' :=
  override_eq_ok_iff.trans (forall_congr' fun _ => resolve_eq_ok_iff hs)

theorem fault?_eq_some_iff (hs : s.Accepted) {f : Flag} {e : Failure} :
    s.fault? f = some e ↔ ∃ text, s.Gives f text ∧ f.Refuses text e := by
  rw [fault?, Option.bind_eq_some_iff]
  refine exists_congr fun text => and_congr (given?_eq_some_iff hs) ?_
  rw [← Flag.read_eq_error_iff]
  cases f.read text <;> simp

theorem fault?_eq_none_iff (hs : s.Accepted) {f : Flag} : s.fault? f = none ↔ s.Reads f := by
  rw [Option.eq_none_iff_forall_ne_some, Reads]
  constructor
  · intro h text hgives
    cases hread : f.read text with
    | error e =>
      exact absurd ((fault?_eq_some_iff hs).2 ⟨text, hgives, Flag.read_eq_error_iff.1 hread⟩) (h e)
    | ok v => exact ⟨v, Flag.read_eq_ok_iff.1 hread⟩
  · intro h e he
    obtain ⟨text, hgives, hrefuses⟩ := (fault?_eq_some_iff hs).1 he
    obtain ⟨v, hsays⟩ := h text hgives
    cases (Flag.read_eq_error_iff.2 hrefuses).symm.trans (Flag.read_eq_ok_iff.2 hsays)

theorem Merges.reads (h : s.Merges c c') (f : Flag) : s.Reads f :=
  fun text hgives => ⟨_, (h f).1 text hgives⟩

/-- The field of a flag depends on what is given for the flag, and on nothing else. -/
theorem Merges.field_eq {c'' : Config} (h : s.Merges c c') (h' : s'.Merges c c'') {f : Flag}
    (hsame : ∀ text, s'.Gives f text ↔ s.Gives f text) : c''.field f = c'.field f := by
  by_cases hgives : ∃ text, s.Gives f text
  · obtain ⟨text, hgives⟩ := hgives
    have hsays' := Flag.read_eq_ok_iff.2 ((h' f).1 text ((hsame text).2 hgives))
    exact Except.ok.inj (hsays'.symm.trans (Flag.read_eq_ok_iff.2 ((h f).1 text hgives)))
  · rw [not_exists] at hgives
    rw [(h f).2 hgives, (h' f).2 fun text => (not_congr (hsame text)).2 (hgives text)]

theorem Merges.unique {c'' : Config} (h'' : s.Merges c c'') (h : s.Merges c c') : c'' = c' :=
  Config.ext_field fun _ => h.field_eq h'' fun _ => Iff.rfl

/-- What can be read can be put in. -/
theorem exists_merges (c : Config) (hs : s.Accepted) (hreads : ∀ f, s.Reads f) :
    ∃ c', s.Merges c c' := by
  cases hoverride : s.override c with
  | ok c' => exact ⟨c', (override_eq_ok_iff_merges hs).1 hoverride⟩
  | error e =>
    obtain ⟨f, -, hfault⟩ := List.exists_of_findSome?_eq_some (override_eq_error_iff.1 hoverride)
    cases hfault.symm.trans ((fault?_eq_none_iff hs).2 (hreads f))

/-- **The configuration of settings that can be read.** -/
theorem config_eq_ok_iff (hs : s.Accepted) :
    s.config readText = .ok c' ↔ ∃ c, s.Starts readText (.ok c) ∧ s.Merges c c' := by
  constructor
  · intro h
    obtain ⟨c, hbase, hoverride⟩ := exists_of_bind_eq_ok h
    exact ⟨c, hbase ▸ starts_base hs, (override_eq_ok_iff_merges hs).1 hoverride⟩
  · rintro ⟨c, hstart, hmerge⟩
    rw [config, ← hstart.eq_base hs]
    exact (override_eq_ok_iff_merges hs).2 hmerge

/-- **Settings fail with the first thing that cannot be read.** -/
theorem config_eq_error_iff (hs : s.Accepted) {e : Failure} :
    s.config readText = .error e ↔ s.Fails readText e := by
  constructor
  · intro h
    rcases eq_error_or_of_bind h with hbase | ⟨c, hbase, hoverride⟩
    · exact .file (hbase ▸ starts_base hs)
    · obtain ⟨before, f, after, hsplit, hfault, hbefore⟩ :=
        List.findSome?_eq_some_iff.1 (override_eq_error_iff.1 hoverride)
      obtain ⟨text, hgives, hrefuses⟩ := (fault?_eq_some_iff hs).1 hfault
      exact .value (hbase ▸ starts_base hs) hsplit
        (fun g hg => (fault?_eq_none_iff hs).1 (hbefore g hg)) hgives hrefuses
  · intro h
    cases h with
    | file hstart =>
      rw [config, ← hstart.eq_base hs]
      rfl
    | value hstart hsplit hbefore hgives hrefuses =>
      rw [config, ← hstart.eq_base hs]
      exact override_eq_error_iff.2 (List.findSome?_eq_some_iff.2
        ⟨_, _, _, hsplit, (fault?_eq_some_iff hs).2 ⟨_, hgives, hrefuses⟩,
          fun g hg => (fault?_eq_none_iff hs).2 (hbefore g hg)⟩)

/-- Settings that give the same are the same to a configuration. -/
theorem config_congr (h : ∀ f, s.given? f = s'.given? f) :
    s.config readText = s'.config readText := by
  have hresolve : s.resolve = s'.resolve := by
    funext c f
    rw [resolve, resolve, h]
  have hset : s.set = s'.set := by
    funext c f
    rw [set, set, hresolve]
  have hbase : s.base readText = s'.base readText := by
    have hpath : s.value? .config = s'.value? .config := h .config
    rw [base, base, hpath]
  rw [config, config, hbase]
  simp only [override_eq_foldlM, hset]

/-! ### The order of the flags -/

theorem value?_eq_of_perm (hs : (s.uses.map Use.flag).Nodup) (h : s'.uses.Perm s.uses)
    (henv : s'.env = s.env) (f : Flag) : s'.value? f = s.value? f := by
  rw [value?, value?, henv]
  congr 1
  refine Option.ext fun text => ?_
  have hs' : (s'.uses.map Use.flag).Nodup := (h.map Use.flag).nodup_iff.2 hs
  rw [findSome?_value_eq_some_iff hs', findSome?_value_eq_some_iff hs, h.mem_iff]

theorem Accepted.of_perm (hs : s.Accepted) (h : s'.uses.Perm s.uses) (henv : s'.env = s.env) :
    s'.Accepted where
  nodup := (h.map Use.flag).nodup_iff.2 hs.nodup
  hasValue use huse := by
    rw [lacksValue, value?_eq_of_perm hs.nodup h henv]
    exact hs.hasValue use (h.subset huse)

/-- Settings say the same in any order. -/
theorem given?_eq_of_perm (hs : s.Accepted) (h : s'.uses.Perm s.uses) (henv : s'.env = s.env)
    (f : Flag) : s'.given? f = s.given? f := by
  have hhas : s'.has f = s.has f := h.any_eq
  rw [given?, given?, value?_eq_of_perm hs.nodup h henv, hhas]

end Settings

variable {readText : String → Except SystemError String} {env : String → Option String}
  {dir : String} {args : List String} {s s' : Settings}

theorem run_eq_runSettings (h : Settings.read args env = .ok s) :
    run readText env dir args = runSettings readText dir s := by
  rw [run, h]

/-- Settings that give the same run the same. -/
theorem runSettings_congr (h : ∀ f, s.given? f = s'.given? f) :
    runSettings readText dir s = runSettings readText dir s' := by
  rw [runSettings, runSettings, Settings.config_congr h, Settings.has_dryRun_eq,
    Settings.has_dryRun_eq, h]

/-- **Flags may be given in any order**, each with its value. -/
theorem run_eq_of_perm (h : Settings.read args env = .ok s) {groups groups' : List (List String)}
    {last : List String} (hgroups : List.Forall₂ Use.IsGiven s.uses groups) (hlast : IsEnd last)
    (hperm : groups'.Perm groups) :
    run readText env dir (groups'.flatten ++ last) = run readText env dir args := by
  obtain ⟨-, henv, hs⟩ := Settings.read_eq_ok_iff.1 h
  obtain ⟨uses', hgroups', huses⟩ := List.perm_comp_forall₂ hperm hgroups.flip
  have hs' : Settings.read (groups'.flatten ++ last) env = .ok ⟨uses', env⟩ :=
    Settings.read_eq_ok_iff.2 ⟨⟨groups', last, rfl, hgroups'.flip, hlast⟩, rfl,
      hs.of_perm huses henv.symm⟩
  rw [run_eq_runSettings h, run_eq_runSettings hs']
  exact runSettings_congr (Settings.given?_eq_of_perm hs huses henv.symm)

/-- **What an accepted command line runs.** Its flags are all different and may stand in any order.
If the file and all texts can be read, there is one configuration that has in every field what is
given for its flag, or else the value below; a field is so not touched by the other flags. Otherwise
the command line ends with the first failure, and there is no request before that. -/
theorem run_of_read_eq_ok (readText : String → Except SystemError String) (dir : String)
    (h : Settings.read args env = .ok s) :
    ((s.uses.map Use.flag).Nodup ∧ s.env = env ∧
      ∃ groups last, args = groups.flatten ++ last ∧
        List.Forall₂ Use.IsGiven s.uses groups ∧ IsEnd last ∧
        ∀ groups' : List (List String), groups'.Perm groups →
          run readText env dir (groups'.flatten ++ last) = run readText env dir args) ∧
    (∀ c, s.Starts readText (.ok c) → (∀ f, s.Reads f) →
      ∃ c', s.Merges c c' ∧ (∀ c'', s.Merges c c'' → c'' = c') ∧
        run readText env dir args =
          match Sweep.ofConfig c' dir with
          | .error fault => .done (.failed (.ofFault fault))
          | .ok sweep => runSweep sweep (s.has .dryRun)) ∧
    (∀ args' env' s', Settings.read args' env' = .ok s' → ∀ f,
      (∀ text, s'.Gives f text ↔ s.Gives f text) →
        ∀ c c' c'', s.Merges c c' → s'.Merges c c'' → c''.field f = c'.field f) ∧
    (∀ e, s.Fails readText e → run readText env dir args = .done (.failed e)) ∧
    ((∃ e, s.Fails readText e) ∨ (∃ c, s.Starts readText (.ok c)) ∧ ∀ f, s.Reads f) := by
  obtain ⟨⟨groups, last, hargs, hgroups, hlast⟩, henv, hs⟩ := Settings.read_eq_ok_iff.1 h
  refine ⟨⟨hs.nodup, henv, groups, last, hargs, hgroups, hlast, fun groups' hperm =>
    run_eq_of_perm h hgroups hlast hperm⟩, ?_, ?_, ?_, ?_⟩
  · intro c hstart hreads
    obtain ⟨c', hmerge⟩ := Settings.exists_merges c hs hreads
    have hconfig := (Settings.config_eq_ok_iff hs).2 ⟨c, hstart, hmerge⟩
    refine ⟨c', hmerge, fun c'' hmerge'' => hmerge''.unique hmerge, ?_⟩
    refine (run_eq_runSettings h).trans ?_
    unfold runSettings
    split
    · next e he => cases hconfig.symm.trans he
    · next c₁ hc₁ =>
      cases hconfig.symm.trans hc₁
      rfl
  · intro args' env' s' h' f hsame c c' c'' hmerge hmerge''
    exact Settings.Merges.field_eq hmerge hmerge'' hsame
  · intro e hfails
    rw [run_eq_runSettings h, runSettings, (Settings.config_eq_error_iff hs).2 hfails]
  · cases hconfig : s.config readText with
    | error e => exact .inl ⟨e, (Settings.config_eq_error_iff hs).1 hconfig⟩
    | ok c' =>
      obtain ⟨c, hstart, hmerge⟩ := (Settings.config_eq_ok_iff hs).1 hconfig
      exact .inr ⟨⟨c, hstart⟩, hmerge.reads⟩

/-- The port is given twice, by its flag and by its variable; the directory of the data comes from
its variable although the file has one, the path of the results and the counts of clients from the
file, and two lists and a row of words from flags. A list of clients with a bad entry is reported,
and the row of ratios behind it, which is bad as well, is not. -/
theorem run_of_read_eq_ok_layers :
    let env : String → Option String :=
      ([("KVSWEEP_ZK_PORT", "99"), ("KVSWEEP_DATA_DIR", "mail")].lookup ·)
    let text := "\x7b\"output\":\"o\",\"grid\":\x7b\"clients\":[1]\x7d," ++
      "\"invocation\":\x7b\"zk_port\":7,\"data_dir\":\"d\"\x7d\x7d"
    let args := ["--zk-port=2182", "--skip-build", "--config", "file", "--servers", "+3, 4,",
      "--ratios=0.5", "--benchmark", " java  -jar x"]
    let s : Settings := ⟨[⟨.port, some "2182"⟩, ⟨.skipBuild, none⟩, ⟨.config, some "file"⟩,
      ⟨.servers, some "+3, 4,"⟩, ⟨.ratios, some "0.5"⟩, ⟨.benchmark, some " java  -jar x"⟩], env⟩
    let bad := ["--ratios=half", "--clients", "5, x,y"]
    let t : Settings := ⟨[⟨.ratios, some "half"⟩, ⟨.clients, some "5, x,y"⟩], env⟩
    (Settings.read args env = .ok s ∧
      run (fun _ => .ok text) env "." args =
        runSweep
          ⟨{ build := [], benchmark := ["java", "-jar", "x"],
             invocation := { port := 2182, dataDir := "mail" },
             grid := ⟨[3, 4], [1], [⟨0x3fe0000000000000⟩]⟩, output := "o" }, "."⟩ false) ∧
    Settings.read bad env = .ok t ∧
      run (fun _ => .ok text) env "." bad =
        .done (.failed ⟨[.listFlag .clients, .listEntry "x"], .count .invalidDigit⟩) := by
  intro env text args s bad t
  have h : Settings.read args env = .ok s := rfl
  have ht : Settings.read bad env = .ok t := rfl
  obtain ⟨-, -, hs⟩ := Settings.read_eq_ok_iff.1 h
  obtain ⟨-, -, hsbad⟩ := Settings.read_eq_ok_iff.1 ht
  let below : Config :=
    { invocation := { port := 7, dataDir := "d" },
      grid := { Grid.default with clients := [1] },
      output := "o" }
  have hbase : s.base (fun _ => .ok text) = .ok below := by decide +kernel
  have hoverride : s.override below = .ok
      { build := [], benchmark := ["java", "-jar", "x"],
        invocation := { port := 2182, dataDir := "mail" },
        grid := ⟨[3, 4], [1], [⟨0x3fe0000000000000⟩]⟩, output := "o" } := by
    decide +kernel
  have hmerge := (Settings.override_eq_ok_iff_merges hs).1 hoverride
  have hfails : t.config (fun _ => .ok text) =
      .error ⟨[.listFlag .clients, .listEntry "x"], .count .invalidDigit⟩ := by
    decide +kernel
  obtain ⟨-, hruns, -⟩ := run_of_read_eq_ok (fun _ => .ok text) "." h
  obtain ⟨c', -, hunique, hrun⟩ := hruns below (hbase ▸ Settings.starts_base hs) hmerge.reads
  obtain rfl := hunique _ hmerge
  obtain ⟨-, -, -, hreport, -⟩ := run_of_read_eq_ok (fun _ => .ok text) "." ht
  exact ⟨⟨h, hrun⟩, ht, hreport _ ((Settings.config_eq_error_iff hsbad).1 hfails)⟩

end BenchSweep.CommandLine
