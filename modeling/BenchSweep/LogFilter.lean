import BenchSweep.Event
import BenchSweep.Text.Blank

/-!
# Log filters

A log filter says which events are written to the log. It is a list of directives, each with a level
and with the topics that it is about. Of the directives about a topic the most special one decides.

## Main definitions

* `Directive`: a level for some topics.
* `LogFilter.read`, `LogFilter.ofEnv`: the filter that a text or an environment describes.
* `LogFilter.admits`: whether an event is written.
* `Event.line`: an event in the log.
* `LogFilter.lines`: the log of some events.
-/

namespace BenchSweep

/-- The rank of a level: a filter admits all levels up to its own rank. -/
def Level.rank : Level → Nat
  | .error => 1
  | .warn => 2
  | .info => 3
  | .debug => 4
  | .trace => 5

/-- The names of the ranks, from the one that admits nothing. -/
def rankNames : List String :=
  ["off", "error", "warn", "info", "debug", "trace"]

/-- The rank that a text denotes, as a name in any case or as a digit. -/
def readRank? (text : String) : Option Nat :=
  match text.toList with
  | [c] => if '0' ≤ c ∧ c ≤ '5' then some (c.toNat - '0'.toNat) else none
  | _ => rankNames.idxOf? text.toLower

/-- The greatest rank that is admitted for the topics that start with a text. -/
structure Directive where
  target : String
  rank : Nat
  deriving DecidableEq, Repr

namespace Directive

/-- A character of a topic. -/
def isTargetChar (c : Char) : Bool :=
  c.isAlphanum || c = '_' || c = ':' || c = '-'

/-- The directive that a text describes: a level, a target, or both with an equals sign between. -/
def read? (text : String) : Option Directive :=
  match readRank? text with
  | some rank => some ⟨"", rank⟩
  | none =>
    let target := text.toList.takeWhile isTargetChar
    if target = [] then none
    else
      match text.toList.drop target.length with
      | [] | ['='] => some ⟨String.ofList target, 5⟩
      | '=' :: level => (readRank? (String.ofList level)).map (⟨String.ofList target, ·⟩)
      | _ => none

/-- Whether a directive is about a topic. -/
def isAbout (d : Directive) (t : Topic) : Bool :=
  d.target.toList.isPrefixOf t.name.toList

end Directive

/-- A list of directives. -/
structure LogFilter where
  directives : List Directive
  deriving DecidableEq, Repr

namespace LogFilter

/-- The filter that a text describes. Pieces that describe nothing are left out; if nothing is left,
only errors are admitted. -/
def read (text : String) : LogFilter :=
  match (Text.splitOn ',' text.toList).filterMap (Directive.read? <| String.ofList ·) with
  | [] => ⟨[⟨"", Level.error.rank⟩]⟩
  | directives => ⟨directives⟩

/-- The variable of the environment that describes the filter. -/
def variableName : String :=
  "RUST_LOG"

/-- The filter that an environment describes. -/
def ofEnv (env : String → Option String) : LogFilter :=
  read ((env variableName).getD "")

/-- The directive that decides about a topic: the one with the longest target, and the last one of
those with the same target. -/
def decisive? (f : LogFilter) (t : Topic) : Option Directive :=
  (f.directives.filter (·.isAbout t)).foldl
    (fun best d =>
      match best with
      | none => some d
      | some b => if b.target.length ≤ d.target.length then some d else best)
    none

/-- Whether an event is written to the log. -/
def admits (f : LogFilter) (e : Event) : Bool :=
  match f.decisive? e.topic with
  | none => false
  | some d => e.level.rank ≤ d.rank

end LogFilter

/-- A text without the line feeds at its end. -/
def trimLineFeeds (text : String) : String :=
  String.ofList (text.toList.reverse.dropWhile (· = '\n')).reverse

/-- An event in the log. -/
def Event.line (e : Event) : String :=
  trimLineFeeds (e.level.name ++ " " ++ e.topic.name ++ ": " ++ e.message)

/-- The log of some events. -/
def LogFilter.lines (f : LogFilter) (events : List Event) : List String :=
  (events.filter f.admits).map Event.line

end BenchSweep
