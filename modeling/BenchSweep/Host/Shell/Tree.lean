import BenchSweep.Host.Raw

/-!
# Session programs

The commands of a shell program, and the words that they are made of, before anything in them is
expanded. The text of a command substitution stays as it is; it is read when it is expanded.

## Main definitions

* `Part`, `Word`: words with their expansions.
* `Redirection`: where the streams of a command go.
* `Tree`: commands.
-/

namespace BenchSweep.Host.Shell

/-- What is done with the value of a parameter. -/
inductive ParamAction where
  | plain
  | length
  | default
  | assign
  | require
  | alternative
  | trimEnd (longest : Bool)
  | trimStart (longest : Bool)
  deriving DecidableEq, Repr

/-- A part of a word. Quoted parts are neither split nor matched against file names. -/
inductive Part where
  | text (r : Raw) (quoted : Bool)
  /-- A parameter; `orEmpty` says that an empty value counts as none. -/
  | param (name : Raw) (action : ParamAction) (orEmpty : Bool) (arg : List Part) (quoted : Bool)
  | command (source : Raw) (quoted : Bool)
  | arithmetic (source : List Part) (quoted : Bool)
  deriving Repr

/-- A word before it is expanded. -/
abbrev Word := List Part

/-- How a stream is redirected. -/
inductive RedirectionKind where
  | input
  | output
  | append
  | duplicate
  | inline
  deriving DecidableEq, Repr

/-- A redirection of a stream. -/
structure Redirection where
  stream : Nat
  kind : RedirectionKind
  target : Word
  deriving Repr

/-- A command. -/
inductive Tree where
  | nothing
  | simple (line : Nat) (assignments : List (Raw × Word)) (words : List Word)
      (redirections : List Redirection)
  | pipeline (negated : Bool) (commands : List Tree)
  | both (first second : Tree)
  | either (first second : Tree)
  | sequence (first second : Tree)
  | background (command : Tree)
  | grouped (body : Tree) (redirections : List Redirection)
  | subshell (body : Tree) (redirections : List Redirection)
  | choice (condition yes no : Tree) (redirections : List Redirection)
  | loop (untilHolds : Bool) (condition body : Tree) (redirections : List Redirection)
  | each (name : Raw) (words : Option (List Word)) (body : Tree) (redirections : List Redirection)
  | cases (subject : Word) (clauses : List (List Word × Tree)) (redirections : List Redirection)
  | define (name : Raw) (body : Tree)
  deriving Repr

end BenchSweep.Host.Shell
