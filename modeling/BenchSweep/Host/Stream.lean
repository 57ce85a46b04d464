import BenchSweep.Host.Activity
import BenchSweep.Host.Raw

/-!
# Streams of processes

A process reads from and writes to streams, which it shares with the processes that it starts. All
streams of a process tree are kept in one table.

## Main definitions

* `Stream`: where bytes come from or go to.
* `Proc`: the steps of a process over a table of streams.
* `Call`: what a program is given when it starts.
* `Call.readAll`, `Call.say`, `Call.complain`: reading and writing.
-/

namespace BenchSweep.Host

/-- Where bytes come from or go to. -/
inductive Stream where
  /-- Bytes that were written, in pieces, the last one first. -/
  | collected (pieces : List Raw)
  /-- Bytes that can still be read. -/
  | supply (rest : Raw)
  /-- A file that is read, and how much of it has been read. -/
  | reading (at_ : Location) (offset : Nat)
  /-- A file that is written at its end. -/
  | writing (at_ : Location)
  | null
  | zeros
  deriving Repr

/-- The steps of a process over a table of streams. -/
abbrev Proc (α : Type) := StateT (Array Stream) Activity α

namespace Proc

/-- The tree of files. -/
def disk : Proc Disk :=
  StateT.lift (.look .done)

/-- Changes the tree of files. -/
def setDisk (d : Disk) : Proc Unit :=
  StateT.lift (.change d (.done ()))

/-- Lets time pass. -/
def pause (nanos : Nat) : Proc Unit :=
  StateT.lift (.pause nanos (.done ()))

/-- Does not end. -/
def stuck {α : Type} : Proc α :=
  StateT.lift .stuck

/-- Adds a stream to the table. -/
def open_ (s : Stream) : Proc Nat := do
  let streams ← get
  set (streams.push s)
  return streams.size

/-- A stream of the table; a stream that is not there is empty. -/
def stream (i : Nat) : Proc Stream := do
  return (← get).getD i .null

/-- Puts a stream in place of another one. -/
def setStream (i : Nat) (s : Stream) : Proc Unit :=
  modify fun streams => streams.setIfInBounds i s

/-- Writes to a stream. -/
def write (i : Nat) (r : Raw) : Proc Unit := do
  match ← stream i with
  | .collected pieces => setStream i (.collected (r :: pieces))
  | .writing l => setDisk ((← disk).append l (Raw.toBytes r))
  | _ => pure ()

/-- What can still be read from a stream. -/
def unread (i : Nat) : Proc Raw := do
  match ← stream i with
  | .supply rest => return rest
  | .reading l offset =>
    match (← disk).get? l with
    | some (.file content) => return Raw.ofBytes (content.drop offset)
    | _ => return []
  | .zeros => stuck
  | _ => return []

/-- Marks bytes of a stream as read. -/
def skip (i n : Nat) : Proc Unit := do
  match ← stream i with
  | .supply rest => setStream i (.supply (rest.drop n))
  | .reading l offset => setStream i (.reading l (offset + n))
  | _ => pure ()

/-- Reads a stream to its end. -/
def readAll (i : Nat) : Proc Raw := do
  let r ← unread i
  skip i r.length
  return r

/-- The bytes that were written to a stream. -/
def collected (i : Nat) : Proc Raw := do
  match ← stream i with
  | .collected pieces => return pieces.reverse.flatten
  | _ => return []

end Proc

/-- What a program is given when it starts. -/
structure Call where
  /-- How the program calls itself in messages. -/
  label : Raw
  args : List Raw
  here : Location
  input : Nat
  output : Nat
  errors : Nat

namespace Call

/-- Writes to standard output. -/
def say (c : Call) (r : Raw) : Proc Unit :=
  Proc.write c.output r

/-- Writes a message to standard error. -/
def complain (c : Call) (message : Raw) : Proc Unit :=
  Proc.write c.errors (c.label ++ [':', ' '] ++ message ++ ['\n'])

/-- Writes a message with a path and a reason to standard error. -/
def complainOf (c : Call) (about : Raw) (e : SystemError) : Proc Unit :=
  c.complain (about ++ Raw.ofString ": " ++ reason e)
where
  /-- The wording of an error without its number. -/
  reason (e : SystemError) : Raw :=
    let m := Raw.ofString e.message
    match (m.reverse.dropWhile (· ≠ '(')).reverse with
    | [] => m
    | m => m.take (m.length - 2)

/-- The bytes of a file; endless ones keep the process from ending. -/
def readFile (c : Call) (path : Raw) : Proc (Except SystemError Raw) := do
  match (← Proc.disk).find c.here (Raw.toText path) with
  | .error e => return .error e
  | .ok (_, .directory) => return .error .isDirectory
  | .ok (_, .file content) => return .ok (Raw.ofBytes content)
  | .ok (_, .zeros) => Proc.stuck
  | .ok _ => return .ok []

/-- The bytes of a file, or of standard input if the path is a dash. -/
def readSource (c : Call) (path : Raw) : Proc (Except SystemError Raw) := do
  if path = ['-'] then return .ok (← Proc.readAll c.input) else c.readFile path

end Call

/-- A text in quotation marks. -/
def quoteRaw (r : Raw) : Raw :=
  Raw.ofString "‘" ++ r ++ Raw.ofString "’"

/-- A text between apostrophes. -/
def apostrophes (r : Raw) : Raw :=
  '\'' :: (r ++ ['\''])

/-- A path in messages: between apostrophes if a shell would need them. -/
def pathText (r : Raw) : Raw :=
  let isPlain (c : Char) := c.isAlphanum || "_@%+=:,./-".toList.contains c || c.toNat ≥ 128
  if r ≠ [] ∧ r.all isPlain then r else apostrophes r

end BenchSweep.Host
