import BenchSweep.Host.Tool.Print

/-!
# Conditions

The tool `test`: conditions on texts, numbers and files, with negation, `-a`, `-o` and parentheses.

## Main definitions

* `condition`: the value of a condition.
* `test`: the tool.
-/

namespace BenchSweep.Host.Tool

/-- What is wrong with a condition. -/
inductive ConditionError where
  | illegalNumber (word : Raw)
  | argumentExpected (operator : Raw)
  | unexpected (word : Raw)
  | noParenthesis
  | noBracket
  deriving DecidableEq, Repr

/-- A number in a condition. -/
def conditionNumber (r : Raw) : Except ConditionError Int :=
  let r' := (r.dropWhile Raw.isBlank).reverse.dropWhile Raw.isBlank |>.reverse
  match Raw.toInt? r' with
  | some n => .ok n
  | none => .error (.illegalNumber r)

/-- The operators with one operand. -/
def isUnary (r : Raw) : Bool :=
  match r with
  | ['-', c] => "efdrwxsnzLhpbcgkuSOGt".toList.contains c
  | _ => false

/-- The operators with two operands. -/
def isBinary (r : Raw) : Bool :=
  let operators :=
    ["=", "==", "!=", "<", ">", "-eq", "-ne", "-gt", "-ge", "-lt", "-le", "-nt", "-ot", "-ef"]
  operators.contains (String.ofList r)

/-- The value of an operator with one operand. -/
def unary (disk : Disk) (here : Location) (operator : Char) (r : Raw) : Bool :=
  let node := (disk.find here (Raw.toText r)).toOption.map Prod.snd
  match operator with
  | 'n' => r ≠ []
  | 'z' => r = []
  | 'd' => node = some .directory
  | 'f' => match node with | some (.file _) | some .program => true | _ => false
  | 's' =>
    match node with
    | some (.file content) => content ≠ []
    | some .directory | some .program => true
    | _ => false
  | 'x' => node = some .directory || node = some .program
  | 'c' => node = some .sink || node = some .zeros
  | 'e' | 'r' | 'w' | 'O' | 'G' => node.isSome
  | _ => false

/-- The order of texts by their bytes. -/
def precedes : Raw → Raw → Bool
  | _, [] => false
  | [], _ :: _ => true
  | a :: r, b :: s => a < b || (a = b && precedes r s)

/-- The value of an operator with two operands. -/
def binary (disk : Disk) (here : Location) (operator : String) (a b : Raw) :
    Except ConditionError Bool :=
  let numbers (f : Int → Int → Bool) : Except ConditionError Bool := do
    return f (← conditionNumber a) (← conditionNumber b)
  let place (r : Raw) := ((disk.find here (Raw.toText r)).toOption.map Prod.fst)
  match operator with
  | "=" | "==" => .ok (a = b)
  | "!=" => .ok (a ≠ b)
  | "<" => .ok (precedes a b)
  | ">" => .ok (precedes b a)
  | "-eq" => numbers (· = ·)
  | "-ne" => numbers (· ≠ ·)
  | "-gt" => numbers (· > ·)
  | "-ge" => numbers (· ≥ ·)
  | "-lt" => numbers (· < ·)
  | "-le" => numbers (· ≤ ·)
  | "-ef" => .ok ((place a).isSome && place a = place b)
  | "-nt" => .ok ((place a).isSome && (place b).isNone)
  | "-ot" => .ok ((place a).isNone && (place b).isSome)
  | _ => .ok false

/-- How tightly a part of a condition binds: alternatives, conjunctions, or a single one. -/
inductive Binding where
  | either
  | both
  | one

/-- The value of a part of a condition, the last word of it, and the words after it. -/
structure ReadCondition where
  value : Bool
  last : Raw := []
  rest : List Raw

/-- Whether a word is an operand although it is spelled as an operator: nothing follows it, or an
operator with two operands that another word follows. -/
def isOperand : List Raw → Bool
  | [] => true
  | [_] => false
  | next :: _ => isBinary next

/-- The value of the condition in front of some words. -/
def readCondition (disk : Disk) (here : Location) (fuel : Nat) (binding : Binding)
    (words : List Raw) : Except ConditionError ReadCondition :=
  match fuel with
  | 0 => .error .noParenthesis
  | fuel + 1 =>
    match binding with
    | .either => do
      let a ← readCondition disk here fuel .both words
      match a.rest with
      | ['-', 'o'] :: rest =>
        let b ← readCondition disk here fuel .either rest
        return { b with value := a.value || b.value }
      | _ => return a
    | .both => do
      let a ← readCondition disk here fuel .one words
      match a.rest with
      | ['-', 'a'] :: rest =>
        let b ← readCondition disk here fuel .both rest
        return { b with value := a.value && b.value }
      | _ => return a
    | .one =>
      match words with
      | [] => .ok { value := false, rest := [] }
      | a :: rest =>
        if a = ['!'] then do
          let c ← readCondition disk here fuel .one rest
          return { c with value := !c.value }
        else if a = ['('] ∧ rest ≠ [] then do
          let c ← readCondition disk here fuel .either rest
          match c.rest with
          | [')'] :: rest => return { c with rest, last := [')'] }
          | _ => throw .noParenthesis
        else if isUnary a && !isOperand rest then
          match rest with
          | b :: rest => .ok ⟨unary disk here (a.getD 1 ' ') b, b, rest⟩
          | [] => .error (.argumentExpected a)
        else
          match rest with
          | op :: rest' =>
            if isBinary op then
              match rest' with
              | b :: rest => do return ⟨← binary disk here (String.ofList op) a b, b, rest⟩
              | [] => .error (.argumentExpected op)
            else .ok ⟨a ≠ [], a, rest⟩
          | [] => .ok ⟨a ≠ [], a, rest⟩

/-- The value of a condition as a whole. -/
def wholeCondition (disk : Disk) (here : Location) (words : List Raw) :
    Except ConditionError Bool := do
  let c ← readCondition disk here (4 * words.length + 4) .either words
  if c.rest = [] then return c.value else throw (.unexpected c.last)

/-- The value of a condition. Three words with an operator in the middle are never read in another
way, and four words after a negation are read as three. -/
def condition (disk : Disk) (here : Location) (words : List Raw) : Except ConditionError Bool :=
  match words with
  | [] => .ok false
  | [a, op, b] =>
    if isBinary op then binary disk here (String.ofList op) a b
    else wholeCondition disk here words
  | [['!'], a, op, b] =>
    if isBinary op then (binary disk here (String.ofList op) a b).map (!·)
    else wholeCondition disk here words
  | _ => wholeCondition disk here words

/-- The wording of an error of a shell. -/
def ConditionError.shellMessage : ConditionError → Raw
  | .illegalNumber word => Raw.ofString "Illegal number: " ++ word
  | .argumentExpected operator => operator ++ Raw.ofString ": argument expected"
  | .unexpected word => word ++ Raw.ofString ": unexpected operator"
  | .noParenthesis => Raw.ofString "closing paren expected"
  | .noBracket => Raw.ofString "missing ]"

/-- The wording of an error of the program. -/
def ConditionError.programMessage (words : List Raw) : ConditionError → Raw
  | .illegalNumber word => Raw.ofString "invalid integer " ++ quoteRaw word
  | .noBracket => Raw.ofString "missing " ++ quoteRaw [']']
  | e =>
    match words, e with
    | [_, op, _], .unexpected _ => quoteRaw op ++ Raw.ofString ": binary operator expected"
    | [_, b], _ => Raw.ofString "missing argument after " ++ quoteRaw b
    | words, .unexpected _ => Raw.ofString "extra argument " ++ quoteRaw (words.getLastD [])
    | words, _ => Raw.ofString "missing argument after " ++ quoteRaw (words.getLastD [])

/-- The value of a condition as a status; `bracket` asks for a closing bracket at the end. -/
def test (d : Dialect) (bracket : Bool) (c : Call) : Proc Nat := do
  let words? : Except ConditionError (List Raw) :=
    if bracket then
      if c.args.getLast? = some [']'] then .ok c.args.dropLast else .error .noBracket
    else .ok c.args
  let disk ← Proc.disk
  match words? >>= condition disk c.here with
  | .ok v => return if v then 0 else 1
  | .error e =>
    c.complain
      (match d with
      | .shell => e.shellMessage
      | .program => e.programMessage (words?.toOption.getD []))
    return 2

end BenchSweep.Host.Tool
