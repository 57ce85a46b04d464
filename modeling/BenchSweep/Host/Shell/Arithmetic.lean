import BenchSweep.Host.Shell.Reader
import BenchSweep.Host.Tool.Print

/-!
# Arithmetic of the shell

Expressions over integers of sixty-four bits, with variables and assignments.

## Main definitions

* `evaluate`: the value of an expression, and the assignments that it makes.
-/

namespace BenchSweep.Host.Shell

/-- A token of an expression. -/
inductive ArithmeticToken where
  | number (n : Int)
  | name (r : Raw)
  | operator (s : String)
  deriving DecidableEq, Repr

/-- The operators, longer ones before those that they start with. -/
def arithmeticOperators : List String :=
  ["<<=", ">>=", "<<", ">>", "<=", ">=", "==", "!=", "&&", "||", "+=", "-=", "*=", "/=", "%=", "&=",
    "|=", "^=", "+", "-", "*", "/", "%", "<", ">", "=", "!", "&", "|", "^", "~", "?", ":", "(", ")"]

/-- The longest numeral in front of a word that starts with a digit, and its length. -/
def numeralPrefix (word : Raw) : Int × Nat :=
  let whole (length : Nat) : Option (Int × Nat) :=
    match Tool.integerArgument (word.take length) with
    | (n, .whole) => some (n, length)
    | _ => none
  (((List.range word.length).reverse.map (· + 1)).findSome? whole).getD (0, 1)

/-- The tokens of an expression. -/
def arithmeticTokens (fuel : Nat) (r : Raw) : Option (List ArithmeticToken) :=
  match fuel, r.dropWhile Raw.isBlank with
  | _, [] => some []
  | 0, _ => none
  | fuel + 1, c :: rest =>
    let r := c :: rest
    if c.isDigit then
      let (n, length) := numeralPrefix (r.takeWhile Char.isAlphanum)
      (arithmeticTokens fuel (r.drop length)).map (.number n :: ·)
    else if isNameChar c then
      let word := r.takeWhile isNameChar
      (arithmeticTokens fuel (r.drop word.length)).map (.name word :: ·)
    else
      match arithmeticOperators.find? fun s => s.toList.isPrefixOf r with
      | some s => (arithmeticTokens fuel (r.drop s.length)).map (.operator s :: ·)
      | none => none

/-- How tightly an operator with two operands binds. -/
def binding? : String → Option Nat
  | "||" => some 1
  | "&&" => some 2
  | "|" => some 3
  | "^" => some 4
  | "&" => some 5
  | "==" | "!=" => some 6
  | "<" | "<=" | ">" | ">=" => some 7
  | "<<" | ">>" => some 8
  | "+" | "-" => some 9
  | "*" | "/" | "%" => some 10
  | _ => none

/-- An integer of sixty-four bits with a sign. -/
def wrap (n : Int) : Int :=
  Int.bmod n (Number.twoTo 64)

/-- The truth of a condition as a number. -/
def truth (b : Bool) : Int :=
  if b then 1 else 0

/-- An operation on the bits of two integers. -/
def bitwise (f : Nat → Nat → Nat) (a b : Int) : Int :=
  let bound := Int.ofNat (Number.twoTo 64)
  wrap (Int.ofNat (f (a % bound).toNat (b % bound).toNat))

/-- The value of an operator; none for a division by zero. -/
def operate (operator : String) (a b : Int) : Option Int :=
  match operator with
  | "||" => some (truth (a ≠ 0 || b ≠ 0))
  | "&&" => some (truth (a ≠ 0 && b ≠ 0))
  | "|" => some (bitwise (· ||| ·) a b)
  | "^" => some (bitwise (· ^^^ ·) a b)
  | "&" => some (bitwise (· &&& ·) a b)
  | "==" => some (truth (a = b))
  | "!=" => some (truth (a ≠ b))
  | "<" => some (truth (a < b))
  | "<=" => some (truth (a ≤ b))
  | ">" => some (truth (a > b))
  | ">=" => some (truth (a ≥ b))
  | "<<" => some (wrap (a * Int.ofNat (Number.twoTo (b % 64).toNat)))
  | ">>" => some (a / Int.ofNat (Number.twoTo (b % 64).toNat))
  | "+" => some (wrap (a + b))
  | "-" => some (wrap (a - b))
  | "*" => some (wrap (a * b))
  | "/" => if b = 0 then none else some (wrap (Int.tdiv a b))
  | "%" => if b = 0 then none else some (Int.tmod a b)
  | _ => none

/-- The state of an evaluation: the tokens that are left, and the variables. -/
structure ArithmeticState where
  tokens : List ArithmeticToken
  lookup : Raw → Raw
  assigned : List (Raw × Raw) := []

/-- The steps of an evaluation; a failure is its message. -/
abbrev Evaluating (α : Type) := StateT ArithmeticState (Except Raw) α

/-- The value of a variable; one that is not set is zero. -/
def variableValue (name : Raw) : Evaluating Int := do
  let s ← get
  let r := (s.assigned.lookup name).getD (s.lookup name)
  match Tool.integerArgument r with
  | (n, .whole) => return wrap n
  | _ => throw (Raw.ofString "Illegal number: " ++ r)

/-- Sets a variable. -/
def assignVariable (name : Raw) (n : Int) : Evaluating Int := do
  modify fun s => { s with assigned := (name, Raw.ofInt n) :: s.assigned }
  return n

/-- Takes a token. -/
def dropToken : Evaluating Unit :=
  modify fun s => { s with tokens := s.tokens.drop 1 }

/-- What is evaluated: an operand, or operators from a given binding on. -/
inductive ArithmeticGoal where
  | operand
  | operators (least : Nat)
  | whole

/-- Evaluates the front of an expression. Parts that do not count, because a condition rules them
out, are read without effect. -/
def evaluateGoal (fuel : Nat) (live : Bool) (goal : ArithmeticGoal) : Evaluating Int := do
  match fuel with
  | 0 => throw (Raw.ofString "expression too deep")
  | fuel + 1 =>
    match goal with
    | .operand =>
      match (← get).tokens with
      | .number n :: _ =>
        dropToken
        return wrap n
      | .name name :: _ =>
        dropToken
        if live then variableValue name else return 0
      | .operator "(" :: _ =>
        dropToken
        let n ← evaluateGoal fuel live .whole
        match (← get).tokens with
        | .operator ")" :: _ =>
          dropToken
          return n
        | _ => throw (Raw.ofString "expecting ')'")
      | .operator "-" :: _ =>
        dropToken
        return wrap (-(← evaluateGoal fuel live .operand))
      | .operator "+" :: _ =>
        dropToken
        evaluateGoal fuel live .operand
      | .operator "!" :: _ =>
        dropToken
        return truth ((← evaluateGoal fuel live .operand) = 0)
      | .operator "~" :: _ =>
        dropToken
        return -(← evaluateGoal fuel live .operand) - 1
      | _ => throw (Raw.ofString "expecting primary")
    | .operators least =>
      let first ← evaluateGoal fuel live .operand
      climb fuel live least first
    | .whole =>
      match (← get).tokens with
      | .name name :: .operator "=" :: _ =>
        dropToken
        dropToken
        let n ← evaluateGoal fuel live .whole
        if live then assignVariable name n else return n
      | .name name :: .operator s :: _ =>
        let simple := (s.dropEnd 1).toString
        if s.length ≥ 2 && s.endsWith "=" && (binding? simple).isSome && (binding? s).isNone then
          dropToken
          dropToken
          let n ← evaluateGoal fuel live .whole
          if live then
            match operate simple (← variableValue name) n with
            | some n => assignVariable name n
            | none => throw (Raw.ofString "division by zero")
          else return n
        else choose fuel live (← evaluateGoal fuel live (.operators 1))
      | _ => choose fuel live (← evaluateGoal fuel live (.operators 1))
where
  /-- Goes on with the operators after an operand. -/
  climb (fuel : Nat) (live : Bool) (least : Nat) (first : Int) : Evaluating Int := do
    match fuel with
    | 0 => throw (Raw.ofString "expression too deep")
    | fuel + 1 =>
      match (← get).tokens with
      | .operator s :: _ =>
        match binding? s with
        | some b =>
          if b < least then return first
          else
            dropToken
            let counts := live && !(s = "&&" && first = 0) && !(s = "||" && first ≠ 0)
            let second ← evaluateGoal fuel counts (.operators (b + 1))
            match operate s first (if counts then second else 0) with
            | some n => climb fuel live least n
            | none =>
              if live then throw (Raw.ofString "division by zero") else climb fuel live least 0
        | none => return first
      | _ => return first
  /-- Goes on with the choice after a condition. -/
  choose (fuel : Nat) (live : Bool) (condition : Int) : Evaluating Int := do
    match fuel with
    | 0 => throw (Raw.ofString "expression too deep")
    | fuel + 1 =>
      match (← get).tokens with
      | .operator "?" :: _ =>
        dropToken
        let yes ← evaluateGoal fuel (live && condition ≠ 0) .whole
        match (← get).tokens with
        | .operator ":" :: _ =>
          dropToken
          let no ← evaluateGoal fuel (live && condition = 0) .whole
          return if condition ≠ 0 then yes else no
        | _ => throw (Raw.ofString "expecting ':'")
      | _ => return condition

/-- The value of an expression and the assignments that it makes, the latest first. -/
def evaluate (lookup : Raw → Raw) (r : Raw) : Except Raw (Int × List (Raw × Raw)) :=
  match arithmeticTokens r.length r with
  | none => .error (Raw.ofString "expecting primary")
  | some [] => .ok (0, [])
  | some tokens =>
    match (evaluateGoal (4 * r.length + 4) true .whole).run { tokens, lookup } with
    | .error e => .error e
    | .ok (n, s) =>
      match s.tokens with
      | [] => .ok (n, s.assigned)
      | _ :: _ => .error (Raw.ofString "expecting EOF")

end BenchSweep.Host.Shell
