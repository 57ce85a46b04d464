import BenchSweep.Host.Shell.Tree

/-!
# Reading shell programs

A program is read one complete command at a time, so that what comes before a mistake is run.

## Main definitions

* `readParts`: the parts of a word.
* `readCommand`: the next complete command of a program.
-/

namespace BenchSweep.Host.Shell

/-- The text that is still to be read, and its line. -/
structure Source where
  rest : Raw
  line : Nat := 1
  deriving Repr

/-- A mistake in a program: its line, and what is wrong. -/
structure SyntaxFault where
  line : Nat
  message : Raw
  deriving Repr

/-- A reader of a program. -/
abbrev Reading (α : Type) := StateT Source (Except SyntaxFault) α

/-- A character that ends a word. -/
def endsWord (c : Char) : Bool :=
  c = ' ' || c = '\t' || c = '\n' || c = ';' || c = '&' || c = '|' || c = '<' || c = '>' || c = '('
    || c = ')'

/-- A character of a name. -/
def isNameChar (c : Char) : Bool :=
  c.isAlphanum || c = '_'

/-- Whether a text is a name. -/
def isName (r : Raw) : Bool :=
  match r with
  | [] => false
  | c :: _ => !c.isDigit && r.all isNameChar

/-! ### Words -/

/-- A nested text up to its closing parenthesis, and the text after it. Quotes and inner parentheses
are passed over; `quote` is the open quote. -/
def untilParen (fuel : Nat) (depth : Nat) (quote : Option Char) (r : Raw) : Option (Raw × Raw) :=
  match fuel, r with
  | 0, _ | _, [] => none
  | fuel + 1, '\\' :: c :: rest =>
    if quote = some '\'' then
      (untilParen fuel depth quote (c :: rest)).map fun (t, r) => ('\\' :: t, r)
    else (untilParen fuel depth quote rest).map fun (t, r) => ('\\' :: c :: t, r)
  | fuel + 1, c :: rest =>
    match quote with
    | some q =>
      (untilParen fuel depth (if c = q then none else quote) rest).map fun (t, r) => (c :: t, r)
    | none =>
      if c = ')' then
        if depth = 0 then some ([], rest)
        else (untilParen fuel (depth - 1) none rest).map fun (t, r) => (c :: t, r)
      else
        let depth := if c = '(' then depth + 1 else depth
        let quote := if c = '\'' ∨ c = '"' then some c else none
        (untilParen fuel depth quote rest).map fun (t, r) => (c :: t, r)

/-- A text up to a backquote, with the backslashes before backquotes, dollars and backslashes
removed. -/
def untilBackquote (fuel : Nat) (r : Raw) : Option (Raw × Raw) :=
  match fuel, r with
  | 0, _ | _, [] => none
  | _, '`' :: rest => some ([], rest)
  | fuel + 1, '\\' :: c :: rest =>
    let kept := if c = '`' ∨ c = '$' ∨ c = '\\' then [c] else ['\\', c]
    (untilBackquote fuel rest).map fun (t, r) => (kept ++ t, r)
  | fuel + 1, c :: rest => (untilBackquote fuel rest).map fun (t, r) => (c :: t, r)

/-- Where a run of parts ends. -/
inductive PartsEnd where
  /-- At a character that ends a word. -/
  | word
  /-- At a double quote. -/
  | quote
  /-- At a closing brace. -/
  | brace
  /-- At the end of the text. -/
  | all
  deriving DecidableEq, Repr

/-- A parameter that is named by one character. -/
def isSpecial (c : Char) : Bool :=
  "@*#?$!-".toList.contains c || c.isDigit

/-- The name of a parameter in front of a text. -/
def paramName (r : Raw) : Option (Raw × Raw) :=
  match r with
  | [] => none
  | c :: rest =>
    if c.isDigit then
      some (r.takeWhile Char.isDigit, r.dropWhile Char.isDigit)
    else if isSpecial c then some ([c], rest)
    else if isNameChar c then some (r.takeWhile isNameChar, r.dropWhile isNameChar)
    else none

/-- What is done with a parameter: the action, whether an empty value counts as none, and the text
after it, from behind the name. -/
def paramAction (r : Raw) : Option (ParamAction × Bool × Raw) :=
  let plain (orEmpty : Bool) (r : Raw) : Option (ParamAction × Bool × Raw) :=
    match r with
    | '-' :: rest => some (.default, orEmpty, rest)
    | '=' :: rest => some (.assign, orEmpty, rest)
    | '?' :: rest => some (.require, orEmpty, rest)
    | '+' :: rest => some (.alternative, orEmpty, rest)
    | _ => none
  match r with
  | ':' :: rest => plain true rest
  | '%' :: '%' :: rest => some (.trimEnd true, false, rest)
  | '%' :: rest => some (.trimEnd false, false, rest)
  | '#' :: '#' :: rest => some (.trimStart true, false, rest)
  | '#' :: rest => some (.trimStart false, false, rest)
  | rest => plain false rest

/-- The message for a quote that is not closed. -/
def unterminated : Raw :=
  Raw.ofString "Unterminated quoted string"

/-- Reads parts up to an end, which is left in the text unless it is a quote or a brace. Every call
takes a character or is the last, and `fuel` is at least the length of the text. -/
def readParts (fuel : Nat) (stop : PartsEnd) (quoted : Bool) (r : Raw) :
    Except Raw (List Part × Raw) :=
  match fuel with
  | 0 => .error unterminated
  | fuel + 1 =>
    let go (part : Part) (rest : Raw) : Except Raw (List Part × Raw) :=
      (readParts fuel stop quoted rest).map fun (parts, rest) => (part :: parts, rest)
    match r with
    | [] =>
      if stop = .quote then .error unterminated
      else if stop = .brace then .error (Raw.ofString "Missing '\x7d'")
      else .ok ([], [])
    | '\'' :: rest =>
      if quoted || stop = .quote || stop = .all then go (.text ['\''] true) rest
      else
        match rest.dropWhile (· ≠ '\'') with
        | _ :: after => go (.text (rest.takeWhile (· ≠ '\'')) true) after
        | [] => .error unterminated
    | '"' :: rest =>
      if stop = .quote then .ok ([], rest)
      else if stop = .all then go (.text ['"'] true) rest
      else
        match readParts fuel .quote true rest with
        | .error e => .error e
        | .ok (inner, rest) =>
          let quotes := match inner with | [.param ['@'] _ _ _ _] => [] | _ => [Part.text [] true]
          (readParts fuel stop quoted rest).map fun (parts, rest) =>
            (quotes ++ inner ++ parts, rest)
    | '\\' :: '\n' :: rest => readParts fuel stop quoted rest
    | '\\' :: c :: rest =>
      if quoted || stop = .quote || stop = .all then
        let isEscaped := c = '$' || c = '`' || c = '\\' || (c = '"' && stop ≠ .all)
          || (c = '\x7d' && stop = .brace)
        if isEscaped then go (.text [c] true) rest
        else go (.text ['\\', c] true) rest
      else go (.text [c] true) rest
    | '`' :: rest =>
      match untilBackquote (rest.length + 1) rest with
      | some (source, rest) => go (.command source (quoted || stop = .quote || stop = .all)) rest
      | none => .error (Raw.ofString "EOF in backquote substitution")
    | '$' :: '(' :: '(' :: rest =>
      match untilParen (rest.length + 1) 1 none rest with
      | some (body, after) =>
        if body.getLast? = some ')' then
          match readParts fuel .all true body.dropLast with
          | .error e => .error e
          | .ok (inner, _) => go (.arithmetic inner (quoted || stop = .quote || stop = .all)) after
        else go (.command ('(' :: body) (quoted || stop = .quote || stop = .all)) after
      | none => .error (Raw.ofString "Missing '))'")
    | '$' :: '(' :: rest =>
      match untilParen (rest.length + 1) 0 none rest with
      | some (source, rest) => go (.command source (quoted || stop = .quote || stop = .all)) rest
      | none => .error (Raw.ofString "end of file unexpected (expecting \")\")")
    | '$' :: '\x7b' :: rest =>
      let quotedHere := quoted || stop = .quote || stop = .all
      let measured :=
        match rest with
        | '#' :: after =>
          match paramName after with
          | some (name, '\x7d' :: after) => some (name, after)
          | _ => none
        | _ => none
      match measured with
      | some (name, rest) => go (.param name .length false [] quotedHere) rest
      | none =>
        match paramName rest with
        | none => .error (Raw.ofString "Bad substitution")
        | some (_, []) =>
          .error (if stop = .quote then unterminated else Raw.ofString "Missing '\x7d'")
        | some (name, '\x7d' :: rest) => go (.param name .plain false [] quotedHere) rest
        | some (name, rest) =>
          match paramAction rest with
          | none => .error (Raw.ofString "Bad substitution")
          | some (action, orEmpty, rest) =>
            let isTrim := match action with | .trimEnd _ | .trimStart _ => true | _ => false
            match readParts fuel .brace (quotedHere && !isTrim) rest with
            | .error e => .error e
            | .ok (arg, rest) => go (.param name action orEmpty arg quotedHere) rest
    | '$' :: rest =>
      match paramName rest with
      | none => go (.text ['$'] (quoted || stop = .quote || stop = .all)) rest
      | some (name, after) =>
        let (name, after) :=
          match name with
          | d :: more => if d.isDigit then ([d], more ++ after) else (name, after)
          | [] => (name, after)
        go (.param name .plain false [] (quoted || stop = .quote || stop = .all)) after
    | c :: rest =>
      if stop = .word && endsWord c then .ok ([], r)
      else if stop = .brace && c = '\x7d' then .ok ([], rest)
      else go (.text [c] (quoted || stop = .quote || stop = .all)) rest

/-! ### Tokens -/

/-- The text after blanks, joined lines and a comment. -/
def skipGaps (fuel : Nat) (r : Raw) : Raw :=
  match fuel, r with
  | 0, _ => r
  | fuel + 1, ' ' :: rest | fuel + 1, '\t' :: rest | fuel + 1, '\\' :: '\n' :: rest =>
    skipGaps fuel rest
  | _, '#' :: rest => rest.dropWhile (· ≠ '\n')
  | _, _ => r

/-- Skips blanks and comments. -/
def gaps : Reading Unit :=
  modify fun s => { s with rest := skipGaps s.rest.length s.rest }

/-- The text that is still to be read. -/
def ahead : Reading Raw := do
  return (← get).rest

/-- Takes characters from the text. -/
def advance (n : Nat) : Reading Unit :=
  modify fun s =>
    ⟨s.rest.drop n, s.line + (s.rest.take n).count '\n'⟩

/-- Ends the reading in a fault. -/
def fail {α : Type} (message : Raw) : Reading α := do
  throw ⟨(← get).line, message⟩

/-- The token in front of a text, as it is named in messages. -/
def tokenText (r : Raw) : Raw :=
  let inQuotes (s : Raw) : Raw := '"' :: (s ++ ['"'])
  match r with
  | [] => Raw.ofString "end of file"
  | '\n' :: _ => Raw.ofString "newline"
  | ';' :: ';' :: _ => inQuotes [';', ';']
  | '&' :: '&' :: _ => inQuotes ['&', '&']
  | '|' :: '|' :: _ => inQuotes ['|', '|']
  | c :: _ =>
    if endsWord c then inQuotes [c]
    else
      let word := r.takeWhile (!endsWord ·)
      if ["if", "then", "else", "elif", "fi", "do", "done", "case", "esac", "while", "until", "for",
        "\x7b", "\x7d", "!", "in"].contains (String.ofList word) then inQuotes word
      else Raw.ofString "word"

/-- Ends the reading at a token that may not stand there. -/
def unexpected {α : Type} (expected : Option String) : Reading α := do
  let suffix := match expected with
    | some e => Raw.ofString (" (expecting \"" ++ e ++ "\")")
    | none => []
  fail (tokenText (← ahead) ++ Raw.ofString " unexpected" ++ suffix)

/-- The plain word in front of the text. -/
def plainWord (r : Raw) : String :=
  String.ofList (r.takeWhile (!endsWord ·))

/-- The words that end a list of commands. -/
def isListEnd (word : String) : Bool :=
  ["then", "else", "elif", "fi", "do", "done", "esac", "\x7d"].contains word

/-- Takes a reserved word. -/
def expectWord (word : String) : Reading Unit := do
  gaps
  if plainWord (← ahead) = word then advance word.length else unexpected (some word)

/-- Skips blanks, comments and line feeds. -/
def skipLines : Nat → Reading Unit
  | 0 => pure ()
  | fuel + 1 => do
    gaps
    match ← ahead with
    | '\n' :: _ =>
      advance 1
      skipLines fuel
    | _ => pure ()

/-- Skips blanks, comments and line feeds. -/
def lines : Reading Unit := do
  skipLines ((← ahead).length + 1)

/-- Reads a word. -/
def readWord : Reading Word := do
  let r ← ahead
  match readParts (r.length + 1) .word false r with
  | .error message => fail message
  | .ok (parts, rest) =>
    advance (r.length - rest.length)
    return parts

/-! ### Redirections -/

/-- The literal text of a word, and whether a part of it is quoted. -/
def literal (w : Word) : Raw × Bool :=
  (w.flatMap fun | .text r _ => r | _ => [], w.any fun | .text _ q => q | _ => false)

/-- The lines of an inline text up to its delimiter, and the lines after it. -/
def untilLine (delimiter : Raw) (tabs : Bool) : Nat → Raw → Raw × Raw
  | 0, r => ([], r)
  | fuel + 1, r =>
    if r = [] then ([], [])
    else
      let line := r.takeWhile (· ≠ '\n')
      let rest := (r.drop line.length).drop 1
      let line := if tabs then line.dropWhile (· = '\t') else line
      if line = delimiter then ([], rest)
      else
        let (body, rest) := untilLine delimiter tabs fuel rest
        (line ++ '\n' :: body, rest)

/-- Reads the body of an inline text. It starts after the present line, and is taken out of the
text. -/
def readInline (tabs : Bool) : Reading Word := do
  gaps
  let (delimiter, quoted) := literal (← readWord)
  let r ← ahead
  let before := r.takeWhile (· ≠ '\n')
  let (body, after) := untilLine delimiter tabs r.length ((r.drop before.length).drop 1)
  modify fun s => { s with rest := before ++ '\n' :: after }
  if quoted then return [.text body true]
  else
    match readParts (body.length + 1) .all true body with
    | .error message => fail message
    | .ok (parts, _) => return parts

/-- Reads the word that a redirection needs. -/
def readTarget : Reading Word := do
  gaps
  match ← ahead with
  | [] => unexpected none
  | c :: _ => if endsWord c then unexpected none else readWord

/-- Reads a redirection, if one is in front of the text. -/
def readRedirection : Reading (Option Redirection) := do
  gaps
  let r ← ahead
  let digits := r.takeWhile Char.isDigit
  let stream? := (Raw.toInt? digits).map Int.toNat
  match r.drop digits.length with
  | '<' :: '<' :: rest =>
    let tabs := rest.head? = some '-'
    advance (digits.length + if tabs then 3 else 2)
    return some ⟨stream?.getD 0, .inline, ← readInline tabs⟩
  | '<' :: '&' :: _ =>
    advance (digits.length + 2)
    return some ⟨stream?.getD 0, .duplicate, ← readTarget⟩
  | '<' :: _ =>
    advance (digits.length + 1)
    return some ⟨stream?.getD 0, .input, ← readTarget⟩
  | '>' :: '>' :: _ =>
    advance (digits.length + 2)
    return some ⟨stream?.getD 1, .append, ← readTarget⟩
  | '>' :: '&' :: _ =>
    advance (digits.length + 2)
    return some ⟨stream?.getD 1, .duplicate, ← readTarget⟩
  | '>' :: '|' :: _ =>
    advance (digits.length + 2)
    return some ⟨stream?.getD 1, .output, ← readTarget⟩
  | '>' :: _ =>
    advance (digits.length + 1)
    return some ⟨stream?.getD 1, .output, ← readTarget⟩
  | _ => return none

/-- Reads redirections. -/
def readRedirections : Nat → Reading (List Redirection)
  | 0 => return []
  | fuel + 1 => do
    match ← readRedirection with
    | none => return []
    | some r => return r :: (← readRedirections fuel)

/-- The redirections after a compound command. -/
def redirectionsAfter : Reading (List Redirection) := do
  readRedirections ((← ahead).length + 1)

/-! ### Commands -/

/-- The name and the value of an assignment in front of a text. -/
def assignmentName (r : Raw) : Option Raw :=
  let name := r.takeWhile isNameChar
  if isName name && (r.drop name.length).head? = some '=' then some name else none

/-- The words, assignments and redirections of a simple command. -/
structure SimpleParts where
  assignments : List (Raw × Word) := []
  words : List Word := []
  redirections : List Redirection := []

/-- Reads a simple command, behind what has been read of it. -/
def readSimple : Nat → SimpleParts → Reading SimpleParts
  | 0, parts => return parts
  | fuel + 1, parts => do
    match ← readRedirection with
    | some r => readSimple fuel { parts with redirections := parts.redirections ++ [r] }
    | none =>
      gaps
      match ← ahead with
      | [] => return parts
      | c :: _ =>
        if endsWord c then return parts
        else
          let r ← ahead
          match if parts.words.isEmpty then assignmentName r else none with
          | some name =>
            advance (name.length + 1)
            let value ← readWord
            readSimple fuel { parts with assignments := parts.assignments ++ [(name, value)] }
          | none =>
            let word ← readWord
            readSimple fuel { parts with words := parts.words ++ [word] }

/-- Reads words up to the end of a line or a semicolon. -/
def readWords : Nat → Reading (List Word)
  | 0 => return []
  | fuel + 1 => do
    gaps
    match ← ahead with
    | [] => return []
    | c :: _ =>
      if endsWord c then return []
      else
        let w ← readWord
        return w :: (← readWords fuel)

/-- Reads the patterns of a clause, up to the closing parenthesis. -/
def readPatterns : Nat → Reading (List Word)
  | 0 => return []
  | fuel + 1 => do
    gaps
    let w ← readWord
    gaps
    match ← ahead with
    | '|' :: _ =>
      advance 1
      return w :: (← readPatterns fuel)
    | ')' :: _ =>
      advance 1
      return [w]
    | _ => unexpected (some ")")

mutual

/-- Reads a list of commands, up to a word or character that ends it. With `single` a line feed ends
it too. -/
def readList (fuel : Nat) (single : Bool) : Reading Tree := do
  match fuel with
  | 0 => unexpected none
  | fuel + 1 =>
    if single then gaps else lines
    match ← ahead with
    | [] | ')' :: _ | ';' :: ';' :: _ => return .nothing
    | '\n' :: _ => return .nothing
    | r =>
      if isListEnd (plainWord r) then return .nothing
      else
        let first ← readAndOr fuel
        gaps
        match ← ahead with
        | ';' :: ';' :: _ => return first
        | ';' :: _ =>
          advance 1
          return .sequence first (← readList fuel single)
        | '&' :: _ =>
          advance 1
          return .sequence (.background first) (← readList fuel single)
        | '\n' :: _ =>
          if single then return first
          else
            advance 1
            return .sequence first (← readList fuel single)
        | _ => return first

/-- Reads pipelines that are joined by `&&` and `||`. -/
def readAndOr (fuel : Nat) : Reading Tree := do
  match fuel with
  | 0 => unexpected none
  | fuel + 1 =>
    let first ← readPipeline fuel
    readMore fuel first

/-- Reads what is joined to a pipeline. -/
def readMore (fuel : Nat) (first : Tree) : Reading Tree := do
  match fuel with
  | 0 => unexpected none
  | fuel + 1 =>
    gaps
    match ← ahead with
    | '&' :: '&' :: _ =>
      advance 2
      lines
      readMore fuel (.both first (← readPipeline fuel))
    | '|' :: '|' :: _ =>
      advance 2
      lines
      readMore fuel (.either first (← readPipeline fuel))
    | _ => return first

/-- Reads commands that are joined by bars. -/
def readPipeline (fuel : Nat) : Reading Tree := do
  match fuel with
  | 0 => unexpected none
  | fuel + 1 =>
    gaps
    if plainWord (← ahead) = "!" then
      advance 1
      let commands ← readPiped fuel
      return .pipeline true commands
    else
      match ← readPiped fuel with
      | [command] => return command
      | commands => return .pipeline false commands

/-- Reads the commands of a pipeline. -/
def readPiped (fuel : Nat) : Reading (List Tree) := do
  match fuel with
  | 0 => unexpected none
  | fuel + 1 =>
    let command ← readOne fuel
    gaps
    match ← ahead with
    | '|' :: '|' :: _ => return [command]
    | '|' :: _ =>
      advance 1
      lines
      return command :: (← readPiped fuel)
    | _ => return [command]

/-- Reads one command. -/
def readOne (fuel : Nat) : Reading Tree := do
  match fuel with
  | 0 => unexpected none
  | fuel + 1 =>
    gaps
    let r ← ahead
    let line := (← get).line
    match r with
    | '(' :: _ =>
      advance 1
      let body ← readList fuel false
      lines
      match ← ahead with
      | ')' :: _ =>
        advance 1
        return .subshell body (← redirectionsAfter)
      | _ => unexpected (some ")")
    | _ =>
      match plainWord r with
      | "\x7b" =>
        advance 1
        let body ← readList fuel false
        expectWord "\x7d"
        return .grouped body (← redirectionsAfter)
      | "if" =>
        advance 2
        match ← readIf fuel with
        | .choice condition yes no _ => return .choice condition yes no (← redirectionsAfter)
        | tree => return tree
      | "while" =>
        advance 5
        readLoop fuel false
      | "until" =>
        advance 5
        readLoop fuel true
      | "for" =>
        advance 3
        gaps
        let (name, _) := literal (← readWord)
        if !isName name then fail (Raw.ofString "Bad for loop variable")
        else
          lines
          let words ←
            if plainWord (← ahead) = "in" then do
              advance 2
              pure (some (← readWords ((← ahead).length + 1)))
            else pure none
          gaps
          match ← ahead with
          | ';' :: _ => advance 1
          | [] => if words.isSome then unexpected none
          | _ => pure ()
          lines
          expectWord "do"
          let body ← readList fuel false
          expectWord "done"
          return .each name words body (← redirectionsAfter)
      | "case" =>
        advance 4
        gaps
        if (← ahead) = [] then fail (Raw.ofString "end of file unexpected (expecting word)")
        let subject ← readWord
        lines
        expectWord "in"
        let clauses ← readClauses fuel
        expectWord "esac"
        return .cases subject clauses (← redirectionsAfter)
      | word =>
        if isListEnd word then unexpected none
        else if word = "" && (match r with | c :: _ => c ≠ '<' && c ≠ '>' | [] => true) then
          unexpected none
        else
          let name := r.takeWhile isNameChar
          let after := skipGaps r.length (r.drop name.length)
          match after with
          | '(' :: more =>
            match isName name, skipGaps more.length more with
            | true, ')' :: more =>
              advance (r.length - more.length)
              lines
              return .define name (← readOne fuel)
            | true, [] =>
              advance r.length
              unexpected (some ")")
            | _, _ =>
              advance (r.length - after.length)
              unexpected none
          | _ =>
            let parts ← readSimple (r.length + 1) {}
            return .simple line parts.assignments parts.words parts.redirections

/-- Reads a choice, from behind its first word. -/
def readIf (fuel : Nat) : Reading Tree := do
  match fuel with
  | 0 => unexpected none
  | fuel + 1 =>
    let condition ← readList fuel false
    expectWord "then"
    let yes ← readList fuel false
    lines
    match plainWord (← ahead) with
    | "elif" =>
      advance 4
      return .choice condition yes (← readIf fuel) []
    | "else" =>
      advance 4
      let no ← readList fuel false
      expectWord "fi"
      return .choice condition yes no []
    | _ =>
      expectWord "fi"
      return .choice condition yes .nothing []

/-- Reads a loop, from behind its first word. -/
def readLoop (fuel : Nat) (untilHolds : Bool) : Reading Tree := do
  match fuel with
  | 0 => unexpected none
  | fuel + 1 =>
    let condition ← readList fuel false
    expectWord "do"
    let body ← readList fuel false
    expectWord "done"
    return .loop untilHolds condition body (← redirectionsAfter)

/-- Reads the clauses of a case distinction. -/
def readClauses (fuel : Nat) : Reading (List (List Word × Tree)) := do
  match fuel with
  | 0 => unexpected none
  | fuel + 1 =>
    lines
    if plainWord (← ahead) = "esac" then return []
    else
      match ← ahead with
      | '(' :: _ => advance 1
      | _ => pure ()
      let patterns ← readPatterns ((← ahead).length + 1)
      let body ← readList fuel false
      lines
      match ← ahead with
      | ';' :: ';' :: _ =>
        advance 2
        return (patterns, body) :: (← readClauses fuel)
      | _ => return [(patterns, body)]

end

/-- Reads the next complete command of a program, none at its end. -/
def readCommand : Reading (Option Tree) := do
  lines
  match ← ahead with
  | [] => return none
  | r =>
    let tree ← readList (8 * r.length + 8) true
    gaps
    match ← ahead with
    | [] => return some tree
    | '\n' :: _ =>
      advance 1
      return some tree
    | _ => unexpected none

end BenchSweep.Host.Shell
