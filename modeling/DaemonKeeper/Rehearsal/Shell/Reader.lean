import DaemonKeeper.Rehearsal.Shell.Script
set_option autoImplicit false

/-!
# Rehearsal: reading shell scripts

Reads the text of a script front to back.  Every function has a bound on how deep it goes, which the
length of the text always satisfies.
-/

namespace DaemonKeeper.Rehearsal.Shell

/-- What is left of a text, with the number of the line. -/
structure Source where
  rest : List Char
  line : Nat

/-- The text is no script. -/
structure Unexpected where
  /-- What is said of it. -/
  wording : String
  line : Nat
  deriving Repr

/-- A reader of a front part of the text. -/
abbrev Reading := StateT Source (Except Unexpected)

namespace Reading

/-- What comes next. -/
def ahead : Reading (List Char) := do return (← get).rest

/-- Passes over some characters. -/
def advance (n : Nat) : Reading Unit := modify fun s =>
  { rest := s.rest.drop n, line := s.line + (s.rest.take n).count '\n' }

/-- Characters that end a word. -/
def endsWord (c : Char) : Bool :=
  c ∈ [' ', '\t', '\n', ';', '&', '|', '<', '>', '(', ')']

/-- Words that end a list of commands. -/
def closers : List String := ["then", "else", "elif", "fi", "do", "done", "esac", "\x7d"]

/-- What is said to be met at the front of a text. -/
def metAt (cs : List Char) : String :=
  let w := String.ofList (cs.takeWhile fun c => !endsWord c)
  match cs with
  | [] => "end of file"
  | '\n' :: _ => "newline"
  | '<' :: _ | '>' :: _ => "redirection"
  | c :: rest =>
    if w.isEmpty then
      "\"" ++ c.toString ++ (if rest.head? = some c && c != ')' then c.toString else "") ++ "\""
    else if w ∈ closers then "\"" ++ w ++ "\""
    else "word"

/-- Gives up with a complaint. -/
def giveUp {α : Type} (wording : String) : Reading α := do throw ⟨wording, (← get).line⟩

/-- Gives up at what comes next, where perhaps something was awaited. -/
def refuse {α : Type} (awaited : Option String) : Reading α := do
  giveUp (metAt (← get).rest ++ " unexpected" ++ match awaited with
    | some w => " (expecting \"" ++ w ++ "\")"
    | none => "")

/-- Characters that begin a name. -/
def beginsName (c : Char) : Bool := c.isAlpha || c = '_'

/-- Characters of a name. -/
def inName (c : Char) : Bool := c.isAlphanum || c = '_'

/-- Parameters of one character. -/
def isSpecial (c : Char) : Bool := c.isDigit || c ∈ ['@', '*', '#', '?', '$', '!', '-']

/-- How many characters of blanks, joined lines and comments come first. -/
def blankCount : List Char → Nat
  | ' ' :: rest | '\t' :: rest => blankCount rest + 1
  | '\\' :: '\n' :: rest => blankCount rest + 2
  | '#' :: rest => (rest.takeWhile (· != '\n')).length + 1
  | _ => 0

/-- Passes over blanks. -/
def skipBlanks : Reading Unit := do advance (blankCount (← ahead))

/-- Passes over blanks, line ends and, on the same footing, semicolons. -/
def skipSeparators (bound : Nat) (semicolons : Bool) : Reading Unit := do
  match bound with
  | 0 => return ()
  | bound + 1 =>
    skipBlanks
    match ← ahead with
    | '\n' :: _ => advance 1; skipSeparators bound semicolons
    | ';' :: c :: _ =>
      if semicolons && c != ';' then advance 1; skipSeparators bound semicolons
      else return ()
    | [';'] => if semicolons then advance 1 else return ()
    | _ => return ()

/-- The plain word that comes next; nothing of it is quoted or stands for something else. -/
def plainWord : Reading String := do
  skipBlanks
  return String.ofList ((← ahead).takeWhile fun c => !endsWord c)

/-- Passes over an awaited word. -/
def expectWord (w : String) : Reading Unit := do
  if (← plainWord) = w then advance w.length else refuse (some w)

/-- Passes over an awaited character. -/
def expect (c : Char) : Reading Unit := do
  match ← ahead with
  | d :: _ => if c = d then advance 1 else refuse (some c.toString)
  | [] => refuse (some c.toString)

/-- A name. -/
def name : Reading String := do
  let n := (← ahead).takeWhile inName
  advance n.length
  return String.ofList n

/-- The plain front part of an assignment, if the next word is one. -/
def assignmentName (cs : List Char) : Option (List Char) :=
  let n := cs.takeWhile inName
  match n, cs.drop n.length with
  | c :: _, '=' :: _ => if beginsName c then some n else none
  | _, _ => none

/-- The descriptor, the direction and the length of a redirection operator. -/
def redirectionOperator (cs : List Char) : Option (Nat × Direction × Nat) :=
  let digits := cs.takeWhile Char.isDigit
  let number := Nat.ofDigitChars 10 digits 0
  let descriptor (standard : Nat) := if digits.isEmpty then standard else number
  let size := digits.length
  match cs.drop size with
  | '>' :: '>' :: _ => some (descriptor 1, .append, size + 2)
  | '>' :: '&' :: _ => some (descriptor 1, .duplicate, size + 2)
  | '>' :: '|' :: _ => some (descriptor 1, .output, size + 2)
  | '>' :: _ => some (descriptor 1, .output, size + 1)
  | '<' :: '&' :: _ => some (descriptor 0, .duplicate, size + 2)
  | '<' :: '<' :: _ => none
  | '<' :: _ => some (descriptor 0, .input, size + 1)
  | _ => none

/-- The text between single quotes, the first of which was passed. -/
def singleQuoted : Reading Part := do
  let s := (← ahead).takeWhile (· != '\x27')
  if (← ahead).length ≤ s.length then giveUp "Unterminated quoted string"
  advance (s.length + 1)
  return .text true (String.ofList s)

/-- The kind of a change by a word, and how many characters say it. -/
def changeOperator : List Char → Option ((List Part → Change) × Nat)
  | ':' :: '-' :: _ => some (.fallback true .use, 2)
  | ':' :: '=' :: _ => some (.fallback true .assign, 2)
  | ':' :: '?' :: _ => some (.fallback true .complain, 2)
  | ':' :: '+' :: _ => some (.fallback true .alternative, 2)
  | '-' :: _ => some (.fallback false .use, 1)
  | '=' :: _ => some (.fallback false .assign, 1)
  | '?' :: _ => some (.fallback false .complain, 1)
  | '+' :: _ => some (.fallback false .alternative, 1)
  | '#' :: '#' :: _ => some (.cut true true, 2)
  | '#' :: _ => some (.cut true false, 1)
  | '%' :: '%' :: _ => some (.cut false true, 2)
  | '%' :: _ => some (.cut false false, 1)
  | _ => none

/-- The text of a script between backquotes, with the escapes of that form undone. -/
def backquoted : List Char → List Char × Nat
  | [] => ([], 0)
  | '\x60' :: _ => ([], 1)
  | '\\' :: c :: rest =>
    let (cs, n) := backquoted rest
    (if c = '\x60' || c = '\\' || c = '$' then c :: cs else '\\' :: c :: cs, n + 2)
  | c :: rest =>
    let (cs, n) := backquoted rest
    (c :: cs, n + 1)

/-- Where a sequence of parts ends. -/
inductive Close where
  /-- Before a character that ends a word. -/
  | word
  /-- At a double quote, which is passed. -/
  | quote
  /-- At a brace, which is passed. -/
  | brace (quoted : Bool)
  /-- At two closing parentheses, which are passed, where `depth` are open inside. -/
  | arithmetic (depth : Nat)

/-- Text there is not split or matched. -/
def Close.isQuoted : Close → Bool
  | .word => false
  | .quote | .arithmetic _ => true
  | .brace quoted => quoted

/-- What is said where the close is missing. -/
def Close.complaint : Close → String
  | .brace _ => "Missing '\x7d'"
  | .arithmetic _ => "Missing '))'"
  | _ => "Unterminated quoted string"

mutual

/-- Parts up to a close. -/
def parts (bound : Nat) (close : Close) : Reading (List Part) := do
  match bound with
  | 0 => refuse none
  | bound + 1 =>
    let quoted := close.isQuoted
    let single (c : Char) (close : Close) : Reading (List Part) := do
      advance 1
      return .text quoted c.toString :: (← parts bound close)
    match close, ← ahead with
    | .word, [] => return []
    | close, [] => giveUp close.complaint
    | .quote, '"' :: _ => advance 1; return []
    | .brace _, '\x7d' :: _ => advance 1; return []
    | .arithmetic 0, ')' :: ')' :: _ => advance 2; return []
    | .arithmetic depth, '(' :: _ => single '(' (.arithmetic (depth + 1))
    | .arithmetic (depth + 1), ')' :: _ => single ')' (.arithmetic depth)
    | _, '\\' :: '\n' :: _ => advance 2; parts bound close
    | _, '\\' :: c :: _ =>
      let escapes := !quoted || c ∈ ['$', '\x60', '"', '\\']
      advance 2
      return .text true (if escapes then c.toString else String.ofList ['\\', c])
        :: (← parts bound close)
    | _, '$' :: _ =>
      advance 1
      let first ← dollar bound quoted
      return first :: (← parts bound close)
    | _, '\x60' :: rest =>
      let (text, n) := backquoted rest
      advance (n + 1)
      match (commands bound).run ⟨text, (← get).line⟩ with
      | .ok (script, _) => return .output quoted script :: (← parts bound close)
      | .error fault => throw fault
    | .word, '\x27' :: _ =>
      advance 1
      let first ← singleQuoted
      return first :: (← parts bound close)
    | .word, '"' :: _ | .brace _, '"' :: _ =>
      advance 1
      let inside ← parts bound .quote
      return (if inside.isEmpty then [.text true ""] else inside) ++ (← parts bound close)
    | .word, c :: _ => if endsWord c then return [] else single c .word
    | _, c :: _ => single c close

/-- What stands after a dollar sign. -/
def dollar (bound : Nat) (quoted : Bool) : Reading Part := do
  match bound with
  | 0 => refuse none
  | bound + 1 =>
    match ← ahead with
    | '(' :: '(' :: _ =>
      advance 2
      return .arithmetic quoted (← parts bound (.arithmetic 0))
    | '(' :: _ =>
      advance 1
      let script ← commands bound
      expect ')'
      return .output quoted script
    | '\x7b' :: rest =>
      advance 1
      match rest with
      | '#' :: c :: _ =>
        if c = '\x7d' then
          advance 2
          return .parameter quoted "#" .same
        else
          advance 1
          let n ← parameterName
          expect '\x7d'
          return .parameter quoted n .length
      | _ =>
        let n ← parameterName
        match changeOperator (← ahead) with
        | some (change, size) =>
          advance size
          return .parameter quoted n (change (← parts bound (.brace quoted)))
        | none =>
          if (← ahead).isEmpty then giveUp (Close.brace quoted).complaint
          expect '\x7d'
          return .parameter quoted n .same
    | c :: _ =>
      if beginsName c then return .parameter quoted (← name) .same
      else if isSpecial c then
        advance 1
        return .parameter quoted c.toString .same
      else return .text quoted "$"
    | [] => return .text quoted "$"

/-- The name of a parameter in braces. -/
def parameterName : Reading String := do
  match ← ahead with
  | c :: _ =>
    if beginsName c then name
    else if c.isDigit then
      let n := (← ahead).takeWhile Char.isDigit
      advance n.length
      return String.ofList n
    else if isSpecial c then
      advance 1
      return c.toString
    else refuse none
  | [] => refuse none

/-- A word. -/
def word (bound : Nat) : Reading (List Part) := do
  match bound with
  | 0 => refuse none
  | bound + 1 =>
    skipBlanks
    match ← ahead with
    | c :: _ => if endsWord c then refuse none else parts bound .word
    | [] => refuse none

/-- Words up to the end of a command. -/
def words (bound : Nat) : Reading (List (List Part)) := do
  match bound with
  | 0 => refuse none
  | bound + 1 =>
    skipBlanks
    match ← ahead with
    | c :: _ =>
      if endsWord c then return []
      else
        let w ← word bound
        return w :: (← words bound)
    | [] => return []

/-- Redirections behind a command. -/
def redirections (bound : Nat) : Reading (List Redirection) := do
  match bound with
  | 0 => refuse none
  | bound + 1 =>
    skipBlanks
    match redirectionOperator (← ahead) with
    | some (descriptor, direction, size) =>
      advance size
      let target ← word bound
      return .mk descriptor direction target :: (← redirections bound)
    | none => return []

/-- The rest of a simple command. -/
def simple (bound line : Nat) (assignments : List (String × List Part))
    (ws : List (List Part)) (rs : List Redirection) : Reading Script := do
  match bound with
  | 0 => refuse none
  | bound + 1 =>
    skipBlanks
    let cs ← ahead
    match redirectionOperator cs with
    | some (descriptor, direction, size) =>
      advance size
      let target ← word bound
      simple bound line assignments ws (rs ++ [.mk descriptor direction target])
    | none =>
      match (if ws.isEmpty then assignmentName cs else none) with
      | some n =>
        advance (n.length + 1)
        let value ← parts bound .word
        simple bound line (assignments ++ [(String.ofList n, value)]) ws rs
      | none =>
        match cs with
        | c :: _ =>
          if endsWord c then
            if assignments.isEmpty && ws.isEmpty && rs.isEmpty then refuse none
            else return .simple line assignments ws rs
          else
            let w ← word bound
            simple bound line assignments (ws ++ [w]) rs
        | [] =>
          if assignments.isEmpty && ws.isEmpty && rs.isEmpty then refuse none
          else return .simple line assignments ws rs

/-- What follows the condition of a choice. -/
def alternatives (bound : Nat) : Reading Script := do
  match bound with
  | 0 => refuse none
  | bound + 1 =>
    let condition ← commands bound
    expectWord "then"
    let yes ← commands bound
    match ← plainWord with
    | "elif" =>
      advance 4
      return .choice condition yes (← alternatives bound)
    | "else" =>
      advance 4
      let no ← commands bound
      expectWord "fi"
      return .choice condition yes no
    | _ =>
      expectWord "fi"
      return .choice condition yes .nothing

/-- The patterns of a clause, up to the closing parenthesis. -/
def patterns (bound : Nat) : Reading (List (List Part)) := do
  match bound with
  | 0 => refuse none
  | bound + 1 =>
    let w ← word bound
    skipBlanks
    match ← ahead with
    | '|' :: _ =>
      advance 1
      return w :: (← patterns bound)
    | _ =>
      expect ')'
      return [w]

/-- The clauses of a case distinction. -/
def clauses (bound : Nat) : Reading (List (List (List Part) × Script)) := do
  match bound with
  | 0 => refuse none
  | bound + 1 =>
    skipSeparators bound false
    if (← plainWord) = "esac" then
      advance 4
      return []
    else
      match ← ahead with
      | '(' :: _ => advance 1
      | _ => pure ()
      let ps ← patterns bound
      let body ← commands bound
      skipSeparators bound false
      match ← ahead with
      | ';' :: ';' :: _ =>
        advance 2
        return (ps, body) :: (← clauses bound)
      | _ =>
        expectWord "esac"
        return [(ps, body)]

/-- The body of a loop. -/
def loopBody (bound : Nat) : Reading Script := do
  match bound with
  | 0 => refuse none
  | bound + 1 =>
    skipSeparators bound true
    expectWord "do"
    let body ← commands bound
    expectWord "done"
    return body

/-- A command with what is redirected. -/
def command (bound : Nat) : Reading Script := do
  match bound with
  | 0 => refuse none
  | bound + 1 =>
    let compound (script : Script) : Reading Script := do
      match ← redirections bound with
      | [] => return script
      | rs => return .redirected script rs
    skipBlanks
    let line := (← get).line
    match ← ahead with
    | '(' :: _ =>
      advance 1
      let script ← commands bound
      expect ')'
      compound (.subshell script)
    | cs =>
      match ← plainWord with
      | "\x7b" =>
        advance 1
        let script ← commands bound
        expectWord "\x7d"
        compound script
      | "if" =>
        advance 2
        compound (← alternatives bound)
      | "while" =>
        advance 5
        let condition ← commands bound
        compound (.loop false condition (← loopBody bound))
      | "until" =>
        advance 5
        let condition ← commands bound
        compound (.loop true condition (← loopBody bound))
      | "for" =>
        advance 3
        skipBlanks
        let n ← name
        skipBlanks
        if (← plainWord) = "in" then
          advance 2
          let ws ← words bound
          compound (.each n (some ws) (← loopBody bound))
        else compound (.each n none (← loopBody bound))
      | "case" =>
        advance 4
        let subject ← word bound
        skipSeparators bound false
        expectWord "in"
        compound (.cases subject (← clauses bound))
      | _ =>
        let n := cs.takeWhile inName
        match n, cs.drop n.length with
        | c :: _, '(' :: ')' :: _ =>
          if beginsName c then
            advance (n.length + 2)
            skipSeparators bound false
            return .define (String.ofList n) (← command bound)
          else refuse none
        | _, _ => simple bound line [] [] []

/-- Commands joined by bars, perhaps negated. -/
def pipeline (bound : Nat) : Reading Script := do
  match bound with
  | 0 => refuse none
  | bound + 1 =>
    if (← plainWord) = "!" then
      advance 1
      return .negation (← pipeline bound)
    else
      let first ← command bound
      skipBlanks
      match ← ahead with
      | '|' :: '|' :: _ => return first
      | '|' :: _ =>
        advance 1
        skipSeparators bound false
        return .pipe first (← pipeline bound)
      | _ => return first

/-- What follows a pipeline in a list of alternatives. -/
def conditional (bound : Nat) (first : Script) : Reading Script := do
  match bound with
  | 0 => refuse none
  | bound + 1 =>
    skipBlanks
    match ← ahead with
    | '&' :: '&' :: _ =>
      advance 2
      skipSeparators bound false
      conditional bound (.both first (← pipeline bound))
    | '|' :: '|' :: _ =>
      advance 2
      skipSeparators bound false
      conditional bound (.either first (← pipeline bound))
    | _ => return first

/-- Commands up to a word or a character that closes the list. -/
def commands (bound : Nat) : Reading Script := do
  match bound with
  | 0 => refuse none
  | bound + 1 =>
    skipSeparators bound false
    match ← ahead with
    | [] | ')' :: _ => return .nothing
    | ';' :: _ => return .nothing
    | _ =>
      if (← plainWord) ∈ closers then return .nothing
      let first ← conditional bound (← pipeline bound)
      skipBlanks
      match ← ahead with
      | '&' :: _ =>
        advance 1
        return .sequence (.background first) (← commands bound)
      | ';' :: ';' :: _ => return first
      | ';' :: _ | '\n' :: _ =>
        advance 1
        return .sequence first (← commands bound)
      | _ => return first

end

end Reading

/-- Reads a whole script whose first line has a number. -/
def readScript (firstLine : Nat) (text : List Char) : Except Unexpected Script :=
  let whole : Reading Script := do
    let script ← Reading.commands (20 * text.length + 100)
    match ← Reading.ahead with
    | [] => return script
    | _ => Reading.refuse none
  (whole.run ⟨text, firstLine⟩).map (·.1)

end DaemonKeeper.Rehearsal.Shell
