set_option autoImplicit false

/-!
# Rehearsal: arithmetic expressions

Whole numbers with the usual operators; a name stands for the number that it holds.
-/

namespace DaemonKeeper.Rehearsal.Shell.Arithmetic

/-- A token of an expression. -/
inductive Token where
  | number (n : Int)
  | name (s : String)
  | symbol (s : String)
  deriving DecidableEq, Repr

/-- Operators of two characters. -/
def doubles : List (List Char) :=
  [['&', '&'], ['|', '|'], ['=', '='], ['!', '='], ['<', '='], ['>', '='], ['<', '<'], ['>', '>']]

/-- The tokens of a text; what is none ends the list. -/
def tokens (cs : List Char) : List Token :=
  match cs with
  | [] => []
  | c :: rest =>
    if c = ' ' || c = '\t' || c = '\n' then tokens rest
    else if c.isDigit then
      .number (Nat.ofDigitChars 10 (c :: rest.takeWhile Char.isDigit) 0)
        :: tokens (rest.dropWhile Char.isDigit)
    else if c.isAlpha || c = '_' then
      .name (String.ofList (c :: rest.takeWhile fun d => d.isAlphanum || d = '_'))
        :: tokens (rest.dropWhile fun d => d.isAlphanum || d = '_')
    else
      match rest with
      | d :: after =>
        if [c, d] ∈ doubles then .symbol (String.ofList [c, d]) :: tokens after
        else .symbol c.toString :: tokens (d :: after)
      | [] => [.symbol c.toString]
termination_by cs.length
decreasing_by
  all_goals simp only [List.length_cons]
  all_goals try omega
  all_goals exact Nat.lt_succ_of_le (List.dropWhile_suffix _).length_le

/-- How tightly an operator between two operands binds. -/
def strength : String → Option Nat
  | "||" => some 1
  | "&&" => some 2
  | "|" => some 3
  | "^" => some 4
  | "&" => some 5
  | "==" | "!=" => some 6
  | "<" | ">" | "<=" | ">=" => some 7
  | "<<" | ">>" => some 8
  | "+" | "-" => some 9
  | "*" | "/" | "%" => some 10
  | _ => none

/-- The number of a truth value. -/
def truth (b : Bool) : Int := if b then 1 else 0

/-- An operator between two operands.  Nothing can be divided by zero. -/
def apply (operator : String) (a b : Int) : Option Int :=
  match operator with
  | "||" => some (truth (a != 0 || b != 0))
  | "&&" => some (truth (a != 0 && b != 0))
  | "|" => some (a.toNat ||| b.toNat : Nat)
  | "^" => some (a.toNat ^^^ b.toNat : Nat)
  | "&" => some (a.toNat &&& b.toNat : Nat)
  | "==" => some (truth (a = b))
  | "!=" => some (truth (a != b))
  | "<" => some (truth (a < b))
  | ">" => some (truth (b < a))
  | "<=" => some (truth (a ≤ b))
  | ">=" => some (truth (b ≤ a))
  | "<<" => some (a * Nat.pow 2 b.toNat)
  | ">>" => some (a / Nat.pow 2 b.toNat)
  | "+" => some (a + b)
  | "-" => some (a - b)
  | "*" => some (a * b)
  | "/" => if b = 0 then none else some (a.tdiv b)
  | "%" => if b = 0 then none else some (a.tmod b)
  | _ => none

mutual

/-- An operand with its signs. -/
def operand (bound : Nat) (value : String → Int) (ts : List Token) : Option (Int × List Token) :=
  match bound with
  | 0 => none
  | bound + 1 =>
    match ts with
    | .number n :: rest => some (n, rest)
    | .name s :: rest => some (value s, rest)
    | .symbol "-" :: rest => (operand bound value rest).map fun (n, rest) => (-n, rest)
    | .symbol "+" :: rest => operand bound value rest
    | .symbol "!" :: rest => (operand bound value rest).map fun (n, rest) => (truth (n = 0), rest)
    | .symbol "~" :: rest => (operand bound value rest).map fun (n, rest) => (-n - 1, rest)
    | .symbol "(" :: rest =>
      match expression bound value 0 rest with
      | some (n, .symbol ")" :: rest) => some (n, rest)
      | _ => none
    | _ => none

/-- An expression of operators that bind more tightly than a limit. -/
def expression (bound : Nat) (value : String → Int) (limit : Nat) (ts : List Token) :
    Option (Int × List Token) :=
  match bound with
  | 0 => none
  | bound + 1 => do
    let (a, rest) ← operand bound value ts
    further bound value limit a rest

/-- The operators that follow an operand. -/
def further (bound : Nat) (value : String → Int) (limit : Nat) (a : Int) (ts : List Token) :
    Option (Int × List Token) :=
  match bound with
  | 0 => none
  | bound + 1 =>
    match ts with
    | .symbol s :: rest =>
      match strength s with
      | some n =>
        if limit < n then do
          let (b, rest) ← expression bound value n rest
          further bound value limit (← apply s a b) rest
        else some (a, ts)
      | none => some (a, ts)
    | _ => some (a, ts)

end

/-- The value of an expression; an empty one is zero. -/
def evaluate (value : String → Int) (text : String) : Option Int :=
  match tokens text.toList with
  | [] => some 0
  | ts =>
    match expression (4 * ts.length + 4) value 0 ts with
    | some (n, []) => some n
    | _ => none

end DaemonKeeper.Rehearsal.Shell.Arithmetic
