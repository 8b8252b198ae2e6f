import PatchTrial.Machine.Shell.Syntax

/-!
Sums: whole numbers, variables, and the usual operators by their ranks.
-/
namespace PatchTrial.Machine.Shell

abbrev Numbers := List (Text × Text)

/-- What is still to be read of a sum, and the variables. -/
structure Sum where
  rest : Text
  vars : Numbers

/-- A reader of part of a sum; `none` if it is no sum. -/
abbrev Sums := StateT Sum Option

namespace Sums

def blanks : Sums Unit := modify fun s =>
  { s with rest := s.rest.dropWhile (" \t\n".toList.contains ·) }

/-- Goes past an operator if it is next and no longer one is. -/
def accept (op : String) (notBefore : String) : Sums Bool := do
  blanks
  let s ← get
  let after := s.rest.drop op.length
  if op.toList.isPrefixOf s.rest && !(after.head?.any (notBefore.toList.contains ·)) then
    set { s with rest := after }
    return true
  else return false

/-- The value of digits in the form in which numbers are written. -/
def literal (t : Text) : Option Int :=
  match t with
  | '0' :: x :: rest =>
    if x == 'x' || x == 'X' then
      rest.foldlM (fun n c =>
        if c.isDigit then some (n * 16 + (c.toNat - 48 : Nat))
        else if 'a' ≤ c && c ≤ 'f' then some (n * 16 + (c.toNat - 87 : Nat))
        else if 'A' ≤ c && c ≤ 'F' then some (n * 16 + (c.toNat - 55 : Nat))
        else none) (0 : Int)
    else (x :: rest).foldlM (fun n c =>
      if '0' ≤ c && c ≤ '7' then some (n * 8 + (c.toNat - 48 : Nat)) else none) (0 : Int)
  | t => (Text.toNat? t).map fun n => (n : Int)

def variableValue (name : Text) : Sums Int := do
  match (← get).vars.lookup name with
  | none => return 0
  | some t => if t.isEmpty then return 0 else Text.toInt? t

def assign (name : Text) (n : Int) : Sums Int := do
  modify fun s => { s with vars := (name, Text.ofInt n) :: s.vars.filter fun e => e.1 != name }
  return n

/-- The operators of each rank, the weakest first, with characters that may not follow. -/
def ranks : List (List (String × String)) :=
  [[("||", "")], [("&&", "")], [("|", "|=")], [("^", "=")], [("&", "&=")],
    [("==", ""), ("!=", "")], [("<=", ""), (">=", ""), ("<", "<="), (">", ">=")],
    [("<<", "="), (">>", "=")], [("+", "+="), ("-", "-=")], [("*", "="), ("/", "="), ("%", "=")]]

def ofBool (b : Bool) : Int := if b then 1 else 0

def apply (op : String) (a b : Int) : Option Int :=
  match op with
  | "||" => some (ofBool (a != 0 || b != 0))
  | "&&" => some (ofBool (a != 0 && b != 0))
  | "|" => some (Int.ofNat (a.toNat ||| b.toNat))
  | "^" => some (Int.ofNat (a.toNat ^^^ b.toNat))
  | "&" => some (Int.ofNat (a.toNat &&& b.toNat))
  | "==" => some (ofBool (a == b))
  | "!=" => some (ofBool (a != b))
  | "<=" => some (ofBool (a ≤ b))
  | ">=" => some (ofBool (b ≤ a))
  | "<" => some (ofBool (a < b))
  | ">" => some (ofBool (b < a))
  | "<<" => some (a * Nat.pow 2 b.toNat)
  | ">>" => some (a / Nat.pow 2 b.toNat)
  | "+" => some (a + b)
  | "-" => some (a - b)
  | "*" => some (a * b)
  | "/" => if b = 0 then none else some (Int.tdiv a b)
  | "%" => if b = 0 then none else some (Int.tmod a b)
  | _ => none

def operator : List (String × String) → Sums (Option String)
  | [] => return none
  | (op, notBefore) :: rest => do
    if ← accept op notBefore then return some op else operator rest

mutual

def expression : Nat → Sums Int
  | 0 => failure
  | budget + 1 => do
    blanks
    let s ← get
    let name := s.rest.takeWhile isNamePart
    let saved := s
    if isName name then
      set { s with rest := s.rest.drop name.length }
      if ← accept "=" "=" then
        return ← assign name (← expression budget)
      for op in ["+", "-", "*", "/", "%"] do
        if ← accept (op ++ "=") "" then
          let right ← expression budget
          return ← assign name (← apply op (← variableValue name) right)
      set saved
    let test ← binary budget ranks
    if ← accept "?" "" then
      let yes ← expression budget
      if !(← accept ":" "") then failure
      let no ← expression budget
      return if test != 0 then yes else no
    return test

def binary : Nat → List (List (String × String)) → Sums Int
  | 0, _ => failure
  | budget + 1, [] => unary budget
  | budget + 1, rank :: stronger => do
    let first ← binary budget stronger
    more budget rank stronger first

def more : Nat → List (String × String) → List (List (String × String)) → Int → Sums Int
  | 0, _, _, _ => failure
  | budget + 1, rank, stronger, left => do
    match ← operator rank with
    | none => return left
    | some op =>
      let right ← binary budget stronger
      more budget rank stronger (← apply op left right)

def unary : Nat → Sums Int
  | 0 => failure
  | budget + 1 => do
    if ← accept "-" "" then return -(← unary budget)
    if ← accept "+" "" then return ← unary budget
    if ← accept "!" "" then return ofBool ((← unary budget) == 0)
    if ← accept "~" "" then return -(← unary budget) - 1
    if ← accept "(" "" then
      let n ← expression budget
      if ← accept ")" "" then return n else failure
    let s ← get
    let t := s.rest.takeWhile isNamePart
    set { s with rest := s.rest.drop t.length }
    if isName t then variableValue t else literal t

end

/-- The value of a sum, and the variables after it. -/
def evaluate (t : Text) (vars : Numbers) : Option (Int × Numbers) := do
  let (n, s) ← (expression (40 * t.length + 40)).run { rest := t, vars }
  if (s.rest.dropWhile (" \t\n".toList.contains ·)).isEmpty then some (n, s.vars) else none

end Sums
end PatchTrial.Machine.Shell
