import PatchTrial.Machine.Program

/-!
Conditions on files, texts and numbers, as words.
-/
namespace PatchTrial.Machine.Utility

/-- What a condition comes to: true, false, or a complaint. -/
abbrev Verdict := Except Text Bool

def unaryOps : List String :=
  ["-b", "-c", "-d", "-e", "-f", "-g", "-h", "-L", "-n", "-p", "-r", "-s", "-S", "-t", "-u", "-w",
    "-x", "-z", "-k", "-O", "-G"]

def binaryOps : List String :=
  ["=", "==", "!=", "<", ">", "-eq", "-ne", "-gt", "-ge", "-lt", "-le", "-nt", "-ot", "-ef"]

def isOp (ops : List String) (t : Text) : Bool := ops.contains (String.ofList t)

def unary (op : Text) (word : Text) : Task Verdict := do
  let follow := op != "-h".toList && op != "-L".toList
  if op == "-n".toList then return .ok !word.isEmpty
  else if op == "-z".toList then return .ok word.isEmpty
  else if op == "-t".toList then return .ok false
  else
    match ← Task.call (.stat word follow) with
    | .error _ => return .ok false
    | .ok s =>
      match String.ofList op with
      | "-d" => return .ok (s.kind == .folder)
      | "-f" => return .ok (s.kind == .regular)
      | "-h" => return .ok (s.kind == .link)
      | "-L" => return .ok (s.kind == .link)
      | "-c" => return .ok (s.kind == .device)
      | "-s" => return .ok (0 < s.size)
      | "-x" => return .ok (s.kind == .folder || s.mode &&& 0o111 != 0)
      | "-e" => return .ok true
      | "-r" => return .ok true
      | "-w" => return .ok true
      | "-O" => return .ok true
      | "-G" => return .ok true
      | _ => return .ok false

def illegal (t : Text) : Text := "Illegal number: ".toList ++ t

def numberIn (t : Text) : Except Text Int :=
  let isSpace (c : Char) := c == ' ' || c == '\t' || c == '\n'
  let bare := ((t.dropWhile isSpace).reverse.dropWhile isSpace).reverse
  match Text.toInt? bare with
  | some n => .ok n
  | none => .error (illegal t)

def binary (op a b : Text) : Task Verdict := do
  let compare (f : Int → Int → Bool) : Verdict := do return f (← numberIn a) (← numberIn b)
  match String.ofList op with
  | "=" => return .ok (a == b)
  | "==" => return .ok (a == b)
  | "!=" => return .ok (a != b)
  | "<" => return .ok (a < b)
  | ">" => return .ok (b < a)
  | "-eq" => return compare (· == ·)
  | "-ne" => return compare (· != ·)
  | "-gt" => return compare (· > ·)
  | "-ge" => return compare (· ≥ ·)
  | "-lt" => return compare (· < ·)
  | "-le" => return compare (· ≤ ·)
  | "-ef" =>
    match ← Task.call (.stat a true), ← Task.call (.stat b true) with
    | .ok x, .ok y => return .ok (x.node == y.node)
    | _, _ => return .ok false
  | _ => return .ok false

/-- The complaint about a word where an operator was expected. -/
def notOperator (t : Text) : Text := t ++ ": unexpected operator".toList

mutual

/-- Conditions of which one is enough: the result and the words left. -/
def orTest : Nat → List Text → Task (Verdict × List Text)
  | 0, ws => return (.ok false, ws)
  | budget + 1, ws => do
    let (x, ws) ← andTest budget ws
    match x, ws with
    | .ok b, ['-', 'o'] :: rest => do
      let (y, ws) ← orTest budget rest
      return (y.map fun c => b || c, ws)
    | x, ws => return (x, ws)

def andTest : Nat → List Text → Task (Verdict × List Text)
  | 0, ws => return (.ok false, ws)
  | budget + 1, ws => do
    let (x, ws) ← notTest budget ws
    match x, ws with
    | .ok b, ['-', 'a'] :: rest => do
      let (y, ws) ← andTest budget rest
      return (y.map fun c => b && c, ws)
    | x, ws => return (x, ws)

def notTest : Nat → List Text → Task (Verdict × List Text)
  | 0, ws => return (.ok false, ws)
  | budget + 1, ws => do
    match ws with
    | ['!'] :: next :: rest =>
      if isOp binaryOps next && !rest.isEmpty then plainTest budget ws
      else do
        let (x, ws) ← notTest budget (next :: rest)
        return (x.map (!·), ws)
    | ws => plainTest budget ws

def plainTest : Nat → List Text → Task (Verdict × List Text)
  | 0, ws => return (.ok false, ws)
  | budget + 1, ws => do
    match ws with
    | a :: op :: b :: rest =>
      if isOp binaryOps op then return (← binary op a b, rest)
      else if a == ['('] then inBrackets budget (op :: b :: rest)
      else if isOp unaryOps a then return (← unary a op, b :: rest)
      else return (.ok !a.isEmpty, op :: b :: rest)
    | [a, b] =>
      if isOp binaryOps b then return (.error (b ++ ": argument expected".toList), [])
      else if isOp unaryOps a then return (← unary a b, [])
      else return (.ok !a.isEmpty, [b])
    | [a] => return (.ok !a.isEmpty, [])
    | [] => return (.error "argument expected".toList, [])

def inBrackets : Nat → List Text → Task (Verdict × List Text)
  | 0, ws => return (.ok false, ws)
  | budget + 1, ws => do
    let (x, ws) ← orTest budget ws
    match ws with
    | [')'] :: rest => return (x, rest)
    | _ => return (.error "closing paren expected".toList, ws)

end

def test (ws : List Text) : Task Verdict := do
  if ws.isEmpty then return .ok false
  let (x, left) ← orTest (4 * ws.length + 8) ws
  match x, left with
  | .ok b, [] => return .ok b
  | .ok _, _ :: _ => return .error (notOperator ((ws[ws.length - left.length - 1]?).getD []))
  | .error e, _ => return .error e

end PatchTrial.Machine.Utility
