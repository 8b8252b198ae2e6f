import PatchTrial.Machine.Program

/-!
Writing words: what the commands for it make of their words, escapes and formats included.
-/
namespace PatchTrial.Machine.Utility

/-- The value of octal digits at the front, at most so many, and what follows. -/
def octal : Nat → Nat → Text → Nat × Text
  | 0, n, t => (n, t)
  | left + 1, n, c :: rest =>
    if '0' ≤ c && c ≤ '7' then octal left (n * 8 + (c.toNat - '0'.toNat)) rest else (n, c :: rest)
  | _ + 1, n, [] => (n, [])

/-- The character of a letter after a backslash. -/
def escapeOf? : Char → Option Char
  | 'a' => some (Char.ofNat 7)
  | 'b' => some (Char.ofNat 8)
  | 'f' => some (Char.ofNat 12)
  | 'n' => some '\n'
  | 'r' => some '\r'
  | 't' => some '\t'
  | 'v' => some (Char.ofNat 11)
  | '\\' => some '\\'
  | _ => none

/-- A text with its escapes carried out, and whether it asks for an end of all writing. In `zero`
form octal numbers begin with a zero. -/
def unescape (zero : Bool) : Nat → Text → Text × Bool
  | 0, t => (t, false)
  | _ + 1, [] => ([], false)
  | budget + 1, '\\' :: c :: rest =>
    if c == 'c' && zero then ([], true)
    else if zero && c == '0' then
      let (n, rest) := octal 3 0 rest
      let (more, stop) := unescape zero budget rest
      (Char.ofNat (n % 256) :: more, stop)
    else if !zero && '0' ≤ c && c ≤ '7' then
      let (n, rest) := octal 3 0 (c :: rest)
      let (more, stop) := unescape zero budget rest
      (Char.ofNat (n % 256) :: more, stop)
    else
      match escapeOf? c with
      | some d =>
        let (more, stop) := unescape zero budget rest
        (d :: more, stop)
      | none =>
        let (more, stop) := unescape zero budget rest
        ('\\' :: c :: more, stop)
  | budget + 1, c :: rest =>
    let (more, stop) := unescape zero budget rest
    (c :: more, stop)

def joinWords (ws : List Text) : Text := (ws.intersperse [' ']).flatten

/-- What is written for some words; `escapes` says whether escapes are carried out. -/
def echo (escapes : Bool) (args : List Text) : Text :=
  let (newline, args) := match args with
    | ['-', 'n'] :: rest => (false, rest)
    | _ => (true, args)
  let text := joinWords args
  let (text, stop) := if escapes then unescape true (text.length + 1) text else (text, false)
  text ++ if newline && !stop then ['\n'] else []

def pad (width : Nat) (left zero : Bool) (t : Text) : Text :=
  let fill := width - t.length
  if left then t ++ List.replicate fill ' '
  else if zero then
    match t with
    | '-' :: digits => '-' :: List.replicate fill '0' ++ digits
    | _ => List.replicate fill '0' ++ t
  else List.replicate fill ' ' ++ t

def numberOf (t : Text) : Int :=
  match t with
  | '\'' :: c :: _ => c.toNat
  | '"' :: c :: _ => c.toNat
  | _ => (Text.toInt? t).getD 0

def digitsOf (base : Nat) (upper : Bool) (n : Int) : Text :=
  let n := if n < 0 then (Nat.pow 2 64 - n.natAbs : Nat) else n.natAbs
  let t := Nat.toDigits base n
  if upper then t.map Char.toUpper else t

/-- What one pass over a format writes, with the words it takes and whether it ends all writing. -/
def formatOnce : Nat → Text → List Text → Text × List Text × Bool
  | 0, _, args => ([], args, true)
  | _ + 1, [], args => ([], args, false)
  | budget + 1, '%' :: '%' :: rest, args =>
    let (t, args, stop) := formatOnce budget rest args
    ('%' :: t, args, stop)
  | budget + 1, '%' :: rest, args =>
    let flags := rest.takeWhile fun c => "-+ #0".toList.contains c
    let rest := rest.drop flags.length
    let width := rest.takeWhile Char.isDigit
    let rest := rest.drop width.length
    let (places, rest) := match rest with
      | '.' :: more =>
        let digits := more.takeWhile Char.isDigit
        (some ((Text.toNat? digits).getD 0), more.drop digits.length)
      | _ => (none, rest)
    match rest with
    | [] => ([], args, true)
    | c :: rest =>
      let arg := args.head?.getD []
      let left := flags.contains '-'
      let fill (zero : Bool) := pad ((Text.toNat? width).getD 0) left (zero && flags.contains '0')
      let cut (t : Text) := match places with
        | some n => t.take n
        | none => t
      let signed (n : Int) :=
        if flags.contains '+' && 0 ≤ n then '+' :: Text.ofInt n else Text.ofInt n
      let (t, stop) : Text × Bool :=
        if c == 's' then (fill false (cut arg), false)
        else if c == 'b' then
          let (t, stop) := unescape true (arg.length + 1) arg
          (fill false (cut t), stop)
        else if c == 'c' then (fill false (arg.take 1), false)
        else if c == 'd' || c == 'i' then (fill true (signed (numberOf arg)), false)
        else if c == 'u' then (fill true (digitsOf 10 false (numberOf arg)), false)
        else if c == 'x' then (fill true (digitsOf 16 false (numberOf arg)), false)
        else if c == 'X' then (fill true (digitsOf 16 true (numberOf arg)), false)
        else if c == 'o' then (fill true (digitsOf 8 false (numberOf arg)), false)
        else ([], true)
      if stop then (t, args.drop 1, true)
      else
        let (more, args, stop) := formatOnce budget rest (args.drop 1)
        (t ++ more, args, stop)
  | budget + 1, '\\' :: c :: rest, args =>
    if '0' ≤ c && c ≤ '7' then
      let (n, rest) := octal 3 0 (c :: rest)
      let (t, args, stop) := formatOnce budget rest args
      (Char.ofNat (n % 256) :: t, args, stop)
    else
      let (t, args, stop) := formatOnce budget rest args
      (match escapeOf? c with
        | some d => d :: t
        | none => '\\' :: c :: t, args, stop)
  | budget + 1, c :: rest, args =>
    let (t, args, stop) := formatOnce budget rest args
    (c :: t, args, stop)

/-- What is written by a format, which is used again while there are words left. -/
def formatAll (format : Text) : Nat → List Text → Text
  | 0, _ => []
  | budget + 1, args =>
    let (t, left, stop) := formatOnce (format.length + 1) format args
    if stop || left.isEmpty || left.length == args.length then t
    else t ++ formatAll format budget left

def printf : List Text → Text
  | [] => []
  | format :: args => formatAll format (args.length + 1) args

end PatchTrial.Machine.Utility
