import PatchTrial.Machine.Shell.Syntax

/-!
Reading commands. A program is read command by command; what was read before a mistake is still
carried out, so a program is a list of commands and the mistake after them if there is one.
-/
namespace PatchTrial.Machine.Shell

/-- A mistake in a program: its line and what is wrong. -/
structure Mistake where
  line : Nat
  words : Text
  deriving DecidableEq, Repr

/-- What is still to be read, and the number of its line. -/
structure Source where
  rest : Text
  line : Nat := 1

/-- A reader of part of a program. -/
abbrev Parse := StateT Source (Except Mistake)

namespace Parse

def peek : Parse (Option Char) := do return (← get).rest.head?

def startsWith (t : String) : Parse Bool := do return t.toList.isPrefixOf (← get).rest

/-- Goes past so many characters and counts the lines they end. -/
def advance (n : Nat) : Parse Unit := modify fun s =>
  { rest := s.rest.drop n, line := s.line + ((s.rest.take n).filter (· == '\n')).length }

def fail {α : Type} (words : String) : Parse α := do
  throw ⟨(← get).line, words.toList⟩

def nameOf (rest : Text) : String :=
  match rest with
  | [] => "end of file"
  | '\n' :: _ => "newline"
  | ';' :: ';' :: _ => "\";;\""
  | '&' :: '&' :: _ => "\"&&\""
  | '|' :: '|' :: _ => "\"||\""
  | c :: _ =>
    if endsWord c then "\"" ++ c.toString ++ "\""
    else
      let word := String.ofList (rest.takeWhile fun c => !endsWord c)
      if ["then", "do", "done", "fi", "else", "elif", "esac", "\x7d"].contains word then
        "\"" ++ word ++ "\""
      else "word unexpected"

def unexpected {α : Type} (expected : Option String) : Parse α := do
  let name := nameOf (← get).rest
  let name := if name == "word unexpected" then "word" else name
  if (← peek) == some '\n' then advance 1
  fail ("Syntax error: " ++ name ++ " unexpected" ++
    match expected with
    | some e => " (expecting \"" ++ e ++ "\")"
    | none => "")

/-- Skips blanks, lines that are continued, and comments. -/
def blanks : Nat → Parse Unit
  | 0 => return ()
  | budget + 1 => do
    match (← get).rest with
    | ' ' :: _ => advance 1; blanks budget
    | '\t' :: _ => advance 1; blanks budget
    | '\\' :: '\n' :: _ => advance 2; blanks budget
    | '#' :: rest => advance (1 + (rest.takeWhile (· != '\n')).length)
    | _ => return ()

def space : Nat → Parse Unit
  | 0 => return ()
  | budget + 1 => do
    blanks budget
    match (← get).rest with
    | '\n' :: _ => advance 1; space budget
    | _ => return ()

def singleQuoted : Parse Text := do
  let body := (← get).rest.takeWhile (· != '\'')
  advance body.length
  match ← peek with
  | none => fail "Syntax error: Unterminated quoted string"
  | some _ => advance 1; return body

def isSpecial (c : Char) : Bool := "@*#?-$!0123456789".toList.contains c

/-- The word that is next if it could be a reserved one. -/
def bareWord : Parse Text := do
  let word := (← get).rest.takeWhile fun c => !endsWord c
  return if word.any fun c => "'\"\\$\x60".toList.contains c then [] else word

def closers : List String := ["then", "else", "elif", "fi", "do", "done", "esac", "\x7d"]

def isNext (word : String) : Parse Bool := do return (← bareWord) == word.toList

def expect (budget : Nat) (word : String) : Parse Unit := do
  space budget
  if ← isNext word then advance word.length else unexpected (some word)

/-- Joins a plain character to the parts of a word. -/
def consPlain (c : Char) : Word → Word
  | .plain t :: rest => .plain (c :: t) :: rest
  | parts => .plain [c] :: parts

/-- Joins a quoted character to the parts of a word. -/
def consQuoted (c : Char) : Word → Word
  | .quoted t :: rest => .quoted (c :: t) :: rest
  | parts => .quoted [c] :: parts

/-- What an old form of a nested command holds up to its end, with one level of backslashes taken
away. -/
def backquoted : Nat → Parse Text
  | 0 => return []
  | budget + 1 => do
    match (← get).rest with
    | [] => fail "Syntax error: EOF in backquote substitution"
    | '\x60' :: _ => advance 1; return []
    | '\\' :: c :: _ =>
      advance 2
      let more ← backquoted budget
      return if c == '\x60' || c == '\\' || c == '$' then c :: more else '\\' :: c :: more
    | c :: _ => advance 1; return c :: (← backquoted budget)

/-- The number of a file in front of a redirection, if the word that is next is one. -/
def fileNumber? (t : Text) : Option (Nat × Text) :=
  let digits := t.takeWhile Char.isDigit
  match t.drop digits.length with
  | c :: rest =>
    if !digits.isEmpty && (c == '<' || c == '>') then
      (Text.toNat? digits).map fun n => (n, c :: rest)
    else none
  | [] => none

/-- The lines of a text in the program up to a line, and what follows it. -/
def hereLines (finish : Text) (strip : Bool) : List Text → List Text × List Text
  | [] => ([], [])
  | l :: rest =>
    let l' := if strip then l.dropWhile (· == '\t') else l
    if l' == finish then ([], rest)
    else
      let (body, after) := hereLines finish strip rest
      (l' :: body, after)

def joinLines (ls : List Text) : Text := (ls.map fun l => l ++ ['\n']).flatten

def unquoted (t : Text) : Text := t.filter fun c => !"'\"\\".toList.contains c

mutual

/-- The parts of a word up to its end; `inQuotes` within double quotes, and `close` a character that
ends it otherwise. -/
def parts : Nat → Bool → Option Char → Parse Word
  | 0, _, _ => return []
  | budget + 1, inQuotes, close => do
    match (← get).rest with
    | [] =>
      if inQuotes then fail "Syntax error: Unterminated quoted string"
      else if close.isSome then fail "Syntax error: Missing '\x7d'"
      else return []
    | c :: rest =>
      if some c == close && !inQuotes then return []
      else if c == '"' then
        advance 1
        if inQuotes then return []
        else
          let inner ← parts budget true none
          let more ← parts budget inQuotes close
          return .quoted [] :: inner ++ more
      else if c == '\'' && !inQuotes then
        advance 1
        let body ← singleQuoted
        return .quoted body :: (← parts budget inQuotes close)
      else if c == '\\' then
        match rest with
        | '\n' :: _ => advance 2; parts budget inQuotes close
        | [] => advance 1; return [.plain ['\\']]
        | d :: _ =>
          if inQuotes && !"$\x60\"\\".toList.contains d && some d != close then
            advance 1
            return consQuoted '\\' (← parts budget inQuotes close)
          else
            advance 2
            return .quoted [d] :: (← parts budget inQuotes close)
      else if c == '$' then
        advance 1
        let part ← dollar budget inQuotes
        return part :: (← parts budget inQuotes close)
      else if c == '\x60' then
        advance 1
        -- the quotes take one level of backslashes away, so what they hold is read on its own
        let line := (← get).line
        let body ← backquoted budget
        let after ← get
        set ({ rest := body, line } : Source)
        let c ← lists budget
        set after
        return .output c inQuotes :: (← parts budget inQuotes close)
      else if !inQuotes && close.isNone && endsWord c then return []
      else
        advance 1
        let more ← parts budget inQuotes close
        return if inQuotes then consQuoted c more else consPlain c more

def dollar : Nat → Bool → Parse Part
  | 0, _ => return .plain ['$']
  | budget + 1, inQuotes => do
    match (← get).rest with
    | '(' :: '(' :: _ =>
      let start ← get
      advance 2
      let body ← sumText budget 0
      match body with
      | some body =>
        let after ← get
        set ({ rest := body, line := start.line } : Source)
        let e ← parts budget true none <|> pure [.quoted body]
        set after
        return .sum e inQuotes
      -- no sum after all: a subshell at the start of a substitution
      | none =>
        set start
        advance 1
        let c ← lists budget
        closeBracket budget
        return .output c inQuotes
    | '(' :: _ =>
      advance 1
      let c ← lists budget
      closeBracket budget
      return .output c inQuotes
    | '\x7b' :: _ =>
      advance 1
      braced budget inQuotes
    | c :: rest =>
      if isSpecial c then
        advance 1
        return .parameter [c] .value [] inQuotes
      else if isNameStart c then
        let name := c :: rest.takeWhile isNamePart
        advance name.length
        return .parameter name .value [] inQuotes
      else return if inQuotes then .quoted ['$'] else .plain ['$']
    | [] => return if inQuotes then .quoted ['$'] else .plain ['$']

def closeBracket : Nat → Parse Unit
  | budget => do
    space budget
    match ← peek with
    | some ')' => advance 1
    | _ => unexpected (some ")")

/-- The text of a sum up to two closing brackets, if there are two. -/
def sumText : Nat → Nat → Parse (Option Text)
  | 0, _ => return none
  | budget + 1, depth => do
    match (← get).rest with
    | [] => return none
    | '(' :: _ =>
      advance 1
      return (← sumText budget (depth + 1)).map ('(' :: ·)
    | ')' :: rest =>
      match depth, rest with
      | 0, ')' :: _ => advance 2; return some []
      | 0, _ => return none
      | depth + 1, _ =>
        advance 1
        return (← sumText budget depth).map (')' :: ·)
    | c :: _ =>
      advance 1
      return (← sumText budget depth).map (c :: ·)

def braced : Nat → Bool → Parse Part
  | 0, _ => return .plain []
  | budget + 1, inQuotes => do
    let s ← get
    -- a number sign asks for the length, unless it is the name itself
    let (isLength, rest) := match s.rest with
      | '#' :: '\x7d' :: _ => (false, s.rest)
      | '#' :: c :: more =>
        if isNameStart c || isSpecial c then (true, c :: more) else (false, s.rest)
      | _ => (false, s.rest)
    if isLength then advance 1
    let name ← match rest with
      | c :: more =>
        if isNameStart c then pure (c :: more.takeWhile isNamePart)
        else if c.isDigit then pure (c :: more.takeWhile Char.isDigit)
        else if isSpecial c then pure [c]
        else fail "Bad substitution"
      | [] => fail "Syntax error: Missing '\x7d'"
    advance name.length
    let word (n : Nat) : Parse Word := do
      advance n
      parts budget false (some '\x7d')
    let use : Use × Word ← match (← get).rest with
      | '\x7d' :: _ => pure (if isLength then Use.length else Use.value, [])
      | ':' :: '-' :: _ => do pure (Use.orElse true, ← word 2)
      | '-' :: _ => do pure (Use.orElse false, ← word 1)
      | ':' :: '=' :: _ => do pure (Use.orAssign true, ← word 2)
      | '=' :: _ => do pure (Use.orAssign false, ← word 1)
      | ':' :: '?' :: _ => do pure (Use.orFail true, ← word 2)
      | '?' :: _ => do pure (Use.orFail false, ← word 1)
      | ':' :: '+' :: _ => do pure (Use.ifSet true, ← word 2)
      | '+' :: _ => do pure (Use.ifSet false, ← word 1)
      | '#' :: '#' :: _ => do pure (Use.trimStart true, ← word 2)
      | '#' :: _ => do pure (Use.trimStart false, ← word 1)
      | '%' :: '%' :: _ => do pure (Use.trimFinish true, ← word 2)
      | '%' :: _ => do pure (Use.trimFinish false, ← word 1)
      | [] => fail "Syntax error: Missing '\x7d'"
      | '\n' :: _ => fail "Syntax error: Missing '\x7d'"
      | _ => fail "Bad substitution"
    match ← peek with
    | some '\x7d' => advance 1
    | _ => fail "Syntax error: Missing '\x7d'"
    return .parameter name use.1 use.2 inQuotes

def word : Nat → Parse Word
  | 0 => return []
  | budget + 1 => parts budget false none

def redirection? : Nat → Parse (Option Redirection)
  | 0 => return none
  | budget + 1 => do
    let s ← get
    let number := fileNumber? s.rest
    match number with
    | some (_, rest) => advance (s.rest.length - rest.length)
    | none => pure ()
    let file (n : Nat) : Nat := (number.map Prod.fst).getD n
    let target (n : Nat) : Parse Word := do
      advance n
      blanks budget
      match ← peek with
      | some c => if endsWord c then unexpected none else word budget
      | none => unexpected none
    match (← get).rest with
    | '<' :: '<' :: more => do
      let strip := more.head? == some '-'
      advance (if strip then 3 else 2)
      blanks budget
      let raw := (← get).rest.takeWhile fun c => !endsWord c
      advance raw.length
      let now ← get
      let before := now.rest.takeWhile (· != '\n')
      let after := now.rest.drop (before.length + 1)
      let (body, left) := hereLines (unquoted raw) strip (Text.splitOn (· == '\n') after)
      let text := joinLines body
      set ({ now with rest := before ++ '\n' :: (List.intersperse ['\n'] left).flatten } : Source)
      if unquoted raw == raw then
        let after ← get
        set ({ rest := text ++ ['"'], line := now.line } : Source)
        let parsed ← parts budget true none
        set after
        return some (.mk (file 0) .here parsed)
      else return some (.mk (file 0) .here [.quoted text])
    | '<' :: '&' :: _ => return some (.mk (file 0) .same (← target 2))
    | '<' :: '>' :: _ => return some (.mk (file 0) .inout (← target 2))
    | '<' :: _ => return some (.mk (file 0) .input (← target 1))
    | '>' :: '>' :: _ => return some (.mk (file 1) .append (← target 2))
    | '>' :: '&' :: _ => return some (.mk (file 1) .same (← target 2))
    | '>' :: '|' :: _ => return some (.mk (file 1) .output (← target 2))
    | '>' :: _ => return some (.mk (file 1) .output (← target 1))
    | _ => return none

def redirections : Nat → Parse (List Redirection)
  | 0 => return []
  | budget + 1 => do
    blanks budget
    match ← redirection? budget with
    | some r => return r :: (← redirections budget)
    | none => return []

def simple : Nat → Nat → List (Text × Word) → List Word → List Redirection → Parse Command
  | 0, line, a, w, r => return .simple line a.reverse w.reverse r.reverse
  | budget + 1, line, a, w, r => do
    blanks budget
    match ← redirection? budget with
    | some x => simple budget line a w (x :: r)
    | none =>
      match ← peek with
      | none => return .simple line a.reverse w.reverse r.reverse
      | some c =>
        -- one bare word and a bracket begin a function
        if c == '(' && w.length == 1 && a.isEmpty && r.isEmpty then
          match w with
          | [[.plain name]] =>
            if isName name then
              advance 1
              closeBracket budget
              space budget
              return .define name (← command budget)
            else unexpected none
          | _ => unexpected none
        else if endsWord c then
          if c == '(' then unexpected none
          else return .simple line a.reverse w.reverse r.reverse
        else
          let x ← word budget
          match x with
          | .plain t :: more =>
            let name := t.takeWhile (· != '=')
            -- assignments end where the first word of the command is
            if w.isEmpty && isName name && name.length < t.length then
              let value := t.drop (name.length + 1)
              let value := if value.isEmpty then more else .plain value :: more
              simple budget line ((name, value) :: a) w r
            else simple budget line a (x :: w) r
          | _ => simple budget line a (x :: w) r

def command : Nat → Parse Command
  | 0 => return .nothing
  | budget + 1 => do
    blanks budget
    let line := (← get).line
    let body ← match ← peek with
      | none => unexpected none
      | some '(' =>
        advance 1
        let c ← lists budget
        closeBracket budget
        pure (some (Command.subshell c))
      | some c =>
        if endsWord c && c != '<' && c != '>' then unexpected none
        else
          let w := String.ofList (← bareWord)
          if w == "if" then
            advance 2
            pure (some (← conditional budget))
          else if w == "while" || w == "until" then
            advance 5
            let test ← lists budget
            expect budget "do"
            let body ← lists budget
            expect budget "done"
            pure (some (.loop test body (w == "until")))
          else if w == "for" then
            advance 3
            pure (some (← loopOver budget))
          else if w == "case" then
            advance 4
            blanks budget
            let subject ← word budget
            expect budget "in"
            let arms ← arms budget
            pure (some (.choose subject arms))
          else if w == "\x7b" then
            advance 1
            let c ← lists budget
            expect budget "\x7d"
            pure (some c)
          else if closers.contains w then unexpected none
          else pure none
    match body with
    | none => simple budget (← get).line [] [] []
    | some c =>
      match ← redirections budget with
      | [] => return c
      | r => return .redirected line c r

/-- What follows the word that begins a conditional. -/
def conditional : Nat → Parse Command
  | 0 => return .nothing
  | budget + 1 => do
    let test ← lists budget
    expect budget "then"
    let yes ← lists budget
    space budget
    if ← isNext "elif" then
      advance 4
      return .cond test yes (← conditional budget)
    else if ← isNext "else" then
      advance 4
      let no ← lists budget
      expect budget "fi"
      return .cond test yes no
    else
      expect budget "fi"
      return .cond test yes .nothing

/-- What follows the word that begins a loop over words. -/
def loopOver : Nat → Parse Command
  | 0 => return .nothing
  | budget + 1 => do
    blanks budget
    let name ← bareWord
    if !isName name then fail "Syntax error: Bad for loop variable"
    advance name.length
    space budget
    let words ← if ← isNext "in" then do
        advance 2
        pure (some (← wordList budget))
      else pure none
    blanks budget
    if (← peek) == some ';' then advance 1
    expect budget "do"
    let body ← lists budget
    expect budget "done"
    return .each name words body

def wordList : Nat → Parse (List Word)
  | 0 => return []
  | budget + 1 => do
    blanks budget
    match ← peek with
    | none => return []
    | some c =>
      if endsWord c then return []
      else
        let w ← word budget
        return w :: (← wordList budget)

def arms : Nat → Parse (List (List Word × Command))
  | 0 => return []
  | budget + 1 => do
    space budget
    if ← isNext "esac" then
      advance 4
      return []
    if (← peek) == some '(' then advance 1
    let patterns ← patterns budget
    let body ← lists budget
    space budget
    if ← startsWith ";;" then
      advance 2
      return (patterns, body) :: (← arms budget)
    else
      expect budget "esac"
      return [(patterns, body)]

def patterns : Nat → Parse (List Word)
  | 0 => return []
  | budget + 1 => do
    blanks budget
    let w ← word budget
    if w.isEmpty then unexpected (if (← peek).isNone then some ")" else none)
    blanks budget
    match ← peek with
    | some '|' => advance 1; return w :: (← patterns budget)
    | some ')' => advance 1; return [w]
    | _ => unexpected (some ")")

def pipeline : Nat → Parse Command
  | 0 => return .nothing
  | budget + 1 => do
    blanks budget
    if ← isNext "!" then
      advance 1
      return .not (← pipeline budget)
    let first ← command budget
    match ← piped budget with
    | [] => return first
    | more => return .pipeline (first :: more)

def piped : Nat → Parse (List Command)
  | 0 => return []
  | budget + 1 => do
    blanks budget
    if (← startsWith "|") && !(← startsWith "||") then
      advance 1
      space budget
      let c ← command budget
      return c :: (← piped budget)
    else return []

def andOr : Nat → Parse Command
  | 0 => return .nothing
  | budget + 1 => do
    let first ← pipeline budget
    joined budget first

def joined : Nat → Command → Parse Command
  | 0, c => return c
  | budget + 1, c => do
    blanks budget
    if ← startsWith "&&" then
      advance 2
      space budget
      joined budget (.both c (← pipeline budget))
    else if ← startsWith "||" then
      advance 2
      space budget
      joined budget (.either c (← pipeline budget))
    else return c

def lists : Nat → Parse Command
  | 0 => return .nothing
  | budget + 1 => do
    space budget
    match ← peek with
    | none => return .nothing
    | some ')' => return .nothing
    | some _ =>
      if (← startsWith ";;") || closers.contains (String.ofList (← bareWord)) then return .nothing
      let c ← andOr budget
      blanks budget
      match (← get).rest with
      | '&' :: _ =>
        advance 1
        return .seq (.background c) (← lists budget)
      | ';' :: ';' :: _ => return c
      | ';' :: _ =>
        advance 1
        return .seq c (← lists budget)
      | '\n' :: _ =>
        advance 1
        return .seq c (← lists budget)
      | _ => return c

end

/-- The commands of one line, which may go over more lines if the last of them does. -/
def lineOf : Nat → Parse Command
  | 0 => return .nothing
  | budget + 1 => do
    let c ← andOr budget
    blanks budget
    match (← get).rest with
    | [] => return c
    | '\n' :: _ => advance 1; return c
    | '&' :: _ =>
      advance 1
      blanks budget
      match (← get).rest with
      | [] => return .background c
      | '\n' :: _ => advance 1; return .background c
      | _ => return .seq (.background c) (← lineOf budget)
    | ';' :: ';' :: _ => unexpected none
    | ';' :: _ =>
      advance 1
      blanks budget
      match (← get).rest with
      | [] => return c
      | '\n' :: _ => advance 1; return c
      | _ => return .seq c (← lineOf budget)
    | _ => unexpected none

end Parse

/-- The commands of a program line by line, and the mistake after them if there is one. -/
def programFrom : Nat → Source → List Command × Option Mistake
  | 0, _ => ([], none)
  | budget + 1, s =>
    let fuel := 10 * s.rest.length + 50
    match (Parse.space fuel).run s with
    | .error m => ([], some m)
    | .ok (_, s) =>
      if s.rest.isEmpty then ([], none)
      else
        match (Parse.lineOf fuel).run s with
        | .error m => ([], some m)
        | .ok (c, s) =>
          let (more, m) := programFrom budget s
          (c :: more, m)

def program (t : Text) : List Command × Option Mistake := programFrom (t.length + 1) { rest := t }

end PatchTrial.Machine.Shell
