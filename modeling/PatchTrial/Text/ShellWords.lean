/-!
Command lines as text. `join` writes words so that a shell reads them back, and `split` reads a line
the way a shell cuts it into words: blanks separate, quotes and backslashes hold together, and a
number sign where a word could start begins a comment.
-/
namespace PatchTrial.ShellWords

/-- Characters that make a word need quotes. -/
def isSpecial (c : Char) : Bool :=
  "|&;<>()$\x60\\\"' \t\n*?[#˜=%".toList.contains c

/-- A single quote is written by leaving the quotes for a moment; all else stands for itself. -/
def escapeQuote (c : Char) : List Char :=
  if c = '\'' then ['\'', '\\', '\'', '\''] else [c]

def quote (word : List Char) : List Char :=
  if word.isEmpty || word.any isSpecial then '\'' :: word.flatMap escapeQuote ++ ['\'']
  else word

def join (words : List String) : String :=
  " ".intercalate (words.map fun word => String.ofList (quote word.toList))

/-- Where the reader of a line stands. The characters of an unfinished word are kept last first. -/
inductive State
  /-- Between words. -/
  | between
  /-- In a comment. -/
  | comment
  /-- After a backslash where a word could start. -/
  | escaped
  /-- In a word, outside quotes. -/
  | bare (word : List Char)
  /-- After a backslash in a word. -/
  | bareEscaped (word : List Char)
  /-- Between single quotes. -/
  | single (word : List Char)
  /-- Between double quotes. -/
  | double (word : List Char)
  /-- After a backslash between double quotes. -/
  | doubleEscaped (word : List Char)

/-- Whether a character separates words. -/
def isSeparator (c : Char) : Bool := c == ' ' || c == '\t' || c == '\n'

/-- Reads one character: the next state, and the word it ended, if it ended one. -/
def step : State → Char → State × Option (List Char)
  | .between, c =>
    if c = '\'' then (.single [], none)
    else if c = '"' then (.double [], none)
    else if c = '\\' then (.escaped, none)
    else if isSeparator c then (.between, none)
    -- a number sign begins a comment only where a word could begin
    else if c = '#' then (.comment, none)
    else (.bare [c], none)
  | .comment, c => (if c = '\n' then .between else .comment, none)
  | .escaped, c => (if c = '\n' then .between else .bare [c], none)
  | .bare word, c =>
    if c = '\'' then (.single word, none)
    else if c = '"' then (.double word, none)
    else if c = '\\' then (.bareEscaped word, none)
    else if isSeparator c then (.between, some word.reverse)
    else (.bare (c :: word), none)
  | .bareEscaped word, c => (.bare (if c = '\n' then word else c :: word), none)
  | .single word, c => (if c = '\'' then .bare word else .single (c :: word), none)
  | .double word, c =>
    if c = '"' then (.bare word, none)
    else if c = '\\' then (.doubleEscaped word, none)
    else (.double (c :: word), none)
  | .doubleEscaped word, c =>
    if c = '\n' then (.double word, none)
    else if c = '$' || c = '\x60' || c = '"' || c = '\\' then (.double (c :: word), none)
    -- before any other character the backslash stands for itself
    else (.double (c :: '\\' :: word), none)

/-- The last word at the end of a line; `none` when a quote is still open. -/
def finish? : State → Option (List (List Char))
  | .between => some []
  | .comment => some []
  | .escaped => some [['\\']]
  | .bare word => some [word.reverse]
  | .bareEscaped word => some [('\\' :: word).reverse]
  | .single _ => none
  | .double _ => none
  | .doubleEscaped _ => none

/-- The words from a state on; `none` when a quote is never closed. -/
def splitFrom? : State → List Char → Option (List (List Char))
  | state, [] => finish? state
  | state, c :: rest =>
    match step state c with
    | (next, none) => splitFrom? next rest
    | (next, some word) => (splitFrom? next rest).map (word :: ·)

/-- The words of a line; `none` when a quote is never closed. -/
def split? (line : String) : Option (List String) :=
  (splitFrom? .between line.toList).map (·.map String.ofList)

end PatchTrial.ShellWords
