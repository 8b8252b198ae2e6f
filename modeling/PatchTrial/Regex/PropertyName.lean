import PatchTrial.Regex.CharSet

/-!
The names by which a pattern asks for characters of a category, a script or a property. Names are
compared without regard to case, blanks, hyphens and underscores.

Not all names are known. A pattern that uses one of the following is refused, though engines take
it:
  * the age of a character (`\p{age=6.0}`) and the classes for breaks between graphemes, words and
    sentences (`\p{gcb=CR}`, `\p{wb=..}`, `\p{sb=..}`);
  * the properties that `ofProperty?` does not list, such as `Case_Ignorable`, `Changes_When_..`,
    `Default_Ignorable_Code_Point`, `Emoji_Presentation`, `Extender`, `Grapheme_Base`,
    `Noncharacter_Code_Point`, `Pattern_Syntax`, `Radical`, `Soft_Dotted` and
    `Terminal_Punctuation`.
Script extensions (`\p{scx=..}`) are read as scripts, so they lack the characters that several
scripts share.
-/
namespace PatchTrial.Regex.PropertyName

/-- Drops a leading "is", unless all that is left is the letter c. -/
def dropIs (name : List Char) : List Char :=
  match name with
  | 'i' :: 's' :: rest => if rest = ['c'] then name else rest
  | _ => name

/-- A name without what does not count: basic letters in lower case, digits and signs, less blanks,
hyphens and underscores. -/
def normal (name : String) : String :=
  String.ofList (dropIs ((name.toList.filter fun c =>
    c.toNat < 128 && c != ' ' && c != '_' && c != '-').map Char.toLower))

def categories? : String → Option (List String)
  | "c" | "other" => some ["Cc", "Cf", "Cn", "Co", "Cs"]
  | "cc" | "control" | "cntrl" => some ["Cc"]
  | "cf" | "format" => some ["Cf"]
  | "cn" | "unassigned" => some ["Cn"]
  | "co" | "privateuse" => some ["Co"]
  | "cs" | "surrogate" => some ["Cs"]
  | "l" | "letter" => some Text.letterTags
  | "lc" | "casedletter" => some ["Lu", "Ll", "Lt"]
  | "ll" | "lowercaseletter" => some ["Ll"]
  | "lm" | "modifierletter" => some ["Lm"]
  | "lo" | "otherletter" => some ["Lo"]
  | "lt" | "titlecaseletter" => some ["Lt"]
  | "lu" | "uppercaseletter" => some ["Lu"]
  | "m" | "mark" | "combiningmark" => some Text.markTags
  | "mc" | "spacingmark" => some ["Mc"]
  | "me" | "enclosingmark" => some ["Me"]
  | "mn" | "nonspacingmark" => some ["Mn"]
  | "n" | "number" => some ["Nd", "Nl", "No"]
  | "nd" | "decimalnumber" | "digit" => some ["Nd"]
  | "nl" | "letternumber" => some ["Nl"]
  | "no" | "othernumber" => some ["No"]
  | "p" | "punctuation" | "punct" => some ["Pc", "Pd", "Pe", "Pf", "Pi", "Po", "Ps"]
  | "pc" | "connectorpunctuation" => some ["Pc"]
  | "pd" | "dashpunctuation" => some ["Pd"]
  | "pe" | "closepunctuation" => some ["Pe"]
  | "pf" | "finalpunctuation" => some ["Pf"]
  | "pi" | "initialpunctuation" => some ["Pi"]
  | "po" | "otherpunctuation" => some ["Po"]
  | "ps" | "openpunctuation" => some ["Ps"]
  | "s" | "symbol" => some ["Sc", "Sk", "Sm", "So"]
  | "sc" | "currencysymbol" => some ["Sc"]
  | "sk" | "modifiersymbol" => some ["Sk"]
  | "sm" | "mathsymbol" => some ["Sm"]
  | "so" | "othersymbol" => some ["So"]
  | "z" | "separator" => some ["Zl", "Zp", "Zs"]
  | "zl" | "lineseparator" => some ["Zl"]
  | "zp" | "paragraphseparator" => some ["Zp"]
  | "zs" | "spaceseparator" => some ["Zs"]
  | _ => none

/-- The set of a general category, or of the three names that are used like one. -/
def ofCategory? (name : String) : Option CharSet :=
  match name with
  | "any" => some .all
  | "ascii" => some .basic
  | "assigned" => some (.complement (.category ["Cn"]))
  | _ => (categories? name).map .category

/-- The signs that are parts of identifiers until they are brought into a normal form. -/
def compatibleParts : CharSet :=
  .ofRanges ([(0x37A, 0x37A), (0x309B, 0x309C), (0xFC5E, 0xFC63), (0xFDFA, 0xFDFB)] ++
    [0xFE70, 0xFE72, 0xFE74, 0xFE76, 0xFE78, 0xFE7A, 0xFE7C, 0xFE7E].map fun n => (n, n))

/-- The signs that begin an identifier until they are brought into a normal form. -/
def compatibleStarts : CharSet :=
  .union compatibleParts (.ofRanges [(0xE33, 0xE33), (0xEB3, 0xEB3), (0xFF9E, 0xFF9F)])

def ofProperty? : String → Option CharSet
  | "alphabetic" | "alpha" => some (.property .alphabetic)
  | "lowercase" | "lower" => some (.property .lowercase)
  | "uppercase" | "upper" => some (.property .uppercase)
  | "whitespace" | "wspace" | "space" => some .blank
  | "cased" => some (.property .cased)
  | "graphemeextend" | "grext" => some (.property .graphemeExtend)
  | "xidstart" | "xids" => some (.property .identifierStart)
  | "xidcontinue" | "xidc" => some (.property .identifierPart)
  | "idstart" | "ids" => some (.union (.property .identifierStart) compatibleStarts)
  | "idcontinue" | "idc" => some (.union (.property .identifierPart) compatibleParts)
  | "math" => some (.property .math)
  | "dash" => some (.property .dash)
  | "emoji" => some (.property .emoji)
  | "ideographic" | "ideo" => some (.property .ideographic)
  | "extendedpictographic" | "extpict" => some (.property .pictographic)
  | "diacritic" | "dia" => some (.property .diacritic)
  | "asciihexdigit" | "ahex" => some (.ofRanges [(48, 57), (65, 70), (97, 102)])
  | "hexdigit" | "hex" =>
    some (.ofRanges [(48, 57), (65, 70), (97, 102), (0xFF10, 0xFF19), (0xFF21, 0xFF26),
      (0xFF41, 0xFF46)])
  | "joincontrol" | "joinc" => some (.range 0x200C 0x200D)
  | "bidicontrol" | "bidic" =>
    some (.ofRanges [(0x61C, 0x61C), (0x200E, 0x200F), (0x202A, 0x202E), (0x2066, 0x2069)])
  | "emojimodifier" | "emod" => some (.range 0x1F3FB 0x1F3FF)
  | "patternwhitespace" | "patws" =>
    some (.ofRanges [(9, 13), (32, 32), (0x85, 0x85), (0x200E, 0x200F), (0x2028, 0x2029)])
  | "quotationmark" | "qmark" =>
    some (.ofRanges [(0x22, 0x22), (0x27, 0x27), (0xAB, 0xAB), (0xBB, 0xBB), (0x2018, 0x201F),
      (0x2039, 0x203A), (0x2E42, 0x2E42), (0x300C, 0x300F), (0x301D, 0x301F), (0xFE41, 0xFE44),
      (0xFF02, 0xFF02), (0xFF07, 0xFF07), (0xFF62, 0xFF63)])
  | "regionalindicator" | "ri" => some (.range 0x1F1E6 0x1F1FF)
  | "variationselector" | "vs" =>
    some (.ofRanges [(0x180B, 0x180D), (0x180F, 0x180F), (0xFE00, 0xFE0F), (0xE0100, 0xE01EF)])
  | _ => none

def ofScript? (name : String) : Option CharSet :=
  (Text.scriptOfName? name).map .script

/-- The set a single name stands for: a property, a category or a script, in this order; three
short names are categories first. -/
def named? (name : String) : Option CharSet :=
  let n := normal name
  let byProperty := if n = "cf" || n = "sc" || n = "lc" then none else ofProperty? n
  byProperty <|> ofCategory? n <|> ofScript? n

def valued? (name value : String) : Option CharSet :=
  match normal name with
  | "gc" | "generalcategory" => ofCategory? (normal value)
  | "sc" | "script" | "scx" | "scriptextensions" => ofScript? (normal value)
  | _ => none

end PatchTrial.Regex.PropertyName
