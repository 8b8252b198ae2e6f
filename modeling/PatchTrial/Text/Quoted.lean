import PatchTrial.Text.Property

/-!
Text in double quotes, the way messages show names and patterns. Quotes, backslashes and characters
that would not show are written as escapes; everything else stands for itself.
-/
namespace PatchTrial.Text

/-- The categories of characters that do not show. -/
def hiddenTags : List String := ["Cc", "Cf", "Cs", "Co", "Cn", "Zl", "Zp", "Zs"]

/-- Whether a character is shown as itself: not hidden, the plain space apart, and not one that
would join the character before it. -/
def isShown (c : Char) : Bool :=
  (c == ' ' || !hasCategory hiddenTags c.toNat) && !Property.graphemeExtend.holds c.toNat

/-- The written form of one character between quotes. -/
def escape (c : Char) : List Char :=
  if c = '"' then ['\\', '"']
  else if c = '\\' then ['\\', '\\']
  else if c = '\n' then ['\\', 'n']
  else if c = '\t' then ['\\', 't']
  else if c = '\r' then ['\\', 'r']
  else if c.toNat = 0 then ['\\', '0']
  else if isShown c then [c]
  else ['\\', 'u', '\x7b'] ++ Nat.toDigits 16 c.toNat ++ ['\x7d']

def quoted (s : String) : String :=
  String.ofList ('"' :: s.toList.flatMap escape ++ ['"'])

end PatchTrial.Text
