/-!
White space in the sense of the Unicode property of that name, and what is built on it: trimming
and cutting into words.
-/
namespace PatchTrial.Text

/-- The characters with the property White_Space. -/
def isBlank (c : Char) : Bool :=
  let n := c.toNat
  (9 ≤ n && n ≤ 13) || n == 0x20 || n == 0x85 || n == 0xA0 || n == 0x1680 ||
    (0x2000 ≤ n && n ≤ 0x200A) || n == 0x2028 || n == 0x2029 || n == 0x202F || n == 0x205F ||
    n == 0x3000

/-- Whether nothing but white space is in the text. -/
def isAllBlank (s : String) : Bool :=
  s.toList.all isBlank

/-- The words of a text: its longest pieces without white space. -/
def blankWords : List Char → List (List Char)
  | [] => []
  | c :: rest =>
    if isBlank c then blankWords rest
    else match rest, blankWords rest with
      | d :: _, word :: more => if isBlank d then [c] :: word :: more else (c :: word) :: more
      | _, more => [c] :: more

end PatchTrial.Text
