/-!
Lines of a text. A line feed ends a line, with a carriage return just before it if there is one; a
text that ends in a line feed has no empty last line, and any other last piece counts as it is.
-/
namespace PatchTrial.Text

/-- The pieces between line feeds; the last piece is the one after the last line feed. -/
def pieces : List Char → List (List Char)
  | [] => [[]]
  | c :: rest =>
    if c = '\n' then [] :: pieces rest
    else match pieces rest with
      | [] => [[c]]
      | piece :: more => (c :: piece) :: more

def dropReturn (piece : List Char) : List Char :=
  if piece.getLast? = some '\r' then piece.dropLast else piece

/-- The lines of the pieces: every piece but the last was ended by a line feed. -/
def linesOfPieces : List (List Char) → List (List Char)
  | [] => []
  | [last] => if last.isEmpty then [] else [last]
  | piece :: more => dropReturn piece :: linesOfPieces more

def lines (text : String) : List String :=
  (linesOfPieces (pieces text.toList)).map String.ofList

end PatchTrial.Text
