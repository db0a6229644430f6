/-!
Lines of a text. A line ends with a line feed, and a carriage return right before the line feed
belongs to the ending and not to the line.
-/

set_option autoImplicit false
set_option relaxedAutoImplicit false

namespace SpriteBytecode

def dropReturn (line : List Char) : List Char :=
  if line.getLast? = some '\r' then line.dropLast else line

/-- The lines of a text behind which a line feed is still to come. -/
def linesOf (text : String) : List String :=
  (text.splitOn "\n").map fun line ↦ String.ofList (dropReturn line.toList)

theorem dropReturn_concat_return (line : List Char) : dropReturn (line ++ ['\r']) = line := by
  simp [dropReturn]

theorem dropReturn_of_getLast?_ne {line : List Char} (h : line.getLast? ≠ some '\r') :
    dropReturn line = line := if_neg h

end SpriteBytecode
