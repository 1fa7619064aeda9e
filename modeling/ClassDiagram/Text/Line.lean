/-!
The lines of a text. A line feed ends a line, and what follows the last one is a line if it is not
empty. A carriage return stays in its line: whoever reads lines here trims them.
-/

namespace ClassDiagram.Text

def lines : List Char → List (List Char)
  | [] => []
  | c :: cs =>
    if c = '\n' then [] :: lines cs
    else
      match lines cs with
      | [] => [[c]]
      | l :: ls => (c :: l) :: ls

end ClassDiagram.Text
