/-! Word characters: the ASCII letters and digits and the low line. -/

namespace ClassDiagram.Text

def isWordChar (c : Char) : Bool :=
  ('a' ≤ c && c ≤ 'z') || ('A' ≤ c && c ≤ 'Z') || ('0' ≤ c && c ≤ '9') || c = '_'

end ClassDiagram.Text
