/-! What the program needs from the system around it. -/

namespace ClassDiagram.CommandLine

inductive Fault where
  | notFound
  | isDirectory
  | notDirectory
  | denied
  /-- The bytes are no UTF-8 text. -/
  | notText
  | other (reason : String)
  deriving DecidableEq, Repr

def Fault.message : Fault → String
  | notFound => "No such file or directory (os error 2)"
  | isDirectory => "Is a directory (os error 21)"
  | notDirectory => "Not a directory (os error 20)"
  | denied => "Permission denied (os error 13)"
  | notText => "stream did not contain valid UTF-8"
  | other reason => reason

def decode (bytes : ByteArray) : Except Fault String :=
  match String.fromUTF8? bytes with
  | some text => .ok text
  | none => .error .notText

structure Host (m : Type → Type) where
  readInput : m (Except Fault ByteArray)
  readFile : String → m (Except Fault ByteArray)
  writeFile : String → String → m (Except Fault Unit)
  print : String → m Unit
  complain : String → m Unit
  lookup : String → m (Option String)

end ClassDiagram.CommandLine
