import ClassDiagram.CommandLine.Program
/-! The program on the system on which it is started. -/

namespace ClassDiagram.CommandLine

def Fault.ofError : IO.Error → Fault
  | .noFileOrDirectory _ _ _ => .notFound
  | .inappropriateType _ _ _ => .isDirectory
  | .permissionDenied _ _ _ => .denied
  | e => .other e.toString

/-- An action with its failure as a value. -/
def attempt {α : Type} (action : IO α) : IO (Except Fault α) := do
  match ← action.toBaseIO with
  | .ok a => return .ok a
  | .error e => return .error (Fault.ofError e)

partial def readAll (stream : IO.FS.Stream) (taken : ByteArray) : IO ByteArray := do
  let more ← stream.read 65536
  if more.isEmpty then return taken else readAll stream (taken ++ more)

def system : Host IO where
  readInput := do attempt (readAll (← IO.getStdin) ByteArray.empty)
  readFile path := attempt (IO.FS.readBinFile path)
  writeFile path text := attempt (IO.FS.writeFile path text)
  print text := do
    let stdout ← IO.getStdout
    stdout.putStr text
    stdout.flush
  complain text := IO.eprint text
  lookup name := IO.getEnv name

end ClassDiagram.CommandLine

def main (args : List String) : IO UInt32 :=
  ClassDiagram.CommandLine.run ClassDiagram.CommandLine.system args
