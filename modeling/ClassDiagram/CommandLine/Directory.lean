import ClassDiagram.CommandLine.Host
/-!
A host that is a value: a directory of texts, the standard input and the environment, and what has
been written so far. The program runs on it as it runs on a system.
-/

namespace ClassDiagram.CommandLine

structure World where
  files : List (List String × String)
  input : ByteArray
  environment : List (String × String)
  output : String
  complaints : String

namespace World

/-- The parts of a path. Empty parts and single dots mean nothing; a slash in front is a part. -/
def parts (path : String) : List String :=
  (if path.toList.head? = some '/' then ["/"] else []) ++
    (path.splitOn "/").filter fun p => p ≠ "" && p ≠ "."

def endsAsDirectory (path : String) : Bool :=
  match (path.splitOn "/").getLast? with
  | some last => last = "" || last = "."
  | none => true

/-- Whether a path leads to the directory, to one around it, or to one that holds a file. -/
def isDirectory (w : World) (place : List String) : Bool :=
  (place.all fun p => p = ".." || p = "/") ||
    w.files.any fun f => place.isPrefixOf f.1 && f.1 ≠ place

def file? (w : World) (place : List String) : Option String := w.files.lookup place

def missing (w : World) (place : List String) : Fault :=
  if w.isDirectory place then .isDirectory
  else if w.files.any fun f => f.1.isPrefixOf place then .notDirectory
  else .notFound

def read (w : World) (path : String) : Except Fault ByteArray :=
  match w.file? (parts path) with
  | some text => if endsAsDirectory path then .error .notDirectory else .ok text.toUTF8
  | none => .error (w.missing (parts path))

def write (w : World) (path text : String) : Except Fault World :=
  let place := parts path
  if w.isDirectory place || !w.isDirectory place.dropLast then .error (w.missing place)
  else if endsAsDirectory path then .error .isDirectory
  else if (w.file? place).isSome then
    .ok { w with files := w.files.map fun f => if f.1 = place then (place, text) else f }
  else .ok { w with files := w.files ++ [(place, text)] }

def host : Host (StateM World) where
  readInput := return .ok (← get).input
  readFile path := return (← get).read path
  writeFile path text := do
    match (← get).write path text with
    | .ok w => set w; return .ok ()
    | .error e => return .error e
  print text := modify fun w => { w with output := w.output ++ text }
  complain text := modify fun w => { w with complaints := w.complaints ++ text }
  lookup name := return (← get).environment.lookup name

end World

end ClassDiagram.CommandLine
