import ClassDiagram.CommandLine.Arguments
import ClassDiagram.CommandLine.Host
import ClassDiagram.CommandLine.Logging
import ClassDiagram.CommandLine.Report
import ClassDiagram.Markup.Session
import ClassDiagram.Model.Listing
/-!
The program: it reads a diagram, does what the command asks for, and writes a text. The first
failure ends it with code 1, a mistake in the arguments with code 2.
-/

namespace ClassDiagram.CommandLine

def programName : String := "umlschema"

def version : String := "0.1.0"

variable {m : Type → Type} [Monad m]

def readText (host : Host m) (input : Option String) : m (Except String String) := do
  let fromInput : m (Except String String) := do
    return ((← host.readInput).bind decode).mapError Fault.message
  match input with
  | none => fromInput
  | some "-" => fromInput
  | some path =>
    return ((← host.readFile path).bind decode).mapError fun fault =>
      "Failed to read input file '" ++ path ++ "': " ++ fault.message

def loadModel (host : Host m) (verbose : Bool) (input : Option String) :
    m (Except String Model) := do
  match ← readText host input with
  | .error e => return .error e
  | .ok text =>
    let model := Markup.parse text
    if verbose then
      host.complain ("Read " ++ toString text.utf8ByteSize ++ " bytes of input\n")
      host.complain (model.summary ++ "\n")
    return .ok model

/-- The text as it is shown: with a line feed at its end, unless it is empty. -/
def withLineFeed (text : String) : String :=
  if text = "" || text.toList.getLast? = some '\n' then text else text ++ "\n"

/-- Writes a text to a path as it is, or shows it. -/
def writeText (host : Host m) (output : Option String) (text : String) :
    m (Except String Unit) := do
  let shown : m (Except String Unit) := do
    host.print (withLineFeed text)
    return .ok ()
  match output with
  | none => shown
  | some "-" => shown
  | some path =>
    return (← host.writeFile path text).mapError fun fault =>
      "Failed to write output file '" ++ path ++ "': " ++ fault.message

def loadHeuristics (host : Host m) (path : Option String) : m (Except String Heuristics) := do
  match path with
  | none => return .ok Heuristics.standard
  | some path =>
    let failed (reason : String) := "Failed to load heuristics '" ++ path ++ "': " ++ reason
    match (← host.readFile path).bind decode with
    | .error fault => return .error (failed ("IO error: " ++ fault.message))
    | .ok text => return (Heuristics.ofString? text).mapError fun e => failed e.message

def perform (host : Host m) (verbose : Bool) (command : Command) : m (Except String Unit) := do
  match command with
  | .parse input output compact =>
    match ← loadModel host verbose input with
    | .error e => return .error e
    | .ok model => writeText host output (jsonText compact model.toJson)
  | .summary input =>
    match ← loadModel host verbose input with
    | .error e => return .error e
    | .ok model => writeText host none model.overview
  | .relations input node =>
    match ← loadModel host verbose input with
    | .error e => return .error e
    | .ok model => writeText host none (model.relationListing node)
  | .layout input output grid snap compact =>
    match ← loadModel host verbose input with
    | .error e => return .error e
    | .ok model =>
      let config : Layout.Config Float := Layout.Config.standard
      let placed := positions config model grid snap
      writeText host output (jsonText compact (Layout.positionsToJson placed))
  | .schema input output className heuristics compact =>
    match ← loadModel host verbose input with
    | .error e => return .error e
    | .ok model =>
      match ← loadHeuristics host heuristics with
      | .error e => return .error e
      | .ok h =>
        match schemaText h model className compact with
        | .error e => return .error e.message
        | .ok text => writeText host output text

def checkLogging (host : Host m) (i : Invocation) : m Unit := do
  let logging : LogVariables :=
    { level := ← host.lookup levelVariable
      format := ← host.lookup formatVariable
      sharedLevel := ← host.lookup sharedLevelVariable }
  match logging.resolveFormat i.logFormat with
  | .ok _ => return ()
  | .error e =>
    host.complain
      ("Warning: Failed to initialize logging: Invalid log format: " ++ e.message ++ "\n")

def invoke (host : Host m) (i : Invocation) : m UInt32 := do
  checkLogging host i
  if i.verbose then host.complain (programName ++ " v" ++ version ++ "\n")
  match ← perform host i.verbose i.command with
  | .ok () => return 0
  | .error e =>
    host.complain ("Error: " ++ e ++ "\n")
    return 1

def usage : String :=
  "Usage: " ++ programName ++ " [options] <command> [options]\n\nCommands: " ++
    ", ".intercalate (commands.map Prod.fst) ++ "\n"

def fulfil (host : Host m) : Request → m UInt32
  | .version => do
    host.print (programName ++ " " ++ version ++ "\n")
    return 0
  | .help => do
    host.print usage
    return 0
  | .invoke i => invoke host i

def run (host : Host m) (args : List String) : m UInt32 := do
  match Request.ofArguments args with
  | .error e =>
    host.complain ("error: " ++ e.message ++ "\n\n" ++ usage)
    return 2
  | .ok request => fulfil host request

end ClassDiagram.CommandLine
