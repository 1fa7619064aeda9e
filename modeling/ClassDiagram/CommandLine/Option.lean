/-! The options of the program and the mistakes in giving them. -/

namespace ClassDiagram.CommandLine

inductive OptionKind where
  | flag
  /-- A value that names a file and is not empty. -/
  | path
  | text
  | choice (allowed : List String)
  /-- A request for the version, whatever else is given. -/
  | version
  | help
  deriving DecidableEq, Repr

def OptionKind.takesValue : OptionKind → Bool
  | path | text | choice _ => true
  | _ => false

def OptionKind.allows : OptionKind → String → Bool
  | path, value => value ≠ ""
  | choice allowed, value => value ∈ allowed
  | _, _ => true

structure OptionSpec where
  long : String
  short : Option Char
  kind : OptionKind
  deriving DecidableEq, Repr

inductive UsageError where
  | nothingGiven
  | commandMissing
  | unknownCommand (word : String)
  | unknownArgument (word : String)
  /-- A value that is missing or not allowed. -/
  | badValue (option : String)
  | unwantedValue (option : String)
  | repeated (option : String)
  deriving DecidableEq, Repr

def UsageError.message : UsageError → String
  | nothingGiven => "a command is needed"
  | commandMissing => "a command is needed behind the options"
  | unknownCommand word => "unknown command: " ++ word
  | unknownArgument word => "unknown argument: " ++ word
  | badValue option => "missing or bad value for --" ++ option
  | unwantedValue option => "--" ++ option ++ " takes no value"
  | repeated option => "--" ++ option ++ " is given twice"

def sharedOptions : List OptionSpec :=
  [⟨"verbose", some 'v', .flag⟩,
   ⟨"log-level", none, .choice ["trace", "debug", "info", "warn", "error"]⟩,
   ⟨"log-format", none, .choice ["compact", "pretty", "json"]⟩,
   ⟨"help", some 'h', .help⟩]

def mainOptions : List OptionSpec := ⟨"version", some 'V', .version⟩ :: sharedOptions

def inputOption : OptionSpec := ⟨"input", some 'i', .path⟩

def outputOption : OptionSpec := ⟨"output", some 'o', .path⟩

def compactOption : OptionSpec := ⟨"compact", none, .flag⟩

def commands : List (String × List OptionSpec) :=
  [("parse", [inputOption, outputOption, compactOption]),
   ("summary", [inputOption]),
   ("relations", [inputOption, ⟨"node", none, .text⟩]),
   ("layout",
    [inputOption, outputOption, ⟨"grid", none, .flag⟩, ⟨"snap", none, .flag⟩, compactOption]),
   ("schema", [inputOption, outputOption, ⟨"class", none, .text⟩, ⟨"heuristics", none, .path⟩,
     compactOption])]

def helpCommand : String := "help"

end ClassDiagram.CommandLine
