import ClassDiagram.Text.Lower
/-!
Where the level and the format of log lines come from: what is asked for, then the environment, then
a default. Log lines themselves are not written.
-/

namespace ClassDiagram.CommandLine
open Text

inductive LogFormat where
  | compact
  | pretty
  | json
  deriving DecidableEq, Repr, Inhabited

namespace LogFormat

def all : List LogFormat := [compact, pretty, json]

def name : LogFormat → String
  | compact => "compact"
  | pretty => "pretty"
  | json => "json"

end LogFormat

structure UnknownFormat where
  name : String
  deriving DecidableEq, Repr

def UnknownFormat.message (e : UnknownFormat) : String := "Unknown log format: " ++ e.name

def LogFormat.ofName (name : String) : Except UnknownFormat LogFormat :=
  match LogFormat.all.find? fun f => f.name.toList = lower name.toList with
  | some f => .ok f
  | none => .error ⟨name⟩

structure LogVariables where
  level : Option String
  format : Option String
  /-- The variable that other programs share. -/
  sharedLevel : Option String
  deriving DecidableEq, Repr

def levelVariable : String := "UMLSCHEMA_LOG_LEVEL"

def formatVariable : String := "UMLSCHEMA_LOG_FORMAT"

def sharedLevelVariable : String := "RUST_LOG"

def LogVariables.resolveLevel (e : LogVariables) (asked : Option String) : String :=
  asked <|> e.level <|> e.sharedLevel |>.getD "info"

def LogVariables.resolveFormat (e : LogVariables) (asked : Option String) :
    Except UnknownFormat LogFormat :=
  match asked <|> e.format with
  | some name => LogFormat.ofName name
  | none => .ok .compact

end ClassDiagram.CommandLine
