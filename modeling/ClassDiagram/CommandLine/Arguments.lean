import ClassDiagram.CommandLine.Option
import ClassDiagram.Text.Search
/-!
Reading the arguments. An option whose value stands in the next argument is settled late, when the
next option comes or the arguments end, so a mistake that shows earlier goes before a bad value.
-/

namespace ClassDiagram.CommandLine
open Text

abbrev Given := List (String × String)

/-- The options read so far, and the last one if it is not settled: its value may yet be missing. -/
structure Reading where
  given : Given
  pending : Option (OptionSpec × Option String)
  deriving Repr

inductive Stop where
  | finished
  | command (name : String) (rest : List String)
  | version
  | help
  deriving Repr

namespace Reading

def empty : Reading := ⟨[], none⟩

def isGiven (r : Reading) (o : OptionSpec) : Bool := (r.given.lookup o.long).isSome

/-- Adds an option with its value, unless it is there or the value is bad. -/
def add (r : Reading) (o : OptionSpec) (value : String) : Except UsageError Reading :=
  if r.isGiven o then .error (.repeated o.long)
  else if o.kind.allows value then .ok { r with given := r.given ++ [(o.long, value)] }
  else .error (.badValue o.long)

def settle (r : Reading) : Except UsageError Reading :=
  match r.pending with
  | none => .ok r
  | some (o, none) => .error (.badValue o.long)
  | some (o, some value) => add { r with pending := none } o value

def awaits (r : Reading) : Option OptionSpec :=
  match r.pending with
  | some (o, none) => some o
  | _ => none

def meet (r : Reading) (o : OptionSpec) : Except UsageError (Reading × Option Stop) := do
  let r ← r.settle
  match o.kind with
  | .version => return (r, some .version)
  | .help => return (r, some .help)
  | .flag => return (← r.add o "", none)
  | _ => return ({ r with pending := some (o, none) }, none)

def meetWith (r : Reading) (o : OptionSpec) (value : String) : Except UsageError Reading := do
  let r ← r.settle
  r.add o value

def long (options : List OptionSpec) (r : Reading) (text : List Char) :
    Except UsageError (Reading × Option Stop) :=
  let (name, value) := match cut? ['='] text with
    | some (name, value) => (String.ofList name, some (String.ofList value))
    | none => (String.ofList text, none)
  match options.find? (·.long = name), value with
  | none, _ => .error (.unknownArgument name)
  | some o, none => r.meet o
  | some o, some value =>
    if o.kind.takesValue then (r.meetWith o value).map (·, none) else .error (.unwantedValue name)

/-- Short options behind one dash. The first that takes a value takes what is left as its value. -/
def short (options : List OptionSpec) (r : Reading) :
    List Char → Except UsageError (Reading × Option Stop)
  | [] => .ok (r, none)
  | c :: cs =>
    match options.find? (·.short = some c) with
    | none => .error (.unknownArgument (String.singleton c))
    | some o =>
      if o.kind.takesValue && cs ≠ [] then
        let value := match cs with
          | '=' :: value => value
          | value => value
        (r.meetWith o (String.ofList value)).map (·, none)
      else
        match r.meet o with
        | .ok (r, none) => short options r cs
        | ended => ended

end Reading

def misplaced (commandNames : List String) (afterDashes : Bool) (word : String) : UsageError :=
  if commandNames = [] then .unknownArgument word
  else if afterDashes && word ∈ commandNames then .unknownArgument word
  else .unknownCommand word

def readLevel (options : List OptionSpec) (commandNames : List String) :
    Reading → List String → Except UsageError (Reading × Stop)
  | r, [] => .ok (r, .finished)
  | r, word :: rest =>
    if r.awaits.isNone && word ∈ commandNames then .ok (r, .command word rest)
    else
      match word.toList, r.awaits with
      | ['-', '-'], _ =>
        match rest with
        | [] => .ok (r, .finished)
        | word :: _ => .error (misplaced commandNames true word)
      | '-' :: '-' :: text, _ =>
        match Reading.long options r text with
        | .error e => .error e
        | .ok (r, some stop) => .ok (r, stop)
        | .ok (r, none) => readLevel options commandNames r rest
      | '-' :: c :: text, _ =>
        match Reading.short options r (c :: text) with
        | .error e => .error e
        | .ok (r, some stop) => .ok (r, stop)
        | .ok (r, none) => readLevel options commandNames r rest
      | _, some o => readLevel options commandNames { r with pending := some (o, some word) } rest
      | _, none => .error (misplaced commandNames false word)

/-- What is to be done with a diagram. A path `-` stands for the standard input or output. -/
inductive Command where
  | parse (input output : Option String) (compact : Bool)
  | summary (input : Option String)
  | relations (input node : Option String)
  | layout (input output : Option String) (grid snap compact : Bool)
  | schema (input output className heuristics : Option String) (compact : Bool)
  deriving DecidableEq, Repr

structure Invocation where
  command : Command
  verbose : Bool
  logLevel : Option String
  logFormat : Option String
  deriving DecidableEq, Repr

inductive Request where
  | invoke (i : Invocation)
  | version
  | help
  deriving DecidableEq, Repr

def Command.ofGiven? (name : String) (g : Given) : Option Command :=
  let value (option : String) : Option String := g.lookup option
  let isSet (option : String) : Bool := (g.lookup option).isSome
  match name with
  | "parse" => some (.parse (value "input") (value "output") (isSet "compact"))
  | "summary" => some (.summary (value "input"))
  | "relations" => some (.relations (value "input") (value "node"))
  | "layout" =>
    some (.layout (value "input") (value "output") (isSet "grid") (isSet "snap") (isSet "compact"))
  | "schema" =>
    some (.schema (value "input") (value "output") (value "class") (value "heuristics")
      (isSet "compact"))
  | _ => none

def readHelp : List String → Except UsageError Request
  | [] => .ok .help
  | [word] =>
    if word = helpCommand || (commands.lookup word).isSome then .ok .help
    else .error (.unknownCommand word)
  | word :: next :: _ =>
    if word = helpCommand || (commands.lookup word).isSome then .error (.unknownCommand next)
    else .error (.unknownCommand word)

/-- Reads a command with the options in front of it, which are settled last. -/
def readCommand (before : Reading) (name : String) (rest : List String) :
    Except UsageError Request := do
  let own := (commands.lookup name).getD []
  let (r, stop) ← readLevel (own ++ sharedOptions) [] Reading.empty rest
  match stop with
  | .help => return .help
  | _ =>
    let r ← r.settle
    let before ← before.settle
    match Command.ofGiven? name r.given with
    | none => throw (.unknownCommand name)
    | some command =>
      return .invoke
        { command
          verbose := (r.given.lookup "verbose" <|> before.given.lookup "verbose").isSome
          logLevel := r.given.lookup "log-level" <|> before.given.lookup "log-level"
          logFormat := r.given.lookup "log-format" <|> before.given.lookup "log-format" }

def Request.ofArguments (args : List String) : Except UsageError Request := do
  let (r, stop) ← readLevel mainOptions (helpCommand :: commands.map Prod.fst) Reading.empty args
  match stop with
  | .version => return .version
  | .help => return .help
  | .command name rest => if name = helpCommand then readHelp rest else readCommand r name rest
  | .finished =>
    let r ← r.settle
    if r.given = [] then throw .nothingGiven else throw .commandMissing

end ClassDiagram.CommandLine
