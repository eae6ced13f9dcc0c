import EndpointAtlas.Numeric.Reading

/-!
# Command line arguments

`Invocation.ofArguments?` reads the arguments of the program: options of the program itself, the
name of a command, and the options and arguments of the command, which may be mixed. Options may
have their value attached, short ones may stand together behind one hyphen, and two hyphens end the
options.
-/

namespace EndpointAtlas

/-- What is asked of the program. -/
inductive Command where
  | endpoints (output : Option String)
  | calls
  | inline (name : String)
  | sample (name : String)
  deriving DecidableEq, Repr

/-- A call of the program. -/
structure Invocation where
  verbose : Bool
  command : Command
  source : String
  patterns : List String
  timeout : Binary64
  deriving DecidableEq, Repr

namespace Arguments

/-- An option by its names, the long one first, and whether it has a value. -/
structure Spec where
  names : List String
  hasValue : Bool

/-- The name under which an option is noted. -/
def Spec.name (s : Spec) : String := s.names.headD ""

/-- Options with their values as they were given, and the other arguments. -/
structure Given where
  options : List (String × String)
  others : List String

namespace Given

/-- One more option in front. -/
def withOption (g : Given) (s : Spec) (value : String) : Given :=
  { g with options := (s.name, value) :: g.options }

/-- One more argument in front. -/
def withOther (g : Given) (argument : String) : Given := { g with others := argument :: g.others }

/-- The values of an option, in order. -/
def values (g : Given) (name : String) : List String :=
  g.options.filterMap fun (n, v) => if n = name then some v else none

/-- The last value of an option. -/
def last? (g : Given) (name : String) : Option String := (g.values name).getLast?

end Given

/-- The option with a name. -/
def find? (specs : List Spec) (name : List Char) : Option Spec :=
  specs.find? fun s => s.names.any fun n => n.toList = name

/-- The short options of a group behind one hyphen, with the arguments behind the group. The first
that has a value takes the rest of the group for it, or else the next argument. -/
def shortGroup (specs : List Spec) :
    List Char → List String → Option (List (Spec × String) × List String)
  | [], arguments => some ([], arguments)
  | c :: rest, arguments => do
    let s ← find? specs ['-', c]
    if s.hasValue then
      if rest.isEmpty then
        match arguments with
        | value :: arguments => return ([(s, value)], arguments)
        | [] => none
      else return ([(s, String.ofList rest)], arguments)
    else
      let (options, arguments) ← shortGroup specs rest arguments
      return ((s, "") :: options, arguments)

/-- A long option, with the arguments behind it; the outer result is none for no such option. -/
def longOption (specs : List Spec) (argument : List Char) (arguments : List String) :
    Option (Option ((Spec × String) × List String)) := do
  let name := argument.takeWhile (· ≠ '=')
  let attached := argument.drop name.length
  let s ← find? (specs.map fun s => { s with names := s.names.filter (2 < ·.length) }) name
  if s.hasValue then
    match attached, arguments with
    | _ :: value, _ => return some ((s, String.ofList value), arguments)
    | [], value :: arguments => return some ((s, value), arguments)
    | [], [] => return none
  else return if attached.isEmpty then some ((s, ""), arguments) else none

/-- The options in front of a list of arguments, or among them if they may be mixed. -/
def read (specs : List Spec) (mixed : Bool) : Nat → List String → Option Given
  | 0, arguments => some ⟨[], arguments⟩
  | _, [] => some ⟨[], []⟩
  | room + 1, argument :: rest =>
    let cs := argument.toList
    if cs = ['-', '-'] then some ⟨[], rest⟩
    else if cs.head? = some '-' ∧ 1 < cs.length then
      match longOption specs cs rest with
      | some (some ((s, value), rest)) => (·.withOption s value) <$> read specs mixed room rest
      | some none => none
      | none =>
        if cs.take 2 = ['-', '-'] then none
        else do
          let (options, rest) ← shortGroup specs cs.tail rest
          let given ← read specs mixed room rest
          return options.foldr (fun (s, value) g => g.withOption s value) given
    else if mixed then (·.withOther argument) <$> read specs mixed room rest
    else some ⟨[], argument :: rest⟩

/-- The options of the program. -/
def programOptions : List Spec := [⟨["--verbose", "-v"], false⟩]

/-- The option for the time to wait. -/
def timeoutOption : Spec := ⟨["--timeout"], true⟩

/-- The option for a pattern of endpoints. -/
def onlyOption : Spec := ⟨["--only"], true⟩

/-- The option for a file to write to. -/
def outputOption : Spec := ⟨["--output", "-o"], true⟩

/-- The options of a command. -/
def commandOptions : String → Option (List Spec)
  | "endpoints" => some [outputOption, onlyOption, timeoutOption]
  | "calls" => some [onlyOption, timeoutOption]
  | "inline" => some [timeoutOption]
  | "example" => some [timeoutOption]
  | _ => none

/-- The variable of the environment that gives the time to wait. -/
def timeoutVariable : String := "API_PROBE_TIMEOUT"

/-- The time to wait when none is given. -/
def defaultTimeout : Binary64 := .ofInt 15

/-- The time to wait: that of the option, else that of the environment, else the usual one. -/
def timeout (given : Given) (environment : List (String × String)) : Option Binary64 :=
  match given.last? timeoutOption.name with
  | some s => Binary64.ofText? s.toList
  | none =>
    match (environment.lookup timeoutVariable).getD "" with
    | "" => some defaultTimeout
    | s => Binary64.ofText? s.toList

/-- The command of a name with the source that it works on. -/
def command (name : String) (given : Given) : Option (Command × String) :=
  match name, given.others with
  | "endpoints", [source] => some (.endpoints (given.last? outputOption.name), source)
  | "calls", [source] => some (.calls, source)
  | "inline", [source, component] => some (.inline component, source)
  | "example", [source, component] => some (.sample component, source)
  | _, _ => none

end Arguments

open Arguments

/-- The call that arguments describe in an environment; none if they describe none. -/
def Invocation.ofArguments? (arguments : List String) (environment : List (String × String)) :
    Option Invocation := do
  let program ← read programOptions false arguments.length arguments
  match program.others with
  | [] => none
  | name :: rest =>
    let given ← read (← commandOptions name) true rest.length rest
    let (command, source) ← Arguments.command name given
    let timeout ← Arguments.timeout given environment
    let verbose := (program.last? "--verbose").isSome
    return ⟨verbose, command, source, given.values onlyOption.name, timeout⟩

end EndpointAtlas
