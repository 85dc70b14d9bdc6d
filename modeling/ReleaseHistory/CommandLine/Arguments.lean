import ReleaseHistory.Scenario.GitFlow
import ReleaseHistory.Fault

/-!
# Arguments

A command line names a command and gives it options. An option has a value, in the same argument or
in the next one, or it is a switch; none is given twice. The configuration file can be chosen before
and after the name of the command.
-/

namespace ReleaseHistory.CommandLine

inductive Command
  /-- Print a definition. -/
  | definition (convention : Convention) (scenario : String) (tagPattern : Option String)
      (maskInitialRelease : Bool)
  /-- Build a repository. -/
  | build (convention : Convention) (target scenario : String) (cache : Option String)
  /-- Name what there is to choose from. -/
  | list

/-- What a command line asks for. -/
inductive Request
  | version
  | help
  | run (configuration : Option String) (c : Command)

/-! ### Options -/

structure OptionForm where
  name : String
  short : Option Char
  hasValue : Bool
  deriving DecidableEq, Repr

def configOption : OptionForm := ⟨"config", some 'c', true⟩

abbrev Given := List (String × String)

inductive Ending
  | atEnd
  /-- At an argument that is no option. -/
  | word (w : String) (rest : List String)
  | version
  | help

def give (given : Given) (name value : String) : Option Given :=
  if (given.lookup name).isSome then none else some (given ++ [(name, value)])

/-- Whether an argument can be the value of the option before it. -/
def isValue (arg : String) : Bool := arg = "-" || !arg.startsWith "-"

inductive Mention
  | version
  | help
  | option (o : OptionForm) (value : Option String)

/-- The option that a long form mentions; `body` is what follows the two hyphens. -/
def mentionLong (options : List OptionForm) (isTop : Bool) (body : String) : Option Mention :=
  match Text.splitOnce '=' body with
  | ("help", none) => some .help
  | (name, value) =>
    if name = "version" && isTop && value.isNone then some .version
    else (options.find? (·.name = name)).map fun o => .option o value

/-- The option that a short form mentions; what follows its letter is its value. -/
def mentionShort (options : List OptionForm) (isTop : Bool) : List Char → Option Mention
  | [] => none
  | 'h' :: _ => some .help
  | c :: rest =>
    if c = 'V' && isTop then some .version
    else
      (options.find? (·.short = some c)).map fun o =>
        let value := match rest with
          | [] => none
          | '=' :: value => some (String.ofList value)
          | value => some (String.ofList value)
        .option o value

def mention (options : List OptionForm) (isTop : Bool) (arg : String) : Option Mention :=
  match Text.dropStart? ['-', '-'] arg.toList with
  | some body => mentionLong options isTop (String.ofList body)
  | none => mentionShort options isTop (arg.toList.drop 1)

/-- Reads options up to the first argument that is none. After two hyphens nothing can follow. -/
def readOptions (options : List OptionForm) (isTop : Bool) :
    Given → List String → Option (Given × Ending)
  | given, [] => some (given, .atEnd)
  | given, arg :: rest =>
    if arg = "--" then if rest.isEmpty then some (given, .atEnd) else none
    else if isValue arg then some (given, .word arg rest)
    else
      match mention options isTop arg with
      | none => none
      | some .version => some (given, .version)
      | some .help => some (given, .help)
      | some (.option o value) =>
        match o.hasValue, value, rest with
        | false, none, rest => (give given o.name "").bind fun g => readOptions options isTop g rest
        | false, some _, _ => none
        | true, some v, rest => (give given o.name v).bind fun g => readOptions options isTop g rest
        | true, none, v :: rest =>
          if isValue v then (give given o.name v).bind fun g => readOptions options isTop g rest
          else none
        | true, none, [] => none
termination_by _ args => args.length

/-! ### Commands -/

def valued (name : String) : OptionForm := ⟨name, none, true⟩

/-- A path, which must not be empty. -/
def path? (s : String) : Option String := if s.isEmpty then none else some s

def optionsOf : String → Option (List OptionForm)
  | "definition" => some [configOption, valued "convention", valued "scenario",
      valued "tag-format", ⟨"mask-initial-release", none, false⟩]
  | "build" => some [configOption, valued "convention", valued "dest", valued "scenario",
      valued "cache-dir"]
  | "list" => some [configOption]
  | _ => none

def command (name : String) (given : Given) : Option Command := do
  let scenario := (given.lookup "scenario").getD Scenario.GitFlow.name
  match name with
  | "definition" =>
    return .definition (← Convention.parse? (← given.lookup "convention")) scenario
      (given.lookup "tag-format") (given.lookup "mask-initial-release").isSome
  | "build" =>
    let cache ← (given.lookup "cache-dir").mapM path?
    return .build (← Convention.parse? (← given.lookup "convention"))
      (← path? (← given.lookup "dest")) scenario cache
  | "list" => return .list
  | _ => none

/-- What a command line asks for; none if it asks for nothing that there is. -/
def parse (args : List String) : Option Request := do
  match ← readOptions [configOption] true [] args with
  | (_, .version) => return .version
  | (_, .help) => return .help
  | (_, .atEnd) => none
  | (above, .word name rest) =>
    if name = "help" then return .help
    match ← readOptions (← optionsOf name) false [] rest with
    | (given, .atEnd) =>
      let configuration := (given.lookup configOption.name).orElse fun _ =>
        above.lookup configOption.name
      return .run configuration (← command name given)
    | (_, .help) => return .help
    | _ => none

end ReleaseHistory.CommandLine
