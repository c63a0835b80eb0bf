import Graft.Command.Run

/-!
# Command line arguments

The grammar of the command line: a command with its options, and the format option before or after
the command's name. An option takes one value, given after an equals sign or as the next argument,
and occurs once. After two dashes every argument is a plain one.
-/

namespace Graft

/-- What a command line asks for. -/
inductive CommandLine where
  | run (invocation : Invocation)
  /-- The help text. -/
  | help
  /-- The arguments are not understood. -/
  | rejected
deriving DecidableEq, Repr

namespace Arguments

/-- An option that takes a value. -/
inductive OptionName where
  | format
  | generated
  | existing
  | existingTree
  | output
deriving DecidableEq, Repr

/-- Which part of the command line is being read. -/
inductive Level where
  /-- Before the name of the command. -/
  | top
  | merge
  | batch
deriving DecidableEq, Repr

/-- The options of a level by their long names. -/
def longNames : Level → List (String × OptionName)
  | .top => [("format", .format)]
  | .merge =>
    [("format", .format), ("generated", .generated), ("existing", .existing),
      ("existing-tree", .existingTree), ("output", .output)]
  | .batch => [("format", .format), ("output", .output)]

/-- The options of a level by their letters. -/
def shortNames : Level → List (Char × OptionName)
  | .top => [('f', .format)]
  | .merge | .batch => [('f', .format), ('o', .output)]

/-- What the arguments of a level have said so far. -/
structure Given where
  values : List (OptionName × String) := []
  plain : List String := []
deriving DecidableEq, Repr

/-- Set an option. It must not be set yet, and a path is never empty. -/
def Given.set? (g : Given) (name : OptionName) (value : String) : Option Given :=
  if (g.values.lookup name).isSome ∨ (name ≠ .format ∧ value = "") then
    none
  else
    some { g with values := (name, value) :: g.values }

/-- The path an option was set to. -/
def Given.path? (g : Given) (name : OptionName) : Option Path :=
  (g.values.lookup name).map Path.mk

/-- The shape of an argument. -/
inductive Shape where
  | plain
  /-- Two dashes. -/
  | dashes
  /-- A long option, with what follows the equals sign. -/
  | long (name : String) (value : Option String)
  /-- A letter with what follows it. -/
  | short (letter : Char) (rest : List Char)
deriving DecidableEq, Repr

/-- The shape of an argument. A single dash is a plain one. -/
def shapeOf (argument : String) : Shape :=
  match argument.toList with
  | ['-', '-'] => .dashes
  | '-' :: '-' :: rest =>
    let name := String.ofList (rest.takeWhile (· != '='))
    match rest.dropWhile (· != '=') with
    | [] => .long name none
    | _ :: value => .long name (some (String.ofList value))
  | '-' :: letter :: rest => .short letter rest
  | _ => .plain

/-- The value written together with a letter, if any. -/
def attached? : List Char → Option String
  | [] => none
  | '=' :: value => some (String.ofList value)
  | value => some (String.ofList value)

/-- The command that the arguments of a level ask for, `format` being the one given before the
command's name. -/
def finish (level : Level) (format : Option String) (g : Given) : CommandLine :=
  let format := (g.values.lookup .format).getD (format.getD "json")
  match level with
  | .top => .rejected
  | .merge =>
    match g.path? .generated, g.path? .existing, g.path? .existingTree with
    | none, _, _ => .rejected
    | some _, none, some _ => .rejected
    | some generated, existing, parsed =>
      .run ⟨.merge { generated, existing, parsed } (g.path? .output), format⟩
  | .batch =>
    match g.path? .output with
    | none => .rejected
    | some directory =>
      if g.plain = [] then .rejected else .run ⟨.batch g.plain directory, format⟩

/-- What the help command answers to. -/
def helpOn : List String → CommandLine
  | [] | ["merge"] | ["batch"] | ["help"] => .help
  | _ => .rejected

/-- Read the arguments of a level. -/
def scan (level : Level) (format : Option String) (g : Given) : List String → CommandLine
  | [] => finish level format g
  | argument :: rest =>
    match shapeOf argument with
    | .dashes =>
      match level with
      | .top => .rejected
      | .merge => if rest = [] then finish level format g else .rejected
      | .batch => finish level format { g with plain := g.plain ++ rest }
    | .plain =>
      match level with
      | .top =>
        let format := g.values.lookup .format
        if argument = "merge" then scan .merge format {} rest
        else if argument = "batch" then scan .batch format {} rest
        else if argument = "help" then helpOn rest
        else .rejected
      | .merge => .rejected
      | .batch => scan level format { g with plain := g.plain ++ [argument] } rest
    | .long "help" none => .help
    | .long name value =>
      match (longNames level).lookup name, value, rest with
      | none, _, _ => .rejected
      | some option, some value, rest =>
        match g.set? option value with
        | none => .rejected
        | some g => scan level format g rest
      | some _, none, [] => .rejected
      | some option, none, value :: rest =>
        match shapeOf value, g.set? option value with
        | .plain, some g => scan level format g rest
        | _, _ => .rejected
    | .short 'h' _ => .help
    | .short letter more =>
      match (shortNames level).lookup letter, attached? more, rest with
      | none, _, _ => .rejected
      | some option, some value, rest =>
        match g.set? option value with
        | none => .rejected
        | some g => scan level format g rest
      | some _, none, [] => .rejected
      | some option, none, value :: rest =>
        match shapeOf value, g.set? option value with
        | .plain, some g => scan level format g rest
        | _, _ => .rejected

end Arguments

/-- What the arguments of the command line ask for. -/
def CommandLine.ofArguments (arguments : List String) : CommandLine :=
  Arguments.scan .top none {} arguments

end Graft
