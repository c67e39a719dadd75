import AnnotatedApi.Files.Format

/-! # Arguments of the command line

The arguments name a command, and after it a path and options. An option with a value takes it from
the same argument or from the next. What follows two dashes is no option. The value of an option is
checked when the next argument is read, unless that argument is itself a mistake. -/

namespace AnnotatedApi.CommandLine

/-! ## What arguments say -/

/-- What the generator is told. -/
structure GenerateOptions where
  project : String
  config : Option String := none
  routes : Option String := none
  format : DataFormat := .yaml
  output : Option String := none
  deriving DecidableEq, Repr

/-- The commands. -/
inductive Command where
  | generate (options : GenerateOptions)
  | read (artifact : String)
  deriving DecidableEq, Repr

/-- A command, and whether messages are to be detailed. -/
structure Invocation where
  command : Command
  verbose : Bool := false
  deriving DecidableEq, Repr

/-- What arguments that give no command ask for, or what is wrong with them. -/
inductive UsageError where
  | help
  | version
  /-- There are no arguments at all. -/
  | nothing
  | missingCommand
  | unknownCommand
  | unknownArgument
  | missingArgument
  | badValue
  | tooManyValues
  | repeatedArgument
  deriving DecidableEq, Repr

/-! ## Flags and options -/

/-- The options without a value. -/
inductive Flag where
  | verbose
  | help
  | version
  deriving DecidableEq, Repr

/-- The options with a value. -/
inductive Setting where
  | config
  | routes
  | format
  | output
  deriving DecidableEq, Repr

/-- The name of a flag after two dashes. -/
def Flag.name : Flag → String
  | verbose => "verbose"
  | help => "help"
  | version => "version"

/-- The letter of a flag after one dash. -/
def Flag.letter : Flag → Char
  | verbose => 'v'
  | help => 'h'
  | version => 'V'

/-- The name of a setting after two dashes. -/
def Setting.name : Setting → String
  | config => "config"
  | routes => "routes"
  | format => "format"
  | output => "output"

/-- The letter of a setting after one dash. -/
def Setting.letter : Setting → Char
  | config => 'c'
  | routes => 'r'
  | format => 'f'
  | output => 'o'

/-- What can be given at a place of the command line. -/
structure Scope where
  flags : List Flag
  settings : List Setting
  /-- Whether a path is given here, and not the name of a command. -/
  takesPath : Bool

/-- Before the command. -/
def Scope.top : Scope := ⟨[.verbose, .help, .version], [], false⟩

/-- After the command `generate`. -/
def Scope.generate : Scope := ⟨[.verbose, .help], [.config, .routes, .format, .output], true⟩

/-- After the command `show`. -/
def Scope.read : Scope := ⟨[.verbose, .help], [], true⟩

/-- The names of the commands. -/
def commandNames : List String := ["generate", "show", "help"]

/-! ## Values -/

/-- What values are for: the path of a command, or a setting. -/
inductive Slot where
  | path
  | setting (setting : Setting)
  deriving DecidableEq, Repr

/-- What has been read so far. -/
structure Progress where
  verbose : Bool := false
  values : List (Slot × String) := []
  /-- A value that is not checked yet, or whose text is still to come. -/
  pending : Option (Slot × Option String) := none
  /-- Whether the path has been given. -/
  hasPath : Bool := false
  /-- Whether two dashes have been given, after which there are no options. -/
  onlyPaths : Bool := false

namespace Progress

/-- The value of a slot. -/
def value? (p : Progress) (slot : Slot) : Option String :=
  (p.values.find? fun entry => entry.1 == slot).map Prod.snd

/-- Whether a slot can have a value: a format has a name, and a path is not empty. -/
def accepts (slot : Slot) (text : String) : Bool :=
  match slot with
  | .setting .format => (DataFormat.ofName? text).isSome
  | _ => text != ""

/-- Keep a value. -/
def store (slot : Slot) (text : String) (p : Progress) : Except UsageError Progress :=
  if (p.value? slot).isSome then .error .repeatedArgument
  else if accepts slot text then .ok { p with values := p.values ++ [(slot, text)] }
  else .error .badValue

/-- Check the value that is pending. -/
def settle (p : Progress) : Except UsageError Progress :=
  match p.pending with
  | none => .ok p
  | some (_, none) => .error .badValue
  | some (slot, some text) => { p with pending := none }.store slot text

/-- Turn on a flag. -/
def raise (flag : Flag) (p : Progress) : Except UsageError Progress := do
  let p ← p.settle
  match flag with
  | .help => .error .help
  | .version => .error .version
  | .verbose => if p.verbose then .error .repeatedArgument else .ok { p with verbose := true }

/-- Take the value of a setting from the same argument. -/
def assign (setting : Setting) (text : String) (p : Progress) : Except UsageError Progress := do
  let p ← p.settle
  p.store (.setting setting) text

/-- Expect the value of a setting in the next argument. -/
def expect (setting : Setting) (p : Progress) : Except UsageError Progress := do
  let p ← p.settle
  return { p with pending := some (.setting setting, none) }

/-! ## Single arguments -/

/-- Read what follows two dashes. -/
def readLong (scope : Scope) (body : List Char) (p : Progress) : Except UsageError Progress :=
  let name := String.ofList (body.takeWhile (· ≠ '='))
  let attached :=
    match body.dropWhile (· ≠ '=') with
    | _ :: text => some (String.ofList text)
    | [] => none
  match scope.flags.find? (·.name == name), scope.settings.find? (·.name == name), attached with
  | some flag, _, none => p.raise flag
  | some _, _, some _ => .error .tooManyValues
  | none, some setting, some text => p.assign setting text
  | none, some setting, none => p.expect setting
  | none, none, _ => .error .unknownArgument

/-- Read the letters that follow one dash. The rest after the letter of a setting is its value. -/
def readLetters (scope : Scope) : List Char → Progress → Except UsageError Progress
  | [], p => .ok p
  | c :: rest, p =>
      match scope.flags.find? (·.letter == c), scope.settings.find? (·.letter == c) with
      | some flag, _ => do
          let p ← p.raise flag
          readLetters scope rest p
      | none, some setting =>
          match rest with
          | [] => p.expect setting
          | '=' :: text => p.assign setting (String.ofList text)
          | text => p.assign setting (String.ofList text)
      | none, none => .error .unknownArgument

/-- Read an argument that is no option. -/
def readPath (scope : Scope) (text : String) (p : Progress) : Except UsageError Progress :=
  if scope.takesPath then
    if p.hasPath then .error .unknownArgument
    else do
      let p ← p.settle
      return { p with hasPath := true, pending := some (.path, some text) }
  else if p.onlyPaths && commandNames.contains text then .error .unknownArgument
  else .error .unknownCommand

/-- Read an argument that is no option, or the value that an option expects. -/
def readWord (scope : Scope) (text : String) (p : Progress) : Except UsageError Progress :=
  match p.pending with
  | some (slot, none) => .ok { p with pending := some (slot, some text) }
  | _ => p.readPath scope text

/-- Read an argument before two dashes. -/
def readArgument (scope : Scope) (text : String) (p : Progress) : Except UsageError Progress :=
  match text.toList with
  | '-' :: '-' :: body => p.readLong scope body
  | '-' :: letter :: letters => p.readLetters scope (letter :: letters)
  | _ => p.readWord scope text

end Progress

/-! ## All arguments -/

/-- Read arguments up to the name of a command, where one is expected; yields what follows. -/
def readArguments (scope : Scope) :
    List String → Progress → Except UsageError (Progress × List String)
  | [], p => do
      let p ← p.settle
      return (p, [])
  | text :: rest, p =>
      if p.onlyPaths then do
        let p ← p.readPath scope text
        readArguments scope rest p
      else if !scope.takesPath && commandNames.contains text then .ok (p, text :: rest)
      else if text == "--" then readArguments scope rest { p with onlyPaths := true }
      else do
        let p ← p.readArgument scope text
        readArguments scope rest p

/-- The path of a command, which has to be given. -/
def pathOf (p : Progress) : Except UsageError String :=
  match p.value? .path with
  | some path => .ok path
  | none => .error .missingArgument

/-- Read the arguments of the command `generate`. -/
def readGenerate (arguments : List String) : Except UsageError Invocation := do
  let (p, _) ← readArguments .generate arguments {}
  let project ← pathOf p
  let command := Command.generate {
    project
    config := p.value? (.setting .config)
    routes := p.value? (.setting .routes)
    format := ((p.value? (.setting .format)).bind DataFormat.ofName?).getD .yaml
    output := p.value? (.setting .output) }
  return { command, verbose := p.verbose }

/-- Read the arguments of the command `show`. -/
def readRead (arguments : List String) : Except UsageError Invocation := do
  let (p, _) ← readArguments .read arguments {}
  let artifact ← pathOf p
  return { command := .read artifact, verbose := p.verbose }

/-- What a request for help asks for: help on everything, or on one command. -/
def readHelp : List String → UsageError
  | [] => .help
  | name :: rest => if commandNames.contains name && rest.isEmpty then .help else .unknownCommand

/-- Read the arguments of the program. -/
def Invocation.read (arguments : List String) : Except UsageError Invocation := do
  let (p, rest) ← readArguments .top arguments {}
  match rest with
  | "generate" :: rest =>
      let invocation ← readGenerate rest
      return { invocation with verbose := p.verbose || invocation.verbose }
  | "show" :: rest =>
      let invocation ← readRead rest
      return { invocation with verbose := p.verbose || invocation.verbose }
  | "help" :: rest => .error (readHelp rest)
  | _ => .error (if p.verbose then .missingCommand else .nothing)

end AnnotatedApi.CommandLine
