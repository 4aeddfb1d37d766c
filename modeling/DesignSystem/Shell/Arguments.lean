import DesignSystem.Shell.Command
import DesignSystem.Style
import DesignSystem.Text.Cut
/-!
# Arguments

The commands form a tree: at the root stand the commands and below the command for brands those of
its own. Arguments are read from left to right. The name of a command leads one level down; what
begins with a dash is a flag or a parameter, until two dashes alone end this; everything else is
the value of the parameter before it or one of the command's own arguments.

The value of a parameter is looked at when the next flag, parameter or argument comes, or at the
end. So of two mistakes an unknown name may be reported before a bad value on its left.
-/

namespace DesignSystem.Shell

/-- Why arguments are not read as an invocation. -/
inductive UsageError where
  | helpWanted
  | versionWanted
  | nothingGiven
  | missingCommand
  | unknownCommand
  | missingArgument
  | unknownArgument
  | unwantedValue
  | repeated
  | invalidValue
  | refusedValue
  deriving DecidableEq

/-! ### Flags and parameters -/

/-- What is given by its name alone. -/
inductive Flag where
  | dark
  | verbose
  | resolve
  | help
  | version
  deriving DecidableEq

/-- What is given by its name and a value. -/
inductive Parameter where
  | tokens
  | store
  | output
  | format
  | selector
  | strategy
  | folder
  | description
  | mode
  deriving DecidableEq

/-- What may stand behind dashes. -/
inductive Mark where
  | flag (flag : Flag)
  | parameter (parameter : Parameter)
  deriving DecidableEq

/-- The name of a mark. -/
def Mark.name : Mark → String
  | .flag .dark => "dark"
  | .flag .verbose => "verbose"
  | .flag .resolve => "resolve"
  | .flag .help => "help"
  | .flag .version => "version"
  | .parameter .tokens => "tokens"
  | .parameter .store => "store"
  | .parameter .output => "output"
  | .parameter .format => "format"
  | .parameter .selector => "selector"
  | .parameter .strategy => "strategy"
  | .parameter .folder => "out-dir"
  | .parameter .description => "description"
  | .parameter .mode => "mode"

/-- The letter of a mark, if it has one. -/
def Mark.letter? : Mark → Option Char
  | .flag .verbose => some 'v'
  | .flag .help => some 'h'
  | .flag .version => some 'V'
  | .parameter .output | .parameter .folder => some 'o'
  | .parameter .strategy => some 's'
  | _ => none

/-- A parameter with a value that suits it. -/
inductive Setting where
  | tokens (path : String)
  | store (folder : String)
  | output (path : String)
  | format (format : VariableFormat)
  | selector (selector : String)
  | strategy (strategy : Strategy)
  | folder (folder : String)
  | description (description : String)
  | mode (mode : Mode)
  deriving DecidableEq

/-- The parameter of a setting. -/
def Setting.parameter : Setting → Parameter
  | tokens _ => .tokens
  | store _ => .store
  | output _ => .output
  | format _ => .format
  | selector _ => .selector
  | strategy _ => .strategy
  | folder _ => .folder
  | description _ => .description
  | mode _ => .mode

/-- A path, which must not be empty. -/
def readPath (value : String) : Except UsageError String :=
  if value = "" then .error .invalidValue else .ok value

/-- The setting of a parameter to a value. -/
def Parameter.read (value : String) : Parameter → Except UsageError Setting
  | tokens => (readPath value).map .tokens
  | store => (readPath value).map .store
  | output => (readPath value).map .output
  | folder => (readPath value).map .folder
  | format => match VariableFormat.ofName? value with
    | some f => .ok (.format f)
    | none => .error .invalidValue
  | strategy => match Strategy.ofName? value with
    | some s => .ok (.strategy s)
    | none => .error .refusedValue
  | mode => match Mode.ofName? value with
    | some m => .ok (.mode m)
    | none => .error .refusedValue
  | selector => .ok (.selector value)
  | description => .ok (.description value)

theorem Parameter.parameter_of_read {p : Parameter} {value : String} {s : Setting}
    (h : p.read value = .ok s) : s.parameter = p := by
  cases p <;> grind [read, readPath, Except.map, Setting.parameter]

/-! ### Levels -/

/-- The places in the tree of commands. -/
inductive Level where
  | root
  | components
  | get
  | set
  | flatten
  | generate
  | validate
  | dark
  | brand
  | brandList
  | brandCreate
  | brandDelete
  | brandUse
  deriving DecidableEq

namespace Level

/-- The commands below a level with their names. -/
def commands : Level → List (String × Level)
  | root => [("components", components), ("get", get), ("set", set), ("flatten", flatten),
      ("generate", generate), ("validate", validate), ("dark", dark), ("brand", brand)]
  | brand => [("list", brandList), ("create", brandCreate), ("delete", brandDelete),
      ("use", brandUse)]
  | _ => []

/-- Whether a command has to be named below a level. -/
def isBranch (l : Level) : Bool :=
  !l.commands.isEmpty

/-- The name under which every branch explains itself. -/
def helpName : String :=
  "help"

/-- Whether something goes by a name below a level. -/
def knows (l : Level) (name : String) : Bool :=
  (l.commands.lookup name).isSome || l.isBranch && name == helpName

/-- The marks of a level besides those that all levels have. -/
def ownMarks : Level → List Mark
  | root => [.flag .version]
  | get => [.flag .resolve]
  | set => [.parameter .output]
  | flatten => [.parameter .format, .parameter .selector]
  | generate => [.parameter .strategy, .parameter .folder]
  | brandCreate => [.parameter .description]
  | brandUse => [.parameter .mode]
  | components | validate | dark | brand | brandList | brandDelete => []

/-- The marks of a level. -/
def marks (l : Level) : List Mark :=
  [.parameter .tokens, .flag .dark, .parameter .store, .flag .verbose, .flag .help] ++ l.ownMarks

/-- The number of arguments of a level's command. -/
def arity : Level → Nat
  | get | generate | brandCreate | brandDelete | brandUse => 1
  | set => 2
  | root | components | flatten | validate | dark | brand | brandList => 0

/-- What a request for help with the commands of the given names comes to. -/
def explain (l : Level) : List String → UsageError
  | [] => .helpWanted
  | name :: rest => match l.commands.lookup name with
    | some inner => inner.explain rest
    | none => if l.knows name ∧ rest = [] then .helpWanted else .unknownCommand

end Level

/-! ### Reading a level -/

/-- What has been given at a level. -/
structure Given where
  flags : List Flag
  settings : List Setting
  arguments : List String
  deriving DecidableEq

namespace Given

/-- Nothing has been given. -/
def nothing : Given :=
  ⟨[], [], []⟩

/-- Whether a parameter has been given. -/
def has (g : Given) (p : Parameter) : Bool :=
  g.settings.any fun s => s.parameter == p

/-- Takes a flag, each of which may be given once. -/
def raise (g : Given) (f : Flag) : Except UsageError Given :=
  match f with
  | .help => .error .helpWanted
  | .version => .error .versionWanted
  | .dark | .verbose | .resolve =>
    if f ∈ g.flags then .error .repeated else .ok { g with flags := g.flags ++ [f] }

/-- Takes a parameter, each of which may be given once. -/
def put (g : Given) (p : Parameter) (value : String) : Except UsageError Given :=
  if g.has p then .error .repeated
  else (p.read value).map fun s => { g with settings := g.settings ++ [s] }

end Given

/-- The state of reading a level: what has been given, the parameter that has not been looked at
yet with its value if that has come, and whether the two dashes have been passed. -/
structure Scan where
  given : Given
  pending : Option (Parameter × Option String)
  isPlain : Bool
  deriving DecidableEq

namespace Scan

/-- The beginning of a level. -/
def start : Scan :=
  ⟨Given.nothing, none, false⟩

/-- Whether the next argument is the value of a parameter, unless it begins with a dash. -/
def isWaiting (s : Scan) : Bool :=
  match s.pending with
  | some (_, none) => true
  | some (_, some _) | none => false

/-- What has been given once the pending parameter has been looked at. -/
def settle (s : Scan) : Except UsageError Given :=
  match s.pending with
  | none => .ok s.given
  | some (_, none) => .error .invalidValue
  | some (p, some value) => s.given.put p value

/-- Takes a mark and the value attached to it. -/
def takeMark (s : Scan) (m : Mark) (value : Option String) : Except UsageError Scan :=
  match m, value with
  | .flag _, some _ => .error .unwantedValue
  | .flag f, none => do
    let given ← (← s.settle).raise f
    return { s with given, pending := none }
  | .parameter p, some value => do
    let given ← (← s.settle).put p value
    return { s with given, pending := none }
  | .parameter p, none => do
    let given ← s.settle
    return { s with given, pending := some (p, none) }

/-- Takes the name of a mark, which an equals sign and a value may follow. -/
def takeName (l : Level) (s : Scan) (cs : List Char) : Except UsageError Scan :=
  let name := String.ofList (cs.takeWhile (· != '='))
  let value := match cs.dropWhile (· != '=') with
    | [] => none
    | _ :: value => some (String.ofList value)
  match l.marks.find? fun m => m.name == name with
  | some m => s.takeMark m value
  | none => .error .unknownArgument

/-- Takes the letters of marks. The letter of a parameter is the last, for what follows is its
value, with an equals sign in between or not. -/
def takeLetters (l : Level) (s : Scan) : List Char → Except UsageError Scan
  | [] => .ok s
  | c :: cs => match l.marks.find? fun m => m.letter? == some c with
    | none => .error .unknownArgument
    | some (.flag f) => do takeLetters l (← s.takeMark (.flag f) none) cs
    | some (.parameter p) => s.takeMark (.parameter p) <| match cs with
      | [] => none
      | '=' :: value => some (String.ofList value)
      | value => some (String.ofList value)

/-- Takes an argument of the level's command. -/
def takeArgument (l : Level) (s : Scan) (a : String) : Except UsageError Scan :=
  if s.given.arguments.length < l.arity then do
    let given ← s.settle
    return { s with given := { given with arguments := given.arguments ++ [a] }, pending := none }
  else if l.isBranch ∧ ¬(s.isPlain ∧ l.knows a) then .error .unknownCommand
  else .error .unknownArgument

/-- Takes anything but the name of a command. -/
def take (l : Level) (s : Scan) (a : String) : Except UsageError Scan :=
  if s.isPlain then s.takeArgument l a
  else match a.toList with
    | ['-', '-'] => .ok { s with isPlain := true }
    | '-' :: '-' :: name => s.takeName l name
    | '-' :: c :: letters => s.takeLetters l (c :: letters)
    | _ => match s.pending with
      | some (p, none) => .ok { s with pending := some (p, some a) }
      | some (_, some _) | none => s.takeArgument l a

/-- Reads a level and those below it, given the levels above. The levels come out from the lowest
to the root. -/
def readAll (above : List (Level × Scan)) (l : Level) (s : Scan) :
    List String → Except UsageError (List (Level × Scan))
  | [] => .ok ((l, s) :: above)
  | a :: rest =>
    if !s.isPlain && !s.isWaiting && l.knows a then
      match l.commands.lookup a with
      | some inner => readAll ((l, s) :: above) inner start rest
      | none => .error (l.explain rest)
    else do readAll above l (← s.take l a) rest

end Scan

/-! ### From levels to invocations -/

namespace Given

/-- What has been given for a parameter. -/
def find? {α : Type} (g : Given) (f : Setting → Option α) : Option α :=
  g.settings.findSome? f

/-- The command of a level. The names of commands may not be left out, and neither may arguments
or the strategy of code generation. -/
def command (g : Given) : Level → Except UsageError Command
  | .root | .brand => .error .missingCommand
  | .components => .ok .components
  | .validate => .ok .validate
  | .dark => .ok .dark
  | .brandList => .ok (.brand .list)
  | .get => match g.arguments with
    | [path] => .ok (.get path (g.flags.contains .resolve))
    | _ => .error .missingArgument
  | .set => match g.arguments with
    | [path, value] =>
      .ok (.set path value (g.find? fun | .output path => some path | _ => none))
    | _ => .error .missingArgument
  | .flatten =>
    .ok (.flatten ((g.find? fun | .format f => some f | _ => none).getD .css)
      ((g.find? fun | .selector s => some s | _ => none).getD rootSelector))
  | .generate =>
    match g.arguments, g.find? fun | .strategy s => some s | _ => none with
    | [component], some strategy =>
      .ok (.generate component strategy (g.find? fun | .folder path => some path | _ => none))
    | _, _ => .error .missingArgument
  | .brandCreate => match g.arguments with
    | [name] => .ok (.brand (.create name
        ((g.find? fun | .description d => some d | _ => none).getD "")))
    | _ => .error .missingArgument
  | .brandDelete => match g.arguments with
    | [key] => .ok (.brand (.delete key))
    | _ => .error .missingArgument
  | .brandUse => match g.arguments with
    | [key] => .ok (.brand (.use key (g.find? fun | .mode m => some m | _ => none)))
    | _ => .error .missingArgument

end Given

/-- What has been given at a level whose state is final. If the level names no store, then the one
of the surroundings has to be a path. -/
def Scan.finish (store : Option String) (s : Scan) : Except UsageError Given := do
  let given ← s.settle
  match store with
  | some folder => if given.has .store then return given else (readPath folder).map fun _ => given
  | none => return given

/-- Reads arguments, where `store` is the folder of the studio to be used if none is given. What all
levels share counts as it is given at the lowest of them. -/
def Invocation.read (store : Option String) (arguments : List String) :
    Except UsageError Invocation := do
  match ← Scan.readAll [] .root Scan.start arguments with
  | [] => .error .missingCommand
  | (l, s) :: above =>
    let given ← s.finish store
    if l.isBranch ∧ given = Given.nothing ∧ store = none then throw .nothingGiven
    let command ← given.command l
    let levels := given :: (← above.mapM fun (_, s) => s.finish store)
    let flags := levels.flatMap Given.flags
    let settings := levels.flatMap Given.settings
    return {
      tokens := settings.findSome? fun | .tokens path => some path | _ => none
      dark := flags.contains .dark
      store := (settings.findSome? fun | .store folder => some folder | _ => none).or store
      verbose := flags.contains .verbose
      command }

end DesignSystem.Shell
