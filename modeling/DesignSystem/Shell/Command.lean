import DesignSystem.Generation.Strategy
import DesignSystem.Studio.Brand
/-!
# Commands

What the shell can be told to do. An invocation is a command together with the choice of the tokens
that it works on (`Invocation.source`).
-/

namespace DesignSystem.Shell

/-- The formats in which style variables are printed. -/
inductive VariableFormat where
  | css
  | json
  deriving DecidableEq

/-- The format of a name. -/
def VariableFormat.ofName? : String → Option VariableFormat
  | "css" => some .css
  | "json" => some .json
  | _ => none

/-- What can be done with the brands of a studio. A key is the identifier or the name of a brand. -/
inductive BrandCommand where
  | list
  | create (name description : String)
  | delete (key : String)
  | use (key : String) (mode : Option Mode)
  deriving DecidableEq

/-- What the shell can be told to do. -/
inductive Command where
  | components
  | get (path : String) (resolve : Bool)
  | set (path value : String) (output : Option String)
  | flatten (format : VariableFormat) (selector : String)
  | generate (component : String) (strategy : Strategy) (folder : Option String)
  | validate
  | dark
  | brand (command : BrandCommand)
  deriving DecidableEq

/-- A command with what may be given for every command: a token file, the wish for the built-in
dark tokens, the folder of a studio, and the wish for details. -/
structure Invocation where
  tokens : Option String
  dark : Bool
  store : Option String
  verbose : Bool
  command : Command
  deriving DecidableEq

/-- Where tokens come from. -/
inductive Source where
  | file (path : String)
  | builtInDark
  | studio (folder : String)
  | builtInLight
  deriving DecidableEq

/-- Where the tokens of an invocation come from. A token file goes before the built-in dark tokens,
and these go before a studio. -/
def Invocation.source (i : Invocation) : Source :=
  match i.tokens, i.dark, i.store with
  | some path, _, _ => .file path
  | none, true, _ => .builtInDark
  | none, false, some folder => .studio folder
  | none, false, none => .builtInLight

end DesignSystem.Shell
