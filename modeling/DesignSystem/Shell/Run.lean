import DesignSystem.Shell.Failure
import DesignSystem.Style
import DesignSystem.Tree.File
/-!
# Running commands

An invocation is run as a job that gives the text to be printed or a failure. A command that
changes a studio does so in memory and saves the studio last, so a failure before that leaves the
store alone.
-/

namespace DesignSystem.Shell

/-- A job that may fail. -/
abbrev Action :=
  ExceptT Failure Job

/-- The action of a job, whose errors are failures of the given kind. -/
def attempt {α ε : Type} (failure : ε → Failure) (job : Job (Except ε α)) : Action α :=
  ExceptT.mk do return (← job).mapError failure

/-! ### Tokens -/

/-- Opens the studio of a folder. -/
def openStudio (folder : String) : Action Studio :=
  attempt (.studio folder) do Studio.ofLoaded (← (FolderStore.mk folder).load)

/-- Saves the studio of a folder. -/
def saveStudio (folder : String) (s : Studio) : Action Unit :=
  attempt .notSaved ((FolderStore.mk folder).save s.snapshot)

/-- Gets the tree of a source. -/
def Source.load : Source → Action Tree
  | .file path => attempt (.tokens path) (Tree.load path)
  | .builtInDark => return Tree.dark
  | .studio folder => return (← openStudio folder).activeTokens
  | .builtInLight => return Tree.light

/-- The text of a tree as it is printed. -/
def print (t : Tree) : String :=
  t.toJson.pretty ++ "\n"

/-- Prints the text of a token. -/
def get (t : Tree) (path : String) (resolve : Bool) : Except Failure String :=
  if resolve then ((t.resolve path).mapError .broken).map (· ++ "\n")
  else .ok (t.valueAt path ++ "\n")

/-- Fails unless a tree has a text at a path. -/
def checkSet (t : Tree) (path value : String) : Except Failure Unit :=
  if t.valueAt path = value then .ok () else .error (.notSet path)

/-- Sets the text of a token in the studio of a folder. -/
def setInStudio (folder path value : String) : Action String := do
  let studio ← openStudio folder
  let studio := (studio.update? (← Job.now) path value).getD studio
  checkSet studio.activeTokens path value
  saveStudio folder studio
  return "set " ++ path ++ " = " ++ value ++ " in " ++ studio.activeThemeName ++ "\n"

/-- Sets the text of a token in the tree of a source and prints the tree or writes it to a file. -/
def setInTree (source : Source) (path value : String) (output : Option String) :
    Action String := do
  let tokens := (← source.load).set path value
  checkSet tokens path value
  match output with
  | none => return print tokens
  | some file =>
    attempt (.notWritten file) (Job.write file (print tokens))
    return "wrote " ++ file ++ "\n"

/-- Sets the text of a token. The edit goes to an output file if one is given, and else back to the
studio that the tokens come from, if they come from one. -/
def set (source : Source) (path value : String) (output : Option String) : Action String :=
  match source, output with
  | .studio folder, none => setInStudio folder path value
  | _, _ => setInTree source path value output

/-- Prints the style variables of a tree. -/
def flatten (t : Tree) (selector : String) : VariableFormat → String
  | .css => StyleVariables.toCss t.flatten selector
  | .json => (Json.object (t.flatten.map fun (name, value) => (name, .string value))).pretty ++ "\n"

/-- Prints that a tree conforms to the schema. -/
def validate (t : Tree) : Except Failure String :=
  match t.issues with
  | [] => .ok "ok no issues\n"
  | issues => .error (.issues issues)

/-! ### Components -/

/-- The catalog in columns. -/
def components : String :=
  Text.lines <| Component.all.map fun c =>
    Text.padRight 10 c.id ++ " " ++ Text.padRight 9 c.definition.category.name ++ " " ++
      c.definition.description

/-- A generated file with a headline, its last line complete and an empty line after it. -/
def listing (f : GeneratedFile) : String :=
  Text.lines ["// " ++ f.fileName ++ " (" ++ f.description ++ ")"] ++ f.content ++
    (if Text.endsWith f.content "\n" then "" else "\n") ++ "\n"

/-- The files of the component of an identifier. -/
def generatedFiles (component : String) (strategy : Strategy) :
    Except Failure (List GeneratedFile) := do
  let c ← (Generation.readComponent component).mapError .generation
  (Generation.generate c strategy).mapError (.generating c strategy)

/-- Generates the code of a component and prints it or writes it to a folder. -/
def generate (component : String) (strategy : Strategy) (folder : Option String) :
    Action String := do
  let files ← generatedFiles component strategy
  match folder with
  | none => return String.join (files.map listing)
  | some folder =>
    let paths ← attempt (fun e => .generation (.disk e)) (GeneratedFile.exportAll folder files)
    return Text.lines (paths.map ("wrote " ++ ·))

/-! ### Brands -/

/-- The brands of a studio with their themes; a star marks the active one. -/
def brandTable (s : Studio) : String :=
  let active := s.activeBrand?.map Brand.id
  Text.lines <| s.brands.map fun b =>
    (if some b.id = active then "*" else " ") ++ " " ++ b.name ++ " " ++ b.id ++ " " ++
      ", ".intercalate (b.themes.map fun t => t.name ++ " [" ++ t.mode.name ++ "]")

/-- The identifier of the brand that a key names. Identifiers go before names. -/
def findBrand (s : Studio) (key : String) : Except Failure String :=
  match (s.brand? key).or (s.brands.find? fun b => b.name == key) with
  | some b => .ok b.id
  | none => .error (.noBrand key)

/-- Deletes the brand that a key names. -/
def deleteBrand (s : Studio) (key : String) : Except Failure Studio := do
  (s.deleteBrand (← findBrand s key)).mapError .refused

/-- Makes the brand that a key names the active one, with the theme of a mode if one is given. -/
def useBrand (s : Studio) (key : String) (mode : Option Mode) : Except Failure Studio := do
  let s ← (s.selectBrand (← findBrand s key)).mapError .refused
  return (mode.map s.switchMode).getD s

/-- What a command for brands makes of a studio, and what it prints. Listing changes nothing. -/
def changeBrands (s : Studio) : BrandCommand → Action (Option Studio × String)
  | .list => return (none, brandTable s)
  | .create name description => do
    let ids ← Brand.freshIds
    let s := s.createBrand ids (← Job.now) name description
    return (some s, Text.lines ["created " ++ name ++ " " ++ ids.brand])
  | .delete key => do
    let s ← deleteBrand s key
    return (some s, Text.lines ["deleted " ++ key])
  | .use key mode => do
    let s ← useBrand s key mode
    return (some s, Text.lines ["using " ++ s.activeBrandName ++ " / " ++ s.activeThemeName])

/-- Runs a command for brands on the studio of a folder. -/
def brand (store : Option String) (command : BrandCommand) : Action String := do
  match store with
  | none => throw .noStore
  | some folder =>
    let (changed, text) ← changeBrands (← openStudio folder) command
    match changed with
    | none => return text
    | some s =>
      saveStudio folder s
      return text

/-! ### Invocations -/

/-- Runs an invocation. -/
def Invocation.run (i : Invocation) : Action String :=
  match i.command with
  | .components => return components
  | .get path resolve => do get (← i.source.load) path resolve
  | .set path value output => set i.source path value output
  | .flatten format selector => return flatten (← i.source.load) selector format
  | .generate component strategy folder => do
    let _ ← i.source.load
    generate component strategy folder
  | .validate => do validate (← i.source.load)
  | .dark => return print (← i.source.load).darken
  | .brand command => brand i.store command

end DesignSystem.Shell
