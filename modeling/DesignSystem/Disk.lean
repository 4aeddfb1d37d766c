import DesignSystem.Text.Cut
/-!
# Disks

A disk is a tree of folders with files in them, kept as a list of places and what stands there.
Paths are texts with slashes between names. A path is followed name by name from the root, and
every name but the last must lead to a folder; only `makeFolders` creates more than one thing. There
are no links, neither symbolic nor hard ones: every place owns what stands there, and no name leads
to a place but its own.

What goes wrong is told in the system's words (`Disk.Error.text`).

Whatever an operation changes shows at the place its path leads to and nowhere else
(`Disk.at?_put`, `Disk.at?_drop`).
-/

namespace DesignSystem

namespace Disk

/-- The names that lead from the root to a place. -/
abbrev Place := List String

/-- What may stand at a place: a folder, or a file with its text; the bytes of a file may also be
no text at all. -/
inductive Entry where
  | folder
  | file (text : Option String)
  deriving DecidableEq

/-- What may be in the way of an operation. A place may be taken, and what stands there may be no
folder where one is needed, or a folder where a file is; a name may be too long, a path may hold a
zero character, and the bytes of a file may be no text. Whatever else there may be, such as a disk
that is full, is known by the system's words for it. -/
inductive Obstacle where
  | taken
  | notFolder
  | folder
  | longName
  | zeroCharacter
  | notText
  | other (text : String)
  deriving DecidableEq

/-- The system's words for an obstacle. -/
def Obstacle.text : Obstacle → String
  | .taken => "File exists (os error 17)"
  | .notFolder => "Not a directory (os error 20)"
  | .folder => "Is a directory (os error 21)"
  | .longName => "File name too long (os error 36)"
  | .zeroCharacter => "file name contained an unexpected NUL byte"
  | .notText => "stream did not contain valid UTF-8"
  | .other text => text

/-- Why an operation fails: nothing stands where something is needed, or there is an obstacle. -/
inductive Error where
  | missing
  | blocked (obstacle : Obstacle)
  deriving DecidableEq

/-- The system's words for an error. -/
def Error.text : Error → String
  | .missing => "No such file or directory (os error 2)"
  | .blocked obstacle => obstacle.text

/-- An operation that failed at a path. -/
structure Failure where
  path : String
  error : Error
  deriving DecidableEq

/-- The path and the system's words. -/
def Failure.text (f : Failure) : String :=
  f.path ++ ": " ++ f.error.text

end Disk

/-- Places and what stands there. The root is a folder without being listed. -/
structure Disk where
  entries : List (Disk.Place × Disk.Entry)
  deriving DecidableEq

namespace Disk

/-- The disk that has nothing but its root. -/
def empty : Disk :=
  ⟨[]⟩

/-- What stands at a place. -/
def at? (d : Disk) (p : Place) : Option Entry :=
  if p = [] then some .folder else d.entries.lookup p

/-- The disk with nothing at a place. -/
def drop (d : Disk) (p : Place) : Disk :=
  ⟨d.entries.filter fun e => !(e.1 == p)⟩

/-- The disk with an entry at a place. -/
def put (d : Disk) (p : Place) (e : Entry) : Disk :=
  ⟨(p, e) :: (d.drop p).entries⟩

theorem lookup_drop_self (entries : List (Place × Entry)) (p : Place) :
    (entries.filter fun e => !(e.1 == p)).lookup p = none := by
  rw [List.lookup_eq_none_iff]
  intro e he
  have hNe : e.1 ≠ p := by simpa using (List.mem_filter.1 he).2
  exact bne_iff_ne.2 (Ne.symm hNe)

theorem lookup_drop_of_ne (entries : List (Place × Entry)) {p q : Place} (h : q ≠ p) :
    (entries.filter fun e => !(e.1 == p)).lookup q = entries.lookup q := by
  induction entries with
  | nil => rfl
  | cons e rest ih =>
    obtain ⟨r, x⟩ := e
    by_cases hp : r = p
    · subst hp
      have hBeq : (q == r) = false := beq_false_of_ne h
      simp [List.lookup_cons, ih, hBeq]
    · simp [List.lookup_cons, hp, ih]

theorem at?_drop (d : Disk) (p q : Place) (hp : p ≠ []) :
    (d.drop p).at? q = if q = p then none else d.at? q := by
  by_cases h : q = p
  · subst h
    simp [at?, drop, hp, lookup_drop_self]
  · simp [at?, drop, h, lookup_drop_of_ne _ h]

theorem at?_put (d : Disk) (p q : Place) (e : Entry) (hp : p ≠ []) :
    (d.put p e).at? q = if q = p then some e else d.at? q := by
  by_cases h : q = p
  · subst h
    simp [at?, put, hp]
  · have hBeq : (q == p) = false := beq_false_of_ne h
    simp [at?, put, drop, h, List.lookup_cons, hBeq, lookup_drop_of_ne _ h]

/-! ### Paths -/

/-- How many bytes a name may have. -/
def maxNameSize : Nat :=
  255

/-- How many bytes a path may have. -/
def maxPathSize : Nat :=
  4095

/-- The place that a name leads to from a place, which must hold a folder. No name and a single dot
stay there, two dots go back. -/
def enter (d : Disk) (p : Place) (name : String) : Except Error Place :=
  match d.at? p with
  | none => .error .missing
  | some (.file _) => .error (.blocked .notFolder)
  | some .folder =>
    if name = "" ∨ name = "." then .ok p
    else if name = ".." then .ok p.dropLast
    else if maxNameSize < name.utf8ByteSize then .error (.blocked .longName)
    else .ok (p ++ [name])

/-- The names of a path, which must hold no zero character and not be empty or too long. -/
def namesOf (path : String) : Except Error (List String) :=
  if path = "" then .error .missing
  else if path.toList.contains '\x00' then .error (.blocked .zeroCharacter)
  else if maxPathSize < path.utf8ByteSize then .error (.blocked .longName)
  else .ok (Text.cut '/' path)

/-- The place that a path leads to. Something may stand there or not. -/
def locate (d : Disk) (path : String) : Except Error Place := do
  (← namesOf path).foldlM d.enter []

/-- Whether a path leads to a folder. -/
def isFolder (d : Disk) (path : String) : Bool :=
  match d.locate path with
  | .ok p => d.at? p == some .folder
  | .error _ => false

/-- The paths that end at the names of a path and at those before, the longest first. The names are
given in reverse; no name and a single dot do not count. -/
def pathsTo : List String → List String
  | [] => []
  | name :: before =>
    if name = "" ∨ name = "." then pathsTo before
    else Text.glue '/' (name :: before).reverse :: pathsTo before

/-- The path of a name in a folder. A name that begins with a slash is a path of its own. -/
def within (folder name : String) : String :=
  if name.toList.head? = some '/' ∨ folder = "" then name
  else if Text.endsWith folder "/" then folder ++ name
  else folder ++ "/" ++ name

/-! ### Operations -/

/-- The text of the file at a path. -/
def read (d : Disk) (path : String) : Except Error String := do
  match d.at? (← d.locate path) with
  | none => .error .missing
  | some .folder => .error (.blocked .folder)
  | some (.file none) => .error (.blocked .notText)
  | some (.file (some text)) => .ok text

/-- The error of writing to a path where following it ends in an error. A slash at the end of a path
says that it is a folder's, and this is noticed before the last name is looked up. -/
def writeError (d : Disk) (path : String) (e : Error) : Error :=
  match (Text.cut '/' path).reverse with
  | "" :: names =>
    let folder := (names.dropWhile (· = "")).tail.reverse.foldlM d.enter []
    match folder.map d.at? with
    | .ok (some .folder) => .blocked .folder
    | _ => e
  | _ => e

/-- The disk with a text in the file at a path. -/
def write (d : Disk) (path text : String) : Except Error Disk := do
  let p ← (d.locate path).mapError (d.writeError path)
  match d.at? p with
  | some .folder => .error (.blocked .folder)
  | some (.file _) | none => .ok (d.put p (.file (some text)))

/-- The disk with the file at one path moved to another, where it replaces a file. Folders are not
moved. -/
def rename (d : Disk) (source target : String) : Except Error Disk := do
  let p ← d.locate source
  let q ← d.locate target
  match d.at? p, d.at? q with
  | none, _ => .error .missing
  | some .folder, _ | _, some .folder => .error (.blocked .folder)
  | some file, _ => .ok ((d.drop p).put q file)

/-- The disk without the file at a path. -/
def remove (d : Disk) (path : String) : Except Error Disk := do
  let p ← d.locate path
  match d.at? p with
  | none => .error .missing
  | some .folder => .error (.blocked .folder)
  | some (.file _) => .ok (d.drop p)

/-- The disk with a new folder at a path, whose last name must not be that of something there. -/
def makeFolder (d : Disk) (path : String) : Except Error Disk := do
  match (← namesOf path).reverse.dropWhile (· = "") with
  | [] => .error (.blocked .taken)
  | name :: before =>
    let p ← before.reverse.foldlM d.enter []
    let q ← d.enter p name
    if name = "." ∨ name = ".." then .error (.blocked .taken)
    else match d.at? q with
      | none => .ok (d.put q .folder)
      | some _ => .error (.blocked .taken)

/-- Creates the folder at the first of some paths; if something is missing on the way to it, then
first those at the others, which are the paths before it. A folder that is there is as good as a
new one. The disk is also given where that fails. -/
def makeFoldersFrom (d : Disk) : List String → Except Error Unit × Disk
  | [] => (.ok (), d)
  | path :: before =>
    let settle (d : Disk) (e : Error) : Except Error Unit × Disk :=
      (if d.isFolder path then .ok () else .error e, d)
    match d.makeFolder path with
    | .ok d => (.ok (), d)
    | .error (.blocked obstacle) => settle d (.blocked obstacle)
    | .error .missing => match makeFoldersFrom d before with
      | (.error e, d) => (.error e, d)
      | (.ok (), d) => match d.makeFolder path with
        | .ok d => (.ok (), d)
        | .error e => settle d e

/-- Creates the folder at a path, and the folders before it where they are missing. -/
def makeFolders (d : Disk) (path : String) : Except Error Unit × Disk :=
  if path = "" then (.ok (), d)
  else d.makeFoldersFrom (path :: (pathsTo (Text.cut '/' path).reverse).tail)

/-- The files with their places, in no particular order. -/
def files (d : Disk) : List (Place × Option String) :=
  d.entries.filterMap fun (p, e) => match e with
    | .folder => none
    | .file text => some (p, text)

end Disk

end DesignSystem
