import DesignSystem.Studio.Snapshot
import DesignSystem.Json.Printer
import DesignSystem.Job
/-!
# Stores

A store keeps at most one snapshot as a text. A memory store is that text; a folder store keeps it
in a file, which is only ever replaced as a whole: the text is written to a staging file first, and
that file is then moved to its place.
-/

namespace DesignSystem

/-- Why a store fails. -/
inductive StoreError where
  | disk (failure : Disk.Failure)
  | malformed
  deriving DecidableEq

/-- The text of an error; there is none for a text that is no snapshot. -/
def StoreError.message? : StoreError → Option String
  | .disk failure => some ("failed to access " ++ failure.text)
  | .malformed => none

/-- The snapshot of a stored text. -/
def Snapshot.ofStored (text : String) : Except StoreError Snapshot :=
  match read text with
  | some s => .ok s
  | none => .error .malformed

/-- A store in memory. -/
structure MemoryStore where
  text : Option String
  deriving DecidableEq

namespace MemoryStore

/-- The store that keeps nothing. -/
def empty : MemoryStore :=
  ⟨none⟩

/-- The snapshot that the store keeps. -/
def load (m : MemoryStore) : Except StoreError (Option Snapshot) :=
  match m.text with
  | none => .ok none
  | some text => (Snapshot.ofStored text).map some

/-- The store after keeping a snapshot. -/
def save (_ : MemoryStore) (s : Snapshot) : MemoryStore :=
  ⟨some s.toJson.compact⟩

/-- The store after forgetting its snapshot. -/
def clear (_ : MemoryStore) : MemoryStore :=
  empty

end MemoryStore

/-- A store in a folder. -/
structure FolderStore where
  folder : String
  deriving DecidableEq

namespace FolderStore

/-- The name of the file with the snapshot. -/
def fileName : String :=
  "dsforge-studio.v1.json"

/-- The name of the staging file. -/
def stagingName : String :=
  fileName ++ ".tmp"

/-- The path of the file with the snapshot. -/
def path (f : FolderStore) : String :=
  Disk.within f.folder fileName

/-- The path of the staging file. -/
def stagingPath (f : FolderStore) : String :=
  Disk.within f.folder stagingName

/-- Gets the snapshot that the store keeps. -/
def load (f : FolderStore) : Job (Except StoreError (Option Snapshot)) := do
  match ← Job.read f.path with
  | .ok text => return (Snapshot.ofStored text).map some
  | .error .missing => return .ok none
  | .error (.blocked obstacle) => return .error (.disk ⟨f.path, .blocked obstacle⟩)

/-- Keeps a snapshot. -/
def save (f : FolderStore) (s : Snapshot) : Job (Except StoreError Unit) := do
  match ← Job.makeFolders f.folder with
  | .error e => return .error (.disk ⟨f.folder, e⟩)
  | .ok () =>
    match ← Job.write f.stagingPath s.toJson.pretty with
    | .error e => return .error (.disk ⟨f.stagingPath, e⟩)
    | .ok () =>
      match ← Job.rename f.stagingPath f.path with
      | .error e => return .error (.disk ⟨f.path, e⟩)
      | .ok () => return .ok ()

/-- Forgets the snapshot. -/
def clear (f : FolderStore) : Job (Except StoreError Unit) := do
  match ← Job.remove f.path with
  | .ok () | .error .missing => return .ok ()
  | .error (.blocked obstacle) => return .error (.disk ⟨f.path, .blocked obstacle⟩)

end FolderStore

/-! ### Opening studios -/

/-- Asks for the identifiers of a new brand. -/
def Brand.freshIds : Job Brand.Ids := do
  let brand ← Job.freshId
  let light ← Job.freshId
  let dark ← Job.freshId
  return ⟨brand, light, dark⟩

namespace Studio

/-- Why no studio comes out of a store. -/
inductive OpenError where
  | store (error : StoreError)
  | refused (refusal : Refusal)
  deriving DecidableEq

/-- Makes a new studio. -/
def fresh : Job Studio := do
  let now ← Job.now
  let ids ← Brand.freshIds
  return create ids now

/-- The studio of what a store has kept; a new one if it has kept nothing. -/
def ofLoaded (r : Except StoreError (Option Snapshot)) : Job (Except OpenError Studio) := do
  match r with
  | .error e => return .error (.store e)
  | .ok none => return .ok (← fresh)
  | .ok (some s) => match ofSnapshot s with
    | .ok studio => return .ok studio
    | .error r => return .error (.refused r)

end Studio

end DesignSystem
