import DesignSystem.Disk
import DesignSystem.Proofs.Text.Cut
import Mathlib.Data.List.Infix
/-!
# Where paths lead

Whether a path leads anywhere is up to the disk, but the place that it leads to is not: it can be
told from the names alone (`placeOf_of_locate`). So is told what an operation may change. Writing
changes the place of its path, and making folders changes no place but those on the way
(`at?_makeFolders_of_not_mem_way`) and no file at all (`fileAt?_makeFolders`).
-/

namespace DesignSystem

theorem exists_of_bind_eq_ok {α β ε : Type} {x : Except ε α} {f : α → Except ε β} {b : β}
    (h : x >>= f = .ok b) : ∃ a, x = .ok a ∧ f a = .ok b := by
  cases x with
  | error e => cases h
  | ok a => exact ⟨a, rfl, h⟩

theorem mapError_eq_ok_iff {α ε δ : Type} {x : Except ε α} {f : ε → δ} {a : α} :
    x.mapError f = .ok a ↔ x = .ok a := by
  cases x with
  | error e => simp only [Except.mapError, reduceCtorEq]
  | ok b => simp only [Except.mapError, Except.ok.injEq]

namespace Disk

/-! ### Places -/

/-- The place that a name leads to from a place, where the disk lets it. -/
def step (p : Place) (name : String) : Place :=
  if name = "" ∨ name = "." then p
  else if name = ".." then p.dropLast
  else p ++ [name]

/-- The place that names lead to from the root. -/
def walk (names : List String) : Place :=
  names.foldl step []

/-- The place that a path leads to. -/
def placeOf (path : String) : Place :=
  walk (Text.cut '/' path)

/-- The places that names lead through, from the root on. -/
def passed (names : List String) : List Place :=
  names.inits.map walk

/-- The places that a path goes through, from the root to its end. -/
def way (path : String) : List Place :=
  passed (Text.cut '/' path)

theorem mem_passed_iff {names : List String} {p : Place} :
    p ∈ passed names ↔ ∃ front, front <+: names ∧ walk front = p := by
  simp only [passed, List.mem_map, List.mem_inits]

theorem walk_mem_passed (names : List String) : walk names ∈ passed names :=
  mem_passed_iff.mpr ⟨names, List.prefix_rfl, rfl⟩

theorem mem_passed_append {names : List String} {p : Place} (h : p ∈ passed names)
    (more : List String) : p ∈ passed (names ++ more) := by
  obtain ⟨front, hFront, hWalk⟩ := mem_passed_iff.mp h
  exact mem_passed_iff.mpr ⟨front, hFront.trans (List.prefix_append _ _), hWalk⟩

theorem placeOf_mem_way (path : String) : placeOf path ∈ way path :=
  walk_mem_passed _

theorem walk_append_singleton (names : List String) (name : String) :
    walk (names ++ [name]) = step (walk names) name := by
  rw [walk, List.foldl_append, List.foldl_cons, List.foldl_nil, ← walk]

/-- Empty names lead nowhere else. -/
theorem foldl_step_blanks {blanks : List String} (h : ∀ b ∈ blanks, b = "") (p : Place) :
    blanks.foldl step p = p := by
  induction blanks with
  | nil => rfl
  | cons b blanks ih =>
    obtain ⟨hBlank, hRest⟩ := List.forall_mem_cons.mp h
    rw [List.foldl_cons, step, if_pos (.inl hBlank)]
    exact ih hRest

theorem walk_append_blanks (names : List String) {blanks : List String}
    (h : ∀ b ∈ blanks, b = "") : walk (names ++ blanks) = walk names := by
  rw [walk, List.foldl_append, foldl_step_blanks h, ← walk]

theorem step_of_enter {d : Disk} {p q : Place} {name : String} (h : d.enter p name = .ok q) :
    step p name = q := by
  unfold enter at h
  unfold step
  split at h
  · cases h
  · cases h
  · split at h
    · cases h
      rw [if_pos ‹_›]
    · rw [if_neg ‹_›]
      split at h
      · cases h
        rw [if_pos ‹_›]
      · rw [if_neg ‹_›]
        split at h <;> cases h
        rfl

theorem foldl_step_of_enter {d : Disk} {names : List String} {p q : Place}
    (h : names.foldlM d.enter p = .ok q) : names.foldl step p = q := by
  induction names generalizing p with
  | nil =>
    cases h
    rfl
  | cons name names ih =>
    rw [List.foldlM_cons] at h
    obtain ⟨r, hEnter, hRest⟩ := exists_of_bind_eq_ok h
    rw [List.foldl_cons, step_of_enter hEnter]
    exact ih hRest

theorem namesOf_eq_ok_iff {path : String} {names : List String} : namesOf path = .ok names ↔
    (path ≠ "" ∧ '\x00' ∉ path.toList ∧ path.utf8ByteSize ≤ maxPathSize) ∧
      Text.cut '/' path = names := by
  unfold namesOf
  by_cases hEmpty : path = ""
  · simp [hEmpty]
  · by_cases hZero : '\x00' ∈ path.toList
    · simp [hEmpty, hZero]
    · by_cases hLong : maxPathSize < path.utf8ByteSize
      · simp [hEmpty, hZero, hLong, Nat.not_le.mpr hLong]
      · simp [hEmpty, hZero, hLong, Nat.le_of_not_lt hLong]

theorem namesOf_eq_ok {path : String} {names : List String} (h : namesOf path = .ok names) :
    Text.cut '/' path = names :=
  (namesOf_eq_ok_iff.mp h).2

/-- **On every disk a path leads to the same place**, or to none. -/
theorem placeOf_of_locate {d : Disk} {path : String} {p : Place} (h : d.locate path = .ok p) :
    placeOf path = p := by
  obtain ⟨names, hNames, hWalk⟩ := exists_of_bind_eq_ok h
  rw [placeOf, namesOf_eq_ok hNames]
  exact foldl_step_of_enter hWalk

theorem ne_root_of_not_folder {d : Disk} {p : Place} (h : d.at? p ≠ some .folder) : p ≠ [] := by
  rintro rfl
  exact h rfl

/-! ### Names in folders -/

/-- A name that leads into a folder, to a place of its own. -/
structure IsPlain (name : String) : Prop where
  noSlash : '/' ∉ name.toList
  notEmpty : name ≠ ""
  notDot : name ≠ "."
  notDots : name ≠ ".."

instance (name : String) : Decidable (IsPlain name) :=
  decidable_of_iff ('/' ∉ name.toList ∧ name ≠ "" ∧ name ≠ "." ∧ name ≠ "..")
    ⟨fun ⟨a, b, c, d⟩ => ⟨a, b, c, d⟩, fun ⟨a, b, c, d⟩ => ⟨a, b, c, d⟩⟩

theorem IsPlain.step {name : String} (h : IsPlain name) (p : Place) :
    step p name = p ++ [name] := by
  rw [Disk.step, if_neg (not_or.mpr ⟨h.notEmpty, h.notDot⟩), if_neg h.notDots]

theorem cut_append_name (folder : String) {name : String} (h : '/' ∉ name.toList) :
    Text.cut '/' (folder ++ "/" ++ name) = Text.cut '/' folder ++ [name] := by
  have hNe := Text.cut_ne_nil '/' folder
  have hGlue : folder ++ "/" ++ name = Text.glue '/' (Text.cut '/' folder ++ [name]) := by
    rw [Text.glue_concat hNe, Text.glue_cut]
    rfl
  rw [hGlue, Text.cut_glue (List.append_ne_nil_of_left_ne_nil hNe _)]
  intro piece hPiece
  rcases List.mem_append.mp hPiece with hPiece | hPiece
  · exact Text.not_mem_of_mem_cut hPiece
  · rw [List.mem_singleton.mp hPiece]
    exact h

theorem within_of_ne {folder name : String} (hFolder : folder ≠ "") (hName : '/' ∉ name.toList) :
    within folder name =
      if Text.endsWith folder "/" then folder ++ name else folder ++ "/" ++ name := by
  have hSlash : name.toList.head? ≠ some '/' := fun hHead =>
    hName (List.mem_of_mem_head? hHead)
  rw [within, if_neg (not_or.mpr ⟨hSlash, hFolder⟩)]

/-- The names of a path in a folder are those of the folder and one more; a slash at the end of the
folder's path adds none. -/
theorem cut_within {folder name : String} (hFolder : folder ≠ "") (hName : '/' ∉ name.toList) :
    ∃ front blanks, (∀ b ∈ blanks, b = "") ∧ Text.cut '/' folder = front ++ blanks ∧
      Text.cut '/' (within folder name) = front ++ [name] := by
  rw [within_of_ne hFolder hName]
  split
  · rename_i hEnds
    obtain ⟨front, hFront⟩ := List.isSuffixOf_iff_suffix.mp hEnds
    have hSplit : folder = String.ofList front ++ "/" ++ "" := by
      apply String.ext
      rw [String.append_empty, String.toList_append, String.toList_ofList, hFront]
    refine ⟨Text.cut '/' (String.ofList front), [""], List.forall_mem_singleton.mpr rfl, ?_, ?_⟩
    · rw [hSplit, cut_append_name _ List.not_mem_nil]
    · rw [hSplit, String.append_empty, cut_append_name _ hName]
  · refine ⟨Text.cut '/' folder, [], nofun, (List.append_nil _).symm, cut_append_name _ hName⟩

/-- **A name in a folder has its place right below the folder's.** -/
theorem placeOf_within (folder : String) {name : String} (h : IsPlain name) :
    placeOf (within folder name) = placeOf folder ++ [name] := by
  by_cases hEmpty : folder = ""
  · have hName : Text.cut '/' name = [name] := by
      have hCut := Text.cut_glue (List.cons_ne_nil name []) (List.forall_mem_singleton.mpr h.noSlash)
      rwa [Text.glue_singleton] at hCut
    rw [within, if_pos (.inr hEmpty), hEmpty, placeOf, hName, walk, List.foldl_cons, List.foldl_nil,
      h.step]
    rfl
  · obtain ⟨front, blanks, hBlanks, hFolder, hWithin⟩ := cut_within hEmpty h.noSlash
    rw [placeOf, placeOf, hFolder, hWithin, walk_append_blanks _ hBlanks, walk_append_singleton,
      h.step]

/-! ### Writing -/

theorem locate_of_write {d d' : Disk} {path text : String} (h : d.write path text = .ok d') :
    d.locate path = .ok (placeOf path) := by
  obtain ⟨p, hLocate, -⟩ := exists_of_bind_eq_ok h
  rw [mapError_eq_ok_iff] at hLocate
  rw [hLocate, placeOf_of_locate hLocate]

/-- Writing puts a file at the place of the path. -/
theorem write_eq_ok {d d' : Disk} {path text : String} (h : d.write path text = .ok d') :
    d.at? (placeOf path) ≠ some .folder ∧ d' = d.put (placeOf path) (.file (some text)) := by
  obtain ⟨p, hLocate, hPut⟩ := exists_of_bind_eq_ok h
  rw [placeOf_of_locate (mapError_eq_ok_iff.mp hLocate)]
  split at hPut
  · cases hPut
  all_goals
    rename_i hAt
    cases hPut
    rw [hAt]
    exact ⟨nofun, rfl⟩

theorem at?_write_of_ne {d d' : Disk} {path text : String} (h : d.write path text = .ok d')
    {p : Place} (hNe : p ≠ placeOf path) : d'.at? p = d.at? p := by
  obtain ⟨hFree, rfl⟩ := write_eq_ok h
  rw [at?_put d _ p _ (ne_root_of_not_folder hFree), if_neg hNe]

/-! ### Making folders -/

theorem exists_blanks (names : List String) : ∃ blanks, (∀ b ∈ blanks, b = "") ∧
    names = (names.reverse.dropWhile (· = "")).reverse ++ blanks := by
  refine ⟨(names.reverse.takeWhile (· = "")).reverse, fun b hb => ?_, ?_⟩
  · exact of_decide_eq_true (List.all_eq_true.mp List.all_takeWhile b (List.mem_reverse.mp hb))
  · rw [← List.reverse_append, List.takeWhile_append_dropWhile, List.reverse_reverse]

/-- A new folder stands where names lead to, and there nothing was. -/
theorem exists_walk_of_makeFolder {d d' : Disk} {path : String} (h : d.makeFolder path = .ok d') :
    (∃ names : List String, names.foldlM d.enter [] = .ok (placeOf path)) ∧
      d.at? (placeOf path) = none ∧ d' = d.put (placeOf path) .folder := by
  obtain ⟨names, hNames, h⟩ := exists_of_bind_eq_ok h
  obtain ⟨blanks, hBlanks, hSplit⟩ := exists_blanks names
  rw [placeOf, namesOf_eq_ok hNames, hSplit, walk_append_blanks _ hBlanks]
  cases hLast : names.reverse.dropWhile (· = "") with
  | nil =>
    rw [hLast] at h
    cases h
  | cons name before =>
    rw [hLast] at h
    obtain ⟨p, hWalk, h⟩ := exists_of_bind_eq_ok h
    obtain ⟨q, hEnter, h⟩ := exists_of_bind_eq_ok h
    have hFollowed : (name :: before).reverse.foldlM d.enter [] = .ok q := by
      rw [List.reverse_cons, List.foldlM_append, hWalk]
      show [name].foldlM d.enter p = .ok q
      rw [List.foldlM_cons, hEnter]
      rfl
    have hPlace : walk (name :: before).reverse = q := foldl_step_of_enter hFollowed
    rw [hPlace]
    split at h
    · cases h
    · split at h
      · cases h
        exact ⟨⟨_, hFollowed⟩, ‹_›, rfl⟩
      · cases h

/-- A new folder stands at the place of the path, where nothing was. -/
theorem makeFolder_eq_ok {d d' : Disk} {path : String} (h : d.makeFolder path = .ok d') :
    d.at? (placeOf path) = none ∧ d' = d.put (placeOf path) .folder :=
  (exists_walk_of_makeFolder h).2

/-- What every new folder keeps, making folders keeps. -/
theorem makeFoldersFrom_induction {P : Disk → Prop} {paths : List String}
    (h : ∀ path ∈ paths, ∀ d d' : Disk, d.makeFolder path = .ok d' → P d → P d')
    {d : Disk} (hd : P d) : P (d.makeFoldersFrom paths).2 := by
  induction paths generalizing d with
  | nil => exact hd
  | cons path before ih =>
    obtain ⟨hHere, hBefore⟩ := List.forall_mem_cons.mp h
    rw [makeFoldersFrom]
    cases hMake : d.makeFolder path with
    | ok d' => exact hHere d d' hMake hd
    | error e =>
      cases e with
      | blocked => exact hd
      | missing =>
        have hRest := ih hBefore hd
        simp only
        cases hFrom : d.makeFoldersFrom before with
        | mk r made =>
          rw [hFrom] at hRest
          cases r with
          | error e => exact hRest
          | ok =>
            simp only
            cases hAgain : made.makeFolder path with
            | ok d' => exact hHere made d' hAgain hRest
            | error e => exact hRest

theorem makeFoldersFrom_keeps {β : Type} (view : Disk → β) {paths : List String}
    (h : ∀ path ∈ paths, ∀ d d' : Disk, d.makeFolder path = .ok d' → view d' = view d)
    (d : Disk) : view (d.makeFoldersFrom paths).2 = view d :=
  makeFoldersFrom_induction (P := fun d' => view d' = view d)
    (fun path hMem d' d'' hMake hView => (h path hMem d' d'' hMake).trans hView) rfl

/-- The paths before a path end on the way. -/
theorem placeOf_mem_of_mem_pathsTo {names : List String} (hNames : ∀ n ∈ names, '/' ∉ n.toList)
    {path : String} (h : path ∈ pathsTo names) : placeOf path ∈ passed names.reverse := by
  induction names with
  | nil => cases h
  | cons name before ih =>
    have hBefore : path ∈ pathsTo before → placeOf path ∈ passed (name :: before).reverse := by
      intro hMem
      rw [List.reverse_cons]
      exact mem_passed_append (ih (List.forall_mem_cons.mp hNames).2 hMem) _
    rw [pathsTo] at h
    split at h
    · exact hBefore h
    · rcases List.mem_cons.mp h with rfl | h
      · have hNe : (name :: before).reverse ≠ [] :=
          List.reverse_ne_nil_iff.mpr (List.cons_ne_nil _ _)
        rw [placeOf, Text.cut_glue hNe fun n hn => hNames n (List.mem_reverse.mp hn)]
        exact walk_mem_passed _
      · exact hBefore h

/-- All folders that are made for a path lie on the way. -/
theorem placeOf_mem_way_of_mem {path path' : String}
    (h : path' ∈ path :: (pathsTo (Text.cut '/' path).reverse).tail) : placeOf path' ∈ way path := by
  rcases List.mem_cons.mp h with rfl | h
  · exact placeOf_mem_way _
  · have hOnWay := placeOf_mem_of_mem_pathsTo
      (fun n hn => Text.not_mem_of_mem_cut (List.mem_reverse.mp hn)) (List.mem_of_mem_tail h)
    rwa [List.reverse_reverse] at hOnWay

theorem makeFolders_keeps {β : Type} (view : Disk → β) {path : String}
    (h : ∀ path', placeOf path' ∈ way path →
      ∀ d d' : Disk, d.makeFolder path' = .ok d' → view d' = view d)
    (d : Disk) : view (d.makeFolders path).2 = view d := by
  rw [makeFolders]
  split
  · rfl
  · exact makeFoldersFrom_keeps view (fun path' hMem => h path' (placeOf_mem_way_of_mem hMem)) d

theorem at?_makeFolder_of_ne {d d' : Disk} {path : String} (h : d.makeFolder path = .ok d')
    {p : Place} (hNe : p ≠ placeOf path) : d'.at? p = d.at? p := by
  obtain ⟨hNone, rfl⟩ := makeFolder_eq_ok h
  have hRoot : placeOf path ≠ [] := ne_root_of_not_folder (by rw [hNone]; nofun)
  rw [at?_put d _ p _ hRoot, if_neg hNe]

/-- **Making folders changes only places on the way.** -/
theorem at?_makeFolders_of_not_mem_way {path : String} {p : Place} (h : p ∉ way path) (d : Disk) :
    (d.makeFolders path).2.at? p = d.at? p := by
  refine makeFolders_keeps (fun d => d.at? p) (fun path' hPath d d' hMake => ?_) d
  refine at?_makeFolder_of_ne hMake fun hEq => h ?_
  rw [hEq]
  exact hPath

/-! ### Folders that are there -/

theorem folder_of_enter {d : Disk} {p q : Place} {name : String} (h : d.enter p name = .ok q) :
    d.at? p = some .folder := by
  unfold enter at h
  split at h
  · cases h
  · cases h
  · assumption

theorem enter_blanks {d : Disk} {p : Place} (h : d.at? p = some .folder) {blanks : List String}
    (hBlanks : ∀ b ∈ blanks, b = "") : blanks.foldlM d.enter p = .ok p := by
  induction blanks with
  | nil => rfl
  | cons b blanks ih =>
    obtain ⟨hBlank, hRest⟩ := List.forall_mem_cons.mp hBlanks
    have hEnter : d.enter p b = .ok p := by
      rw [enter, h]
      exact if_pos (.inl hBlank)
    rw [List.foldlM_cons, hEnter]
    exact ih hRest

theorem namesOf_of_append {path rest : String} {names : List String} (hPath : path ≠ "")
    (h : namesOf (path ++ rest) = .ok names) : namesOf path = .ok (Text.cut '/' path) := by
  obtain ⟨⟨-, hZero, hSize⟩, -⟩ := namesOf_eq_ok_iff.mp h
  rw [String.toList_append, List.mem_append, not_or] at hZero
  rw [String.utf8ByteSize_append] at hSize
  exact namesOf_eq_ok_iff.mpr ⟨⟨hPath, hZero.1, by omega⟩, rfl⟩

theorem exists_within_eq_append {folder : String} (hFolder : folder ≠ "") {name : String}
    (hName : '/' ∉ name.toList) : ∃ rest, within folder name = folder ++ rest := by
  rw [within_of_ne hFolder hName]
  split
  · exact ⟨name, rfl⟩
  · exact ⟨"/" ++ name, String.append_assoc ..⟩

/-- A path in a folder leads somewhere only if the folder is there. -/
theorem exists_folder_of_locate {d : Disk} {folder name : String} {p : Place}
    (hFolder : folder ≠ "") (hName : '/' ∉ name.toList)
    (h : d.locate (within folder name) = .ok p) :
    ∃ q, d.locate folder = .ok q ∧ d.at? q = some .folder := by
  obtain ⟨names, hNames, hWalk⟩ := exists_of_bind_eq_ok h
  obtain ⟨front, blanks, hBlanks, hCut, hWithin⟩ := cut_within hFolder hName
  obtain ⟨rest, hRest⟩ := exists_within_eq_append hFolder hName
  rw [← namesOf_eq_ok hNames, hWithin, List.foldlM_append] at hWalk
  obtain ⟨q, hFront, hLast⟩ := exists_of_bind_eq_ok hWalk
  rw [List.foldlM_cons] at hLast
  obtain ⟨r, hEnter, -⟩ := exists_of_bind_eq_ok hLast
  have hAt := folder_of_enter hEnter
  refine ⟨q, ?_, hAt⟩
  rw [locate, namesOf_of_append hFolder (hRest ▸ hNames)]
  show (Text.cut '/' folder).foldlM d.enter [] = .ok q
  rw [hCut, List.foldlM_append, hFront]
  exact enter_blanks hAt hBlanks

/-- No folder is made where something stands. -/
theorem makeFolder_of_locate {d : Disk} {path : String} {p : Place} {e : Entry}
    (h : d.locate path = .ok p) (hAt : d.at? p = some e) :
    d.makeFolder path = .error (.blocked .taken) := by
  obtain ⟨names, hNames, hWalk⟩ := exists_of_bind_eq_ok h
  obtain ⟨blanks, hBlanks, hSplit⟩ := exists_blanks names
  rw [makeFolder, hNames]
  cases hLast : names.reverse.dropWhile (· = "") with
  | nil => simp only [hLast, bind, Except.bind]
  | cons name before =>
    rw [hSplit, hLast, List.reverse_cons, List.append_assoc, List.foldlM_append] at hWalk
    obtain ⟨r, hBefore, hWalk⟩ := exists_of_bind_eq_ok hWalk
    rw [List.singleton_append, List.foldlM_cons] at hWalk
    obtain ⟨q, hEnter, hWalk⟩ := exists_of_bind_eq_ok hWalk
    have hPlace : q = p := (foldl_step_blanks hBlanks q).symm.trans (foldl_step_of_enter hWalk)
    simp only [hLast, hBefore, hEnter, hPlace, hAt, bind, Except.bind, ite_self]

/-- **A folder that is there need not be made.** -/
theorem makeFolders_of_folder {d : Disk} {path : String} {p : Place} (h : d.locate path = .ok p)
    (hAt : d.at? p = some .folder) : d.makeFolders path = (.ok (), d) := by
  have hFolder : d.isFolder path = true := by
    rw [isFolder, h]
    exact beq_iff_eq.mpr hAt
  rw [makeFolders]
  split
  · rfl
  · rw [makeFoldersFrom, makeFolder_of_locate h hAt]
    simp only [hFolder, if_true]

/-- Where a path in the folder leads somewhere, the folder need not be made. -/
theorem makeFolders_of_within {d : Disk} {folder name : String} {p : Place}
    (hName : '/' ∉ name.toList) (h : d.locate (within folder name) = .ok p) :
    d.makeFolders folder = (.ok (), d) := by
  by_cases hEmpty : folder = ""
  · rw [hEmpty]
    rfl
  · obtain ⟨q, hFolder, hAt⟩ := exists_folder_of_locate hEmpty hName h
    exact makeFolders_of_folder hFolder hAt

/-! ### Files -/

/-- The text of the file at a place, if a file stands there. -/
def fileAt? (d : Disk) (p : Place) : Option (Option String) :=
  match d.at? p with
  | some (.file text) => some text
  | some .folder | none => none

theorem fileAt?_congr {d d' : Disk} {p : Place} (h : d'.at? p = d.at? p) :
    d'.fileAt? p = d.fileAt? p := by
  rw [fileAt?, fileAt?, h]

/-- **Making folders changes no file.** -/
theorem fileAt?_makeFolders (path : String) (p : Place) (d : Disk) :
    (d.makeFolders path).2.fileAt? p = d.fileAt? p := by
  refine makeFolders_keeps (fun d => d.fileAt? p) (fun path' _ d d' hMake => ?_) d
  by_cases hEq : p = placeOf path'
  · obtain ⟨hNone, rfl⟩ := makeFolder_eq_ok hMake
    have hRoot : placeOf path' ≠ [] := ne_root_of_not_folder (by rw [hNone]; nofun)
    rw [fileAt?, fileAt?, at?_put d _ p _ hRoot, if_pos hEq, hEq, hNone]
  · exact fileAt?_congr (at?_makeFolder_of_ne hMake hEq)

end Disk

end DesignSystem
