import DesignSystem.Proofs.Mishap
/-!
# New folders on the way

Making the folders of a path adds folders on the way and nothing else (`Disk.Furnished`), however
far it gets. Does that show in what is read in the last of these folders? Where the folder was
there, nothing is new. Where it was missing, so is still everything in it, with one exception: while
a folder is missing nobody looks at the names behind it, and once it is there they may lead back out
of it or turn out to be too long. If that is not so, the path is `Disk.Steady`, and new folders do
not show (`Disk.Furnished.read_eq`).
-/

namespace DesignSystem

namespace Disk

variable {d d' d'' : Disk} {p q : Place} {path : String}

/-! ### New folders on the way -/

/-- The one disk is the other with new folders on the way of a path. -/
structure Furnished (path : String) (d d' : Disk) : Prop where
  kept : ∀ p e, d.at? p = some e → d'.at? p = some e
  new : ∀ p, d.at? p = none → d'.at? p = none ∨ d'.at? p = some .folder ∧ p ∈ way path

theorem furnished_refl (path : String) (d : Disk) : Furnished path d d :=
  ⟨fun _ _ h => h, fun _ h => Or.inl h⟩

theorem Furnished.makeFolder (h : Furnished path d d') {path' : String}
    (hWay : placeOf path' ∈ way path) (hMake : d'.makeFolder path' = .ok d'') :
    Furnished path d d'' := by
  obtain ⟨hNone, rfl⟩ := makeFolder_eq_ok hMake
  have hAt := fun q => at?_put d' (placeOf path') q .folder
    (ne_root_of_not_folder (by rw [hNone]; nofun))
  constructor
  · intro q e hq
    have hKept := h.kept q e hq
    rw [hAt, if_neg]
    · exact hKept
    · rintro rfl
      rw [hNone] at hKept
      cases hKept
  · intro q hq
    rw [hAt]
    split
    · rename_i hHere
      exact Or.inr ⟨rfl, hHere ▸ hWay⟩
    · exact h.new q hq

/-- **However many of the folders are made**, they are new folders on the way. -/
theorem furnished_beginFolders (d : Disk) (path : String) (skipped : Nat) :
    Furnished path d (d.beginFolders path skipped) := by
  rw [beginFolders]
  split
  · exact furnished_refl path d
  · exact makeFoldersFrom_induction (fun path' hMem _ _ hMake hMade =>
      hMade.makeFolder (placeOf_mem_way_of_mem (List.mem_of_mem_drop hMem)) hMake)
      (furnished_refl path d)

theorem walk_of_foldlM {names : List String} (h : names.foldlM d.enter [] = .ok q) :
    walk names = q :=
  foldl_step_of_enter h

/-- Where a path is followed to a folder, all on the way are folders. -/
theorem folder_of_mem_way (h : d.locate path = .ok p) (hAt : d.at? p = some .folder)
    (hq : q ∈ way path) : d.at? q = some .folder := by
  obtain ⟨names, hNames, hWalk⟩ := exists_of_bind_eq_ok h
  obtain ⟨front, ⟨rest, hSplit⟩, rfl⟩ := mem_passed_iff.mp hq
  rw [← namesOf_eq_ok hNames, ← hSplit, List.foldlM_append] at hWalk
  obtain ⟨r, hFront, hRest⟩ := exists_of_bind_eq_ok hWalk
  rw [walk_of_foldlM hFront]
  cases rest with
  | nil =>
    cases hRest
    exact hAt
  | cons name rest =>
    rw [List.foldlM_cons] at hRest
    obtain ⟨r', hEnter, -⟩ := exists_of_bind_eq_ok hRest
    exact folder_of_enter hEnter

theorem way_empty (hq : q ∈ way "") : q = [] := by
  obtain ⟨front, hFront, rfl⟩ := mem_passed_iff.mp hq
  have hBlank : ∀ b ∈ front, b = "" := fun b hb => List.mem_singleton.mp (hFront.subset hb)
  exact foldl_step_blanks hBlank []

/-- A name is found only where all on the way to its folder are folders. -/
theorem folder_of_mem_way_of_within {folder name : String} (hName : '/' ∉ name.toList)
    (h : d.locate (within folder name) = .ok p) (hq : q ∈ way folder) :
    d.at? q = some .folder := by
  by_cases hEmpty : folder = ""
  · rw [hEmpty] at hq
    rw [way_empty hq]
    rfl
  · obtain ⟨r, hFolder, hAt⟩ := exists_folder_of_locate hEmpty hName h
    exact folder_of_mem_way hFolder hAt hq

/-- Then nothing new is made. -/
theorem Furnished.at?_eq (h : Furnished path d d') (hWay : ∀ q ∈ way path, d.at? q = some .folder)
    (q : Place) : d'.at? q = d.at? q := by
  cases hq : d.at? q with
  | some e => exact h.kept q e hq
  | none =>
    rcases h.new q hq with hNone | ⟨-, hMem⟩
    · exact hNone
    · rw [hWay q hMem] at hq
      cases hq

theorem Furnished.fileAt?_eq (h : Furnished path d d') (q : Place) :
    d'.fileAt? q = d.fileAt? q := by
  cases hq : d.at? q with
  | some e => exact fileAt?_congr ((h.kept q e hq).trans hq.symm)
  | none =>
    rw [fileAt?, fileAt?, hq]
    rcases h.new q hq with hNone | ⟨hFolder, -⟩
    · rw [hNone]
    · rw [hFolder]

theorem enter_congr {name : String} (h : d'.at? p = d.at? p) : d'.enter p name = d.enter p name := by
  rw [enter, enter, h]

theorem read_congr (h : ∀ q, d'.at? q = d.at? q) (path : String) : d'.read path = d.read path := by
  have hEnter : d'.enter = d.enter := funext fun p => funext fun _ => enter_congr (h p)
  have hAt : d'.at? = d.at? := funext h
  rw [read, read, locate, locate, hEnter, hAt]

/-- A walk that does not end for want of something goes on as before. -/
theorem foldlM_enter_of_kept (h : ∀ p e, d.at? p = some e → d'.at? p = some e)
    (names : List String) (hWalk : names.foldlM d.enter p ≠ .error .missing) :
    names.foldlM d'.enter p = names.foldlM d.enter p := by
  induction names generalizing p with
  | nil => rfl
  | cons name names ih =>
    rw [List.foldlM_cons] at hWalk ⊢
    rw [List.foldlM_cons]
    have hHere : d'.enter p name = d.enter p name := by
      refine enter_congr ?_
      cases hp : d.at? p with
      | some e => exact h p e hp
      | none =>
        rw [enter, hp] at hWalk
        exact absurd rfl hWalk
    rw [hHere]
    cases hEnter : d.enter p name with
    | error e => rfl
    | ok q =>
      rw [hEnter] at hWalk
      exact ih hWalk

/-! ### Behind a missing folder -/

/-- From the first missing folder on, no name of the path leads back and none is too long. -/
def Steady (d : Disk) (path : String) : Prop :=
  ∀ front name back, Text.cut '/' path = front ++ name :: back →
    (front ++ [name]).foldlM d.enter [] = .error .missing →
    name ≠ ".." ∧ name.utf8ByteSize ≤ maxNameSize

/-- Where the folder is there, nothing of its path is missing. -/
theorem steady_of_locate (h : d.locate path = .ok p) : d.Steady path := by
  intro front name back hCut hMissing
  obtain ⟨names, hNames, hWalk⟩ := exists_of_bind_eq_ok h
  have hSplit : names = (front ++ [name]) ++ back := by
    rw [← namesOf_eq_ok hNames, hCut, List.append_assoc, List.singleton_append]
  rw [hSplit, List.foldlM_append, hMissing] at hWalk
  cases hWalk

theorem exists_missing {names : List String} (h : names.foldlM d.enter p = .error .missing) :
    ∃ front name back q, names = front ++ name :: back ∧ front.foldlM d.enter p = .ok q ∧
      d.at? q = none := by
  induction names generalizing p with
  | nil => cases h
  | cons name names ih =>
    rw [List.foldlM_cons] at h
    cases hEnter : d.enter p name with
    | ok r =>
      rw [hEnter] at h
      obtain ⟨front, name', back, q, rfl, hFront, hNone⟩ := ih h
      refine ⟨name :: front, name', back, q, rfl, ?_, hNone⟩
      rw [List.foldlM_cons, hEnter]
      exact hFront
    | error e =>
      rw [hEnter] at h
      cases h
      refine ⟨[], name, names, p, rfl, rfl, ?_⟩
      unfold enter at hEnter
      split at hEnter
      · assumption
      · cases hEnter
      · split at hEnter
        · cases hEnter
        · split at hEnter
          · cases hEnter
          · split at hEnter <;> cases hEnter

/-- Nothing lies below a missing place. -/
theorem Rooted.none_below (h : d.Rooted) (hNone : d.at? q = none) (more : Place) :
    d.at? (q ++ more) = none := by
  induction more using List.reverseRecOn with
  | nil => rwa [List.append_nil]
  | append_singleton more name ih =>
    rw [← List.append_assoc]
    cases hAt : d.at? (q ++ more ++ [name]) with
    | none => rfl
    | some e =>
      rw [h _ name e hAt] at ih
      cases ih

/-- Names that do not lead back lead further down. -/
theorem exists_foldl_step {names : List String} (h : ∀ n ∈ names, n ≠ "..") (p : Place) :
    ∃ more, names.foldl step p = p ++ more := by
  induction names generalizing p with
  | nil => exact ⟨[], (List.append_nil p).symm⟩
  | cons name names ih =>
    obtain ⟨hName, hRest⟩ := List.forall_mem_cons.mp h
    rw [List.foldl_cons, step]
    split
    · exact ih hRest p
    · obtain ⟨more, hMore⟩ := ih hRest (p ++ [name])
      exact ⟨name :: more, by rw [hMore, List.append_assoc, List.singleton_append]⟩

/-- Where there are no files, only a missing folder keeps such names from being followed. -/
theorem missing_of_walk {names : List String}
    (hNames : ∀ n ∈ names, n ≠ ".." ∧ n.utf8ByteSize ≤ maxNameSize)
    (hFiles : ∀ more text, d.at? (p ++ more) ≠ some (.file text)) {e : Error}
    (h : names.foldlM d.enter p = .error e) : e = .missing := by
  induction names generalizing p with
  | nil => cases h
  | cons name names ih =>
    obtain ⟨⟨hBack, hShort⟩, hRest⟩ := List.forall_mem_cons.mp hNames
    rw [List.foldlM_cons, enter] at h
    cases hp : d.at? p with
    | none =>
      rw [hp] at h
      cases h
      rfl
    | some entry =>
      cases entry with
      | file text => exact absurd (by rw [List.append_nil, hp]) (hFiles [] text)
      | folder =>
        rw [hp] at h
        simp only [if_neg hBack, if_neg (Nat.not_lt.mpr hShort)] at h
        split at h
        · exact ih hRest hFiles h
        · refine ih hRest (fun more text => ?_) h
          rw [List.append_assoc]
          exact hFiles _ text

theorem walk_append {front : List String} (hFront : front.foldlM d.enter [] = .ok q)
    (back : List String) : walk (front ++ back) = back.foldl step q := by
  rw [walk, List.foldl_append, ← walk, walk_of_foldlM hFront]

/-- What lies on a way that can be gone is a folder, or the end of the way. -/
theorem at?_walk_of_prefix {front start : List String} (hFront : front.foldlM d.enter [] = .ok q)
    (hStart : start <+: front) : walk start = q ∨ d.at? (walk start) = some .folder := by
  obtain ⟨rest, rfl⟩ := hStart
  cases rest with
  | nil =>
    rw [List.append_nil] at hFront
    exact Or.inl (walk_of_foldlM hFront)
  | cons n rest =>
    rw [List.foldlM_append] at hFront
    obtain ⟨r, hThere, hOn⟩ := exists_of_bind_eq_ok hFront
    rw [List.foldlM_cons] at hOn
    obtain ⟨r', hEnter, -⟩ := exists_of_bind_eq_ok hOn
    rw [walk_of_foldlM hThere]
    exact Or.inr (folder_of_enter hEnter)

/-- More names that do not lead back never lead less far down. -/
theorem length_foldl_step_le {names rest : List String} (hNames : ∀ n ∈ names, n ≠ "..")
    (hRest : rest <+: names) (p : Place) :
    (rest.foldl step p).length ≤ (names.foldl step p).length := by
  obtain ⟨tail, rfl⟩ := hRest
  obtain ⟨deeper, hDeeper⟩ := exists_foldl_step
    (fun n hn => hNames n (List.mem_append_right rest hn)) (rest.foldl step p)
  rw [List.foldl_append, hDeeper, List.length_append]
  omega

/-- Behind a missing folder a file is missing, and no new folder takes its place. -/
theorem Furnished.missing {folder name : String} (h : Furnished folder d d') (hRooted : d.Rooted)
    (hName : IsPlain name) {front back : List String} (hFolder : Text.cut '/' folder = front ++ back)
    (hBack : ∀ n ∈ back, n ≠ "..") (hFront : front.foldlM d.enter [] = .ok q)
    (hNone : d.at? q = none) : d'.at? (placeOf (within folder name)) = none := by
  obtain ⟨more, hMore⟩ := exists_foldl_step hBack q
  have hPlace : placeOf (within folder name) = q ++ more ++ [name] := by
    rw [placeOf_within folder hName, placeOf, hFolder, walk_append hFront, hMore]
  have hBelow : d.at? (q ++ more ++ [name]) = none := by
    rw [List.append_assoc]
    exact hRooted.none_below hNone _
  rw [hPlace]
  rcases h.new _ hBelow with hStill | ⟨-, hWay⟩
  · exact hStill
  · exfalso
    obtain ⟨start, hStart, hWalk⟩ := mem_passed_iff.mp hWay
    rw [hFolder] at hStart
    -- The way of the folder lies on the way to what is missing, or it does not lead as far down.
    rcases List.prefix_or_prefix_of_prefix hStart (List.prefix_append front back) with
      hShort | ⟨rest, rfl⟩
    · rcases at?_walk_of_prefix hFront hShort with hEnd | hThere
      · have hLength := congrArg List.length (hWalk.symm.trans hEnd)
        simp only [List.length_append, List.length_singleton] at hLength
        omega
      · rw [hWalk, hBelow] at hThere
        cases hThere
    · have hLength := length_foldl_step_le hBack ((List.prefix_append_right_inj front).mp hStart) q
      rw [← walk_append hFront, hWalk, hMore] at hLength
      simp only [List.length_append, List.length_singleton] at hLength
      omega

theorem walk_of_none {names : List String} (hNone : d.at? q = none) (hNames : names ≠ []) :
    names.foldlM d.enter q = .error .missing := by
  cases names with
  | nil => exact absurd rfl hNames
  | cons name names =>
    rw [List.foldlM_cons, enter, hNone]
    rfl

/-- Where the way to a name in a folder breaks off. Behind the missing folder come the rest of the
folder's names and the name itself. -/
theorem exists_missing_within {folder name : String} (hFolder : folder ≠ "") (hName : IsPlain name)
    {names : List String} (hNames : namesOf (within folder name) = .ok names)
    (hWalk : names.foldlM d.enter [] = .error .missing) :
    ∃ front back blanks q, Text.cut '/' folder = front ++ (back ++ blanks) ∧
      (∀ n ∈ blanks, n = "") ∧ names = front ++ (back ++ [name]) ∧
      front.foldlM d.enter [] = .ok q ∧ d.at? q = none := by
  obtain ⟨way, blanks, hBlanks, hCut, hWithin⟩ := cut_within hFolder hName.noSlash
  obtain ⟨front, next, rest, q, hSplit, hFront, hNone⟩ := exists_missing hWalk
  obtain ⟨back, last, hLast⟩ :=
    (List.eq_nil_or_concat (next :: rest)).resolve_left (List.cons_ne_nil _ _)
  rw [List.concat_eq_append] at hLast
  have hWay : way ++ [name] = (front ++ back) ++ [last] := by
    rw [← hWithin, namesOf_eq_ok hNames, hSplit, hLast, List.append_assoc]
  obtain ⟨rfl, hSame⟩ := List.append_inj' hWay rfl
  cases hSame
  exact ⟨front, back, blanks, q, by rw [hCut, List.append_assoc], hBlanks, by rw [hSplit, hLast],
    hFront, hNone⟩

/-- What a steady path has behind its first missing folder. -/
theorem Steady.plain {path : String} (h : d.Steady path) {front back blanks : List String}
    (hCut : Text.cut '/' path = front ++ (back ++ blanks)) (hFront : front.foldlM d.enter [] = .ok q)
    (hNone : d.at? q = none) : ∀ n ∈ back, n ≠ ".." ∧ n.utf8ByteSize ≤ maxNameSize := by
  intro n hn
  obtain ⟨before, after, rfl⟩ := List.append_of_mem hn
  refine h (front ++ before) n (after ++ blanks) ?_ ?_
  · rw [hCut]
    simp only [List.append_assoc, List.cons_append]
  · rw [List.append_assoc, List.foldlM_append, hFront]
    exact walk_of_none hNone (List.append_ne_nil_of_right_ne_nil _ (List.cons_ne_nil _ _))

/-- New folders bring no files to where nothing was. -/
theorem Furnished.ne_file {folder : String} (h : Furnished folder d d') (hRooted : d.Rooted)
    (hNone : d.at? q = none) (more : Place) (text : Option String) :
    d'.at? (q ++ more) ≠ some (.file text) := by
  intro hFile
  rcases h.new _ (hRooted.none_below hNone more) with hStill | ⟨hMade, -⟩
  · rw [hStill] at hFile
    cases hFile
  · rw [hMade] at hFile
    cases hFile

/-- If a name in a folder is missing for want of a folder, it is still missing when there are new
folders on the way. -/
theorem Furnished.read_missing {folder name : String} (h : Furnished folder d d')
    (hRooted : d.Rooted) (hSteady : d.Steady folder) (hFolder : folder ≠ "") (hName : IsPlain name)
    (hShort : name.utf8ByteSize ≤ maxNameSize) {names : List String}
    (hNames : namesOf (within folder name) = .ok names)
    (hWalk : names.foldlM d.enter [] = .error .missing) :
    d'.read (within folder name) = .error .missing := by
  obtain ⟨front, back, blanks, q, hCut, hBlanks, rfl, hFront, hNone⟩ :=
    exists_missing_within hFolder hName hNames hWalk
  have hPlain : ∀ n ∈ back, n ≠ ".." ∧ n.utf8ByteSize ≤ maxNameSize :=
    hSteady.plain hCut hFront hNone
  cases hPath : d'.locate (within folder name) with
  | error e =>
    have hKept : front.foldlM d'.enter [] = .ok q := by
      rw [foldlM_enter_of_kept h.kept, hFront]
      rw [hFront]
      nofun
    have hAgain : (front ++ (back ++ [name])).foldlM d'.enter [] =
        (back ++ [name]).foldlM d'.enter q := by
      rw [List.foldlM_append, hKept]
      rfl
    have hEnds : (back ++ [name]).foldlM d'.enter q = .error e := by
      rw [← hAgain, ← hPath, locate, hNames]
      rfl
    have hShortNames : ∀ n ∈ back ++ [name], n ≠ ".." ∧ n.utf8ByteSize ≤ maxNameSize := by
      intro n hn
      rcases List.mem_append.mp hn with hn | hn
      · exact hPlain n hn
      · rw [List.mem_singleton.mp hn]
        exact ⟨hName.notDots, hShort⟩
    rw [read, hPath, missing_of_walk hShortNames (h.ne_file hRooted hNone) hEnds]
    rfl
  | ok p =>
    have hDown : ∀ n ∈ back ++ blanks, n ≠ ".." := by
      intro n hn
      rcases List.mem_append.mp hn with hn | hn
      · exact (hPlain n hn).1
      · rw [hBlanks n hn]
        decide
    have hGone := h.missing hRooted hName hCut hDown hFront hNone
    rw [placeOf_of_locate hPath] at hGone
    rw [read, hPath]
    simp only [bind, Except.bind, hGone]

/-- **New folders do not show** in what is read in the folder. -/
theorem Furnished.read_eq {folder name : String} (h : Furnished folder d d') (hRooted : d.Rooted)
    (hSteady : d.Steady folder) (hName : IsPlain name)
    (hShort : name.utf8ByteSize ≤ maxNameSize) :
    d'.read (within folder name) = d.read (within folder name) := by
  by_cases hEmpty : folder = ""
  · refine read_congr (h.at?_eq fun q hq => ?_) _
    rw [hEmpty] at hq
    rw [way_empty hq]
    rfl
  · cases hNames : namesOf (within folder name) with
    | error e =>
      rw [read, read, locate, locate, hNames]
      rfl
    | ok names =>
      by_cases hMissing : names.foldlM d.enter [] = .error .missing
      · rw [h.read_missing hRooted hSteady hEmpty hName hShort hNames hMissing, read, locate, hNames]
        show _ = (names.foldlM d.enter [] >>= _)
        rw [hMissing]
        rfl
      · have hSame := foldlM_enter_of_kept h.kept names hMissing
        cases hPath : d.locate (within folder name) with
        | ok p =>
          have hWay := fun q hq => folder_of_mem_way_of_within hName.noSlash hPath (q := q) hq
          exact read_congr (h.at?_eq hWay) _
        | error e =>
          have hPath' : d'.locate (within folder name) = .error e := by
            rw [← hPath, locate, locate, hNames]
            exact hSame
          rw [read, read, hPath, hPath']
          rfl

/-! ### Names side by side -/

/-- A name is found in a folder that is there. -/
theorem locate_within {folder name : String} {names : List String}
    (hFolder : d.locate folder = .ok q) (hAt : d.at? q = some .folder) (hEmpty : folder ≠ "")
    (hName : IsPlain name) (hShort : name.utf8ByteSize ≤ maxNameSize)
    (hNames : namesOf (within folder name) = .ok names) :
    d.locate (within folder name) = .ok (q ++ [name]) := by
  obtain ⟨way, blanks, hBlanks, hCut, hWithin⟩ := cut_within hEmpty hName.noSlash
  obtain ⟨names', hNames', hWalk⟩ := exists_of_bind_eq_ok hFolder
  rw [← namesOf_eq_ok hNames', hCut, List.foldlM_append] at hWalk
  obtain ⟨r, hWay, hRest⟩ := exists_of_bind_eq_ok hWalk
  obtain rfl : r = q := (foldl_step_blanks hBlanks r).symm.trans (foldl_step_of_enter hRest)
  have hEnter : d.enter r name = .ok (r ++ [name]) := by
    rw [enter, hAt]
    simp only [hName.notEmpty, hName.notDot, hName.notDots, or_self, if_false,
      if_neg (Nat.not_lt.mpr hShort)]
  rw [locate, hNames]
  show names.foldlM d.enter [] = _
  rw [← namesOf_eq_ok hNames, hWithin, List.foldlM_append, hWay]
  show [name].foldlM d.enter r = _
  rw [List.foldlM_cons, hEnter]
  rfl

end Disk

end DesignSystem
