import DesignSystem.Proofs.Shell.Effects
import DesignSystem.Proofs.Studio.Alike
import DesignSystem.Proofs.Studio.Persistence
/-!
# A session of commands

Every command for brands opens the studio of a folder, changes it and saves it again, so the studio
of a session goes through a text after each command. It could as well be kept in memory. Here the
two are run side by side: the shell on a workbench, and a studio on which the operations are
performed that the commands stand for (`BrandCommand.operations?`).

What relates them after each command is `Follows`: the file holds the text of a studio that is alike
to the one in memory, and that is one of those that come back from their text. One step keeps this
(`Follows.step`), and so do all commands.
-/

namespace DesignSystem.Shell

open Studio (Operation Alike Anchored Distinct)

/-! ### The session in memory -/

/-- The brand that a key names. Identifiers go before names. -/
def brandNamed? (s : Studio) (key : String) : Option Brand :=
  (s.brand? key).or (s.brands.find? fun b => b.name == key)

/-- The operations by which a brand is put to use, with the theme of a mode if one is given. -/
def useOperations (mode : Option Mode) (id : String) : List Operation :=
  .selectBrand id :: (mode.map Operation.switchMode).toList

/-- The operations on a studio that a command stands for, with identifiers and a time for a new brand,
or nothing if the command names no brand of the studio. -/
def BrandCommand.operations? (c : BrandCommand) (s : Studio) (ids : Brand.Ids) (now : Instant) :
    Option (List Operation) :=
  match c with
  | .list => some []
  | .create name description => some [.createBrand ids now name description]
  | .delete key => (brandNamed? s key).map fun b => [.deleteBrand b.id]
  | .use key mode => (brandNamed? s key).map fun b => useOperations mode b.id

/-- The studio after the operations of a command, or nothing if it names no brand or an operation is
refused. -/
def BrandCommand.perform? (c : BrandCommand) (s : Studio) (ids : Brand.Ids) (now : Instant) :
    Option Studio :=
  (c.operations? s ids now).bind s.performAll?

/-- How many identifiers a command draws. -/
def BrandCommand.draws : BrandCommand → Nat
  | .create .. => 3
  | .list | .delete _ | .use .. => 0

/-- The identifiers of a new brand if `n` identifiers have been drawn. -/
def idsFrom (ids : Nat → String) (n : Nat) : Brand.Ids :=
  ⟨ids n, ids (n + 1), ids (n + 2)⟩

/-- A studio in memory, and how many identifiers have been drawn. -/
structure Memory where
  studio : Studio
  drawn : Nat

namespace Memory

/-- The studio after a command, or nothing if it fails. -/
def perform? (ids : Nat → String) (m : Memory) (c : BrandCommand) (now : Instant) : Option Memory :=
  (c.perform? m.studio (idsFrom ids m.drawn) now).map fun studio => ⟨studio, m.drawn + c.draws⟩

/-- The studio after commands, each at a time. A command that fails changes nothing. -/
def run (ids : Nat → String) (m : Memory) (commands : List (BrandCommand × Instant)) : Memory :=
  commands.foldl (fun m c => (m.perform? ids c.1 c.2).getD m) m

end Memory

/-! ### The session of the shell -/

/-- The invocation of a command for brands on the studio of a folder. -/
def BrandCommand.invocation (folder : String) (c : BrandCommand) : Invocation :=
  ⟨none, false, some folder, false, .brand c⟩

/-- The workbench after commands for brands, each run on its own. -/
def runCommands (folder : String) (commands : List BrandCommand) (w : Workbench) : Workbench :=
  commands.foldl (fun w c => ((c.invocation folder).run.run.run w).2) w

/-! ### Commands and operations -/

theorem findBrand_eq (s : Studio) (key : String) : findBrand s key =
    match brandNamed? s key with
    | some b => .ok b.id
    | none => .error (.noBrand key) := rfl

theorem toOption_deleteBrand (s : Studio) (key : String) (ids : Brand.Ids) (now : Instant) :
    (deleteBrand s key).toOption = (BrandCommand.delete key).perform? s ids now := by
  rw [deleteBrand, findBrand_eq, BrandCommand.perform?, BrandCommand.operations?]
  cases brandNamed? s key with
  | none => rfl
  | some b =>
    rw [Option.map_some, Option.bind_some, Studio.performAll?_cons, Studio.perform?]
    show ((s.deleteBrand b.id).mapError _).toOption = _
    cases s.deleteBrand b.id <;> rfl

theorem toOption_useBrand (s : Studio) (key : String) (mode : Option Mode) (ids : Brand.Ids)
    (now : Instant) :
    (useBrand s key mode).toOption = (BrandCommand.use key mode).perform? s ids now := by
  rw [useBrand, findBrand_eq, BrandCommand.perform?, BrandCommand.operations?]
  cases brandNamed? s key with
  | none => rfl
  | some b =>
    rw [Option.map_some, Option.bind_some, useOperations, Studio.performAll?_cons, Studio.perform?]
    show (do let s ← (s.selectBrand b.id).mapError _; pure ((mode.map s.switchMode).getD s) :
      Except Failure Studio).toOption = _
    cases s.selectBrand b.id with
    | error r => rfl
    | ok s' => cases mode <;> rfl

/-- **A command makes the same of a studio in the shell as in memory**, and fails where it fails
there. -/
theorem run_changeBrands (s : Studio) (c : BrandCommand) (w : Workbench) :
    ∃ r w', (changeBrands s c).run.run w = (r, w') ∧
      (r.toOption.map fun change => change.1.getD s) =
        c.perform? s (idsFrom w.ids w.usedIds) (w.times w.usedTimes) ∧
      w'.disk = w.disk ∧ w'.ids = w.ids ∧ w'.usedIds = w.usedIds + c.draws := by
  cases c with
  | list => exact ⟨_, w, rfl, rfl, rfl, rfl, rfl⟩
  | create name description => exact ⟨_, _, rfl, rfl, rfl, rfl, rfl⟩
  | delete key =>
    rw [← toOption_deleteBrand, changeBrands]
    cases deleteBrand s key with
    | error e => exact ⟨_, w, rfl, rfl, rfl, rfl, rfl⟩
    | ok s' => exact ⟨_, w, rfl, rfl, rfl, rfl, rfl⟩
  | use key mode =>
    rw [← toOption_useBrand, changeBrands]
    cases useBrand s key mode with
    | error e => exact ⟨_, w, rfl, rfl, rfl, rfl, rfl⟩
    | ok s' => exact ⟨_, w, rfl, rfl, rfl, rfl, rfl⟩

theorem draws_of_refused {c : BrandCommand} {s : Studio} {ids : Brand.Ids} {now : Instant}
    (h : c.perform? s ids now = none) : c.draws = 0 := by
  cases c with
  | create name description => cases h
  | _ => rfl

/-! ### Alike studios -/

theorem brandNamed?_of_alike {s s' : Studio} (h : Alike s s') (key : String) :
    (brandNamed? s key).map Brand.id = (brandNamed? s' key).map Brand.id := by
  have hIds := h.find?_map_eq (p := fun b => b.id == key) fun _ => rfl
  have hNames := h.find?_map_eq (p := fun b => b.name == key) fun _ => rfl
  have hNamed : (brandNamed? s key).map Brand.timeless = (brandNamed? s' key).map Brand.timeless := by
    rw [brandNamed?, brandNamed?, Option.map_or, Option.map_or, Studio.brand?, Studio.brand?, hIds,
      hNames]
  have hMapped := congrArg (Option.map Brand.id) hNamed
  rwa [Option.map_map, Option.map_map] at hMapped

theorem performAll?_named_of_alike {s s' : Studio} (h : Alike s s') (key : String)
    {f : String → List Operation} (hf : ∀ id, ∀ op ∈ f id, op.isTimeless = true) :
    Option.Rel Alike (((brandNamed? s key).map fun b => f b.id).bind s.performAll?)
      (((brandNamed? s' key).map fun b => f b.id).bind s'.performAll?) := by
  have hId := congrArg (Option.map f) (brandNamed?_of_alike h key)
  rw [Option.map_map, Option.map_map] at hId
  show Option.Rel Alike (((brandNamed? s key).map (f ∘ Brand.id)).bind _) _
  rw [hId]
  show Option.Rel Alike _ (((brandNamed? s' key).map (f ∘ Brand.id)).bind _)
  cases brandNamed? s' key with
  | none => exact .none
  | some b => exact h.performAll? (hf b.id)

theorem isTimeless_useOperations (mode : Option Mode) (id : String) :
    ∀ op ∈ useOperations mode id, op.isTimeless = true := by
  refine List.forall_mem_cons.mpr ⟨rfl, ?_⟩
  cases mode with
  | none =>
    intro op hOp
    cases hOp
  | some mode => exact List.forall_mem_singleton.mpr rfl

/-- **Of alike studios a command makes alike ones**, whatever the time, or fails for both. -/
theorem perform?_of_alike {s s' : Studio} (h : Alike s s') (c : BrandCommand) (ids : Brand.Ids)
    (now now' : Instant) :
    Option.Rel Alike (c.perform? s ids now) (c.perform? s' ids now') := by
  cases c with
  | list => exact .some h
  | create name description => exact .some (h.createBrand ids now now' name description)
  | delete key =>
    have hTimeless : ∀ id, ∀ op ∈ [Operation.deleteBrand id], op.isTimeless = true :=
      fun id => List.forall_mem_singleton.mpr rfl
    exact performAll?_named_of_alike h key hTimeless
  | use key mode => exact performAll?_named_of_alike h key (isTimeless_useOperations mode)

/-! ### Studios that come back -/

/-- The studio comes back from its text: a theme is active, it is found by its identifier, and every
tree is read as it was written. -/
structure Sound (used : List String) (s : Studio) : Prop where
  anchored : Anchored s
  distinct : Distinct used s.brands
  storable : s.Storable

theorem sound_openAt {used : List String} {s : Studio} (h : Sound used s) :
    Sound used (Studio.openAt s.brands s.brandIndex s.themeIndex) :=
  ⟨⟨h.anchored.themed, h.anchored.active⟩, h.distinct, h.storable⟩

theorem keepsTrees_of_isTimeless {op : Operation} (h : op.isTimeless = true) :
    op.keepsTrees = true := by
  cases op with
  | deleteBrand id => rfl
  | selectBrand id => rfl
  | switchMode mode => rfl
  | _ => cases h

theorem keepsTrees_operations {c : BrandCommand} {s : Studio} {ids : Brand.Ids} {now : Instant}
    {ops : List Operation} (h : c.operations? s ids now = some ops) :
    ∀ op ∈ ops, op.keepsTrees = true := by
  cases c with
  | list =>
    cases h
    intro op hOp
    cases hOp
  | create name description =>
    cases h
    exact List.forall_mem_singleton.mpr rfl
  | delete key =>
    obtain ⟨b, -, rfl⟩ := Option.map_eq_some_iff.mp h
    exact List.forall_mem_singleton.mpr rfl
  | use key mode =>
    obtain ⟨b, -, rfl⟩ := Option.map_eq_some_iff.mp h
    exact fun op hOp => keepsTrees_of_isTimeless (isTimeless_useOperations mode b.id op hOp)

/-- A command takes the identifiers that it draws. -/
theorem taken_operations {c : BrandCommand} {s : Studio} {ids : Nat → String} {n : Nat}
    {now : Instant} {ops : List Operation} (h : c.operations? s (idsFrom ids n) now = some ops) :
    ops.flatMap Operation.taken = (List.range c.draws).map fun i => ids (n + i) := by
  cases c with
  | list =>
    cases h
    rfl
  | create name description =>
    cases h
    rfl
  | delete key =>
    obtain ⟨b, -, rfl⟩ := Option.map_eq_some_iff.mp h
    rfl
  | use key mode =>
    obtain ⟨b, -, rfl⟩ := Option.map_eq_some_iff.mp h
    cases mode <;> rfl

/-- The first identifiers of a supply. -/
def idsBelow (ids : Nat → String) (n : Nat) : List String :=
  (List.range n).map ids

theorem idsBelow_add (ids : Nat → String) (n k : Nat) :
    idsBelow ids (n + k) = idsBelow ids n ++ (List.range k).map fun i => ids (n + i) := by
  rw [idsBelow, List.range_add, List.map_append, List.map_map]
  rfl

theorem nodup_idsBelow {ids : Nat → String} (h : Function.Injective ids) (n : Nat) :
    (idsBelow ids n).Nodup :=
  List.nodup_range.map h

/-- **What a command makes of such a studio is one again.** -/
theorem Sound.perform? {ids : Nat → String} (hIds : Function.Injective ids) {n : Nat}
    {s s' : Studio} (h : Sound (idsBelow ids n) s) {c : BrandCommand} {now : Instant}
    (hPerform : c.perform? s (idsFrom ids n) now = some s') :
    Sound (idsBelow ids (n + c.draws)) s' := by
  obtain ⟨ops, hOps, hAll⟩ := Option.bind_eq_some_iff.mp hPerform
  have hRun := Studio.run_of_performAll? hAll
  have hUsed : idsBelow ids n ++ ops.flatMap Operation.taken = idsBelow ids (n + c.draws) := by
    rw [taken_operations hOps, idsBelow_add]
  have hFresh : (idsBelow ids n ++ ops.flatMap Operation.taken).Nodup := by
    rw [hUsed]
    exact nodup_idsBelow hIds _
  subst hRun
  refine ⟨?_, ?_, ?_⟩
  · exact Studio.run_induction (P := Anchored) (fun _ op hAnchored =>
      Studio.anchored_perform hAnchored op) ops s h.anchored
  · rw [← hUsed]
    exact Studio.distinct_run ops h.distinct hFresh
  · exact Studio.storable_run h.storable (keepsTrees_operations hOps)

theorem Sound.mono {ids : Nat → String} {n : Nat} {s : Studio} (h : Sound (idsBelow ids n) s)
    (k : Nat) : Sound (idsBelow ids (n + k)) s := by
  refine ⟨h.anchored, h.distinct.mono ?_, h.storable⟩
  rw [idsBelow_add]
  exact List.subset_append_left ..

/-! ### One command -/

/-- The store holds the text of a studio that comes back, and the studio in memory is alike. -/
structure Follows (f : FolderStore) (w : Workbench) (s : Studio) (m : Memory) : Prop where
  usable : f.Usable w.disk
  text : w.disk.read f.path = .ok s.snapshot.toJson.pretty
  sound : Sound (idsBelow w.ids w.usedIds) s
  alike : Alike s m.studio
  drawn : m.drawn = w.usedIds

variable {f : FolderStore} {w : Workbench} {s : Studio} {m : Memory}

theorem Follows.load (h : Follows f w s m) : f.load.run w = (.ok (some s.snapshot), w) := by
  have hRead : Snapshot.ofStored s.snapshot.toJson.pretty = .ok s.snapshot := by
    rw [Snapshot.ofStored, Snapshot.read_of_source (Json.ofString_pretty _),
      (s.snapshot.reread_iff Snapshot.treeDepth).mpr h.sound.storable]
  rw [FolderStore.load_run h.text, hRead]
  rfl

/-- Opening gives the studio of the text without its history. -/
theorem Follows.openStudio (h : Follows f w s m) : (openStudio f.folder).run.run w =
    (.ok (Studio.openAt s.brands s.brandIndex s.themeIndex), w) := by
  have hForemost := Studio.foremost_of_distinct h.sound.distinct
  have hOpened := hForemost.ofSnapshot_snapshot h.sound.anchored
  have hJob : (f.load >>= Studio.ofLoaded).run w =
      (.ok (Studio.openAt s.brands s.brandIndex s.themeIndex), w) := by
    rw [Job.run_bind, h.load]
    simp only [Studio.ofLoaded, hOpened]
    rfl
  rw [Shell.openStudio, run_attempt]
  show (((f.load >>= Studio.ofLoaded).run w).1.mapError _, _) = _
  rw [hJob]
  rfl

theorem exists_saved (hUsable : f.Usable w.disk) (s : Studio) :
    ∃ d, (saveStudio f.folder s).run.run w = (.ok (), { w with disk := d }) ∧
      f.Usable d ∧ d.read f.path = .ok s.snapshot.toJson.pretty := by
  obtain ⟨d, hSave, hText, hAgain⟩ := FolderStore.save_run hUsable s.snapshot
  refine ⟨d, ?_, hAgain, hText⟩
  rw [saveStudio, run_attempt]
  show (((f.save s.snapshot).run w).1.mapError _, _) = _
  rw [hSave]
  rfl

/-- **One command.** The shell fails where the studio in memory does, and the store goes on following
the studio. -/
theorem Follows.step (h : Follows f w s m) (hIds : Function.Injective w.ids) (c : BrandCommand)
    (now : Instant) :
    ((∃ e, ((c.invocation f.folder).run.run.run w).1 = .error e) ↔
      m.perform? w.ids c now = none) ∧
    ((c.invocation f.folder).run.run.run w).2.ids = w.ids ∧
    ∃ s', Follows f ((c.invocation f.folder).run.run.run w).2 s'
      ((m.perform? w.ids c now).getD m) := by
  have hSound := sound_openAt h.sound
  have hAlike := Studio.alike_openAt s
  have hOpen := h.openStudio
  generalize Studio.openAt s.brands s.brandIndex s.themeIndex = t at hSound hAlike hOpen
  obtain ⟨r, w', hChange, hPerform, hDisk, hSupply, hUsed⟩ := run_changeBrands t c w
  have hRel := perform?_of_alike (hAlike.trans h.alike) c (idsFrom w.ids w.usedIds)
    (w.times w.usedTimes) now
  rw [← hPerform] at hRel
  have hUsable : f.Usable w'.disk := hDisk ▸ h.usable
  have hText : w'.disk.read f.path = .ok s.snapshot.toJson.pretty := hDisk ▸ h.text
  -- The invocation opens the studio, changes it, and saves it if it has changed.
  have hRun : (c.invocation f.folder).run.run.run w = (do
      let change ← changeBrands t c
      change.1.elim (return change.2) fun s' => do
        saveStudio f.folder s'
        return change.2 : Action String).run.run w := by
    refine (run_bind_ok hOpen _).trans (congrArg (fun a : Action String => a.run.run w) ?_)
    refine congrArg (changeBrands t c >>= ·) (funext fun change => ?_)
    obtain ⟨changed, text⟩ := change
    cases changed <;> rfl
  rw [hRun, Memory.perform?, h.drawn]
  generalize hMemory : c.perform? m.studio (idsFrom w.ids w.usedIds) now = inMemory at hRel ⊢
  cases r with
  | error e =>
    cases hRel
    rw [run_bind_error hChange]
    have hSame : w'.usedIds = w.usedIds := by
      rw [hUsed, draws_of_refused hMemory, Nat.add_zero]
    refine ⟨⟨fun _ => rfl, fun _ => ⟨e, rfl⟩⟩, hSupply, s, hUsable, hText, ?_, h.alike, ?_⟩
    · rw [hSupply, hSame]
      exact h.sound
    · rw [hSame]
      exact h.drawn
  | ok change =>
    obtain ⟨changed, text⟩ := change
    cases hRel with
    | some hNew =>
      rw [run_bind_ok hChange]
      cases changed with
      | none =>
        refine ⟨iff_of_false ?_ (Option.some_ne_none _), hSupply, s, hUsable, hText, ?_,
          hAlike.symm.trans hNew, hUsed.symm⟩
        · rintro ⟨e, hError⟩
          cases hError
        · show Sound (idsBelow w'.ids w'.usedIds) s
          rw [hSupply, hUsed]
          exact h.sound.mono c.draws
      | some s' =>
        have hNext : Sound (idsBelow w'.ids w'.usedIds) s' := by
          rw [hSupply, hUsed]
          exact hSound.perform? hIds hPerform.symm
        obtain ⟨d, hSave, hAgain, hKept⟩ := exists_saved hUsable s'
        simp only [Option.elim_some]
        rw [run_bind_ok hSave]
        refine ⟨iff_of_false ?_ (Option.some_ne_none _), hSupply, s', hAgain, hKept, hNext, hNew,
          hUsed.symm⟩
        rintro ⟨e, hError⟩
        cases hError

/-! ### All commands -/

/-- **Every run.** -/
theorem Follows.run (h : Follows f w s m) {ids : Nat → String} (hSupply : w.ids = ids)
    (hIds : Function.Injective ids) (commands : List (BrandCommand × Instant)) :
    (runCommands f.folder (commands.map Prod.fst) w).ids = ids ∧
      ∃ s', Follows f (runCommands f.folder (commands.map Prod.fst) w) s'
        (m.run ids commands) := by
  induction commands generalizing w s m with
  | nil => exact ⟨hSupply, s, h⟩
  | cons c commands ih =>
    subst hSupply
    obtain ⟨-, hSupply, s', hNext⟩ := h.step hIds c.1 c.2
    exact ih hNext hSupply

/-- A new studio comes back from its text. -/
theorem sound_create {ids : Nat → String} (hIds : Function.Injective ids) (n : Nat)
    (now : Instant) : Sound (idsBelow ids (n + 3)) (Studio.create (idsFrom ids n) now) := by
  have hAll : (idsFrom ids n).all = (List.range 3).map fun i => ids (n + i) := rfl
  have hUsed := idsBelow_add ids n 3
  have hFresh : (idsFrom ids n).all.Nodup := by
    rw [hAll]
    exact (List.nodup_append.mp (hUsed ▸ nodup_idsBelow hIds (n + 3))).2.1
  refine ⟨Studio.anchored_session _ now [], (Studio.distinct_create hFresh now).mono ?_, ?_⟩
  · rw [hUsed, hAll]
    exact List.subset_append_right ..
  · intro b hb
    rw [List.mem_singleton.mp hb]
    exact Studio.storable_create _ now _ _

/-- **A session of commands is a session in memory.** Let the studio be new and saved, and let no
identifier come twice. Then after any commands for brands, the snapshot in the store is that of a
studio on which the operations that they stand for were performed in memory with the same
identifiers, but for the times. And every next command fails exactly if it names no brand of that
studio or an operation is refused there. -/
theorem commands_follow_memory (hIds : Function.Injective w.ids)
    (hSaved : ((f.save (Studio.fresh.run w).1.snapshot).run (Studio.fresh.run w).2).1 = .ok ())
    (commands : List (BrandCommand × Instant)) (next : BrandCommand) (now : Instant) :
    let start := Studio.fresh.run w
    let stored := ((f.save start.1.snapshot).run start.2).2
    let shell := runCommands f.folder (commands.map Prod.fst) stored
    let memory := (Memory.mk start.1 start.2.usedIds).run w.ids commands
    (∃ snapshot, f.load.run shell = (.ok (some snapshot), shell) ∧
      snapshot.timeless = memory.studio.snapshot.timeless) ∧
    ((∃ e, ((next.invocation f.folder).run.run.run shell).1 = .error e) ↔
      memory.perform? w.ids next now = none) := by
  intro start stored shell memory
  have hUsable : f.Usable start.2.disk := FolderStore.usable_of_save hSaved
  obtain ⟨d, hSave, hText, hAgain⟩ := FolderStore.save_run hUsable start.1.snapshot
  have hStored : stored = { start.2 with disk := d } := congrArg Prod.snd hSave
  have hStart : Follows f stored start.1 ⟨start.1, start.2.usedIds⟩ := by
    rw [hStored]
    exact ⟨hAgain, hText, sound_create hIds w.usedIds _, .refl _, rfl⟩
  have hSupply : stored.ids = w.ids := by
    rw [hStored]
    rfl
  obtain ⟨hShell, s, hFollows⟩ := hStart.run hSupply hIds commands
  refine ⟨⟨s.snapshot, hFollows.load, hFollows.alike.snapshot_timeless⟩, ?_⟩
  have hInjective : Function.Injective (runCommands f.folder (commands.map Prod.fst) stored).ids := by
    rw [hShell]
    exact hIds
  have hStep := (hFollows.step hInjective next now).1
  rwa [hShell] at hStep

/-- A workbench that counts its identifiers. -/
def countingBench : Workbench :=
  { Studio.emptyBench with ids := fun n => String.ofList (List.replicate n 'i') }

theorem injective_countingBench : Function.Injective countingBench.ids := by
  intro a b h
  have hLength := congrArg (fun s => s.toList.length) h
  simpa [countingBench] using hLength

/-- A second brand is created and left again for the dark theme of the first; deleting a third one
fails in the shell as it does in memory. -/
theorem third_brand_is_missing :
    let start := Studio.fresh.run countingBench
    let stored := (((FolderStore.mk "store").save start.1.snapshot).run start.2).2
    let commands : List (BrandCommand × Instant) :=
      [(.create "Second" "", Instant.epoch), (.use "Default" (some .dark), Instant.epoch)]
    let shell := runCommands "store" (commands.map Prod.fst) stored
    let memory := (Memory.mk start.1 start.2.usedIds).run countingBench.ids commands
    (∃ snapshot, (FolderStore.mk "store").load.run shell = (.ok (some snapshot), shell) ∧
      snapshot.timeless = memory.studio.snapshot.timeless) ∧
    ∃ e, (((BrandCommand.delete "Third").invocation "store").run.run.run shell).1 = .error e := by
  intro start stored commands shell memory
  have hSaved : (((FolderStore.mk "store").save start.1.snapshot).run start.2).1 = .ok () := rfl
  have hFollows := commands_follow_memory injective_countingBench hSaved commands
    (.delete "Third") Instant.epoch
  have hMissing : memory.perform? countingBench.ids (.delete "Third") Instant.epoch = none := rfl
  exact ⟨hFollows.1, hFollows.2.mpr hMissing⟩

end DesignSystem.Shell
