import WasiWheels.Build.Versions

/-! Where files come from: when only some versions of a component have ever been in use,
everything on its disk goes back to these. -/

namespace WasiWheels.Build

open Make

/-- Whether a directory is named like a wheel's metadata directory. -/
def isDistInfo (directory : String) : Bool := ".dist-info".toList.isSuffixOf directory.toList

theorem isDistInfo_distInfo (name version : String) : isDistInfo (distInfo name version) = true := by
  simp only [isDistInfo, distInfo, String.toList_append, List.isSuffixOf_iff_suffix]
  exact List.suffix_append _ _

/-- A path below no `.dist-info` directory but one of these versions. -/
def HandZipped.Placed (wheel : HandZipped) (used : String → Prop) (path : Path) : Prop :=
  ∀ directory, path.dropLast.head? = some directory → isDistInfo directory = true →
    ∃ version, used version ∧ directory = distInfo wheel.name version

/-- A file of a staging tree that goes back to these versions only. -/
def HandZipped.Owns (wheel : HandZipped) (used : String → Prop) (file : Path × Origin) : Prop :=
  (∀ version ∈ file.2, used version) ∧ wheel.Placed used file.1

/-- Where a line of the recipe puts files. -/
def StagingLine.destination : StagingLine → Option Path
  | .copyTree _ into => some into
  | .copySource _ as => some as
  | .copyExtension as => some as
  | .printf _ as => some as
  | .wipe | .mkdir _ | .dropBytecode _ | .mkdirOut => none

/-- The line writes into no `.dist-info` directory but that of the version. -/
def StagingLine.Tidy (wheel : HandZipped) (version : String) (line : StagingLine) : Prop :=
  ∀ path, line.destination = some path → ∃ directory rest, path = directory :: rest ∧
    (directory = distInfo wheel.name version ∨ isDistInfo directory = false)

theorem HandZipped.staging_tidy (wheel : HandZipped) (version : String) :
    ∀ line ∈ wheel.staging version, line.Tidy wheel version := by
  cases wheel with
  | cffi =>
    simp only [staging, cffiStaging, describe]
    simp [StagingLine.Tidy, StagingLine.destination, name]
    exact ⟨Or.inr (by decide), Or.inr (by decide)⟩
  | regex =>
    simp only [staging, regexStaging, describe]
    simp [StagingLine.Tidy, StagingLine.destination, name]
    exact Or.inr (by decide)
  | pyyaml =>
    simp only [staging, pyyamlStaging, describe]
    simp [StagingLine.Tidy, StagingLine.destination, name]
    exact ⟨Or.inr (by decide), Or.inr (by decide), Or.inr (by decide)⟩
  | duckdbPython =>
    simp only [staging, duckdbPythonStaging, describe]
    simp [StagingLine.Tidy, StagingLine.destination, name]
    exact ⟨Or.inr (by decide), Or.inr (by decide)⟩

/-- Every recipe prints the metadata last. -/
theorem HandZipped.staging_describe (wheel : HandZipped) (version : String) :
    ∃ before metadata text, wheel.staging version = before ++ describe wheel.name version metadata text := by
  cases wheel <;> exact ⟨_, _, _, rfl⟩

section Runs

variable {wheel : HandZipped} {used : String → Prop} {version : String} {inputs : Inputs Origin}

theorem HandZipped.placed_under {directory : String} (rest : Path) (current : used version)
    (tidy : directory = distInfo wheel.name version ∨ isDistInfo directory = false) :
    wheel.Placed used (directory :: rest) := by
  intro first found metadata
  cases rest with
  | nil => cases found
  | cons next rest =>
    simp only [List.dropLast_cons_cons, List.head?_cons, Option.some.injEq] at found
    rcases tidy with own | other
    · exact ⟨version, current, found.symm.trans own⟩
    · rw [found, metadata] at other
      cases other

/-- The inputs go back to these versions only. -/
structure Inputs.Within (inputs : Inputs Origin) (used : String → Prop) : Prop where
  sources : ∀ tree, inputs.sources = some tree → ∀ file ∈ tree.files, ∀ version ∈ file.2, used version
  extension : ∀ origin, inputs.extension = some origin → ∀ version ∈ origin, used version
  text : ∀ line, ∀ version ∈ inputs.text line, used version

theorem StagingLine.run_owned (within : inputs.Within used) (current : used version) {line : StagingLine}
    (tidy : line.Tidy wheel version) {stage next : Listing Path Origin}
    (owned : ∀ file ∈ stage.files, wheel.Owns used file) (ran : line.run inputs stage = some next) :
    ∀ file ∈ next.files, wheel.Owns used file := by
  have placed (path : Path) (rest : Path) (target : line.destination = some path) :
      wheel.Placed used (path ++ rest) := by
    obtain ⟨directory, below, rfl, own⟩ := tidy path target
    exact HandZipped.placed_under (below ++ rest) current own
  have put (path : Path) (origin : Origin) (target : line.destination = some path)
      (known : ∀ version ∈ origin, used version) : ∀ file ∈ (stage.put (path, origin)).files, wheel.Owns used file := by
    intro file member
    rcases (Listing.mem_put stage (path, origin) file).mp member with same | ⟨old, _⟩
    · exact same ▸ ⟨known, List.append_nil path ▸ placed path [] target⟩
    · exact owned file old
  cases line with
  | wipe =>
    cases ran
    simp
  | mkdir path =>
    cases ran
    exact owned
  | mkdirOut =>
    cases ran
    exact owned
  | dropBytecode below =>
    cases ran
    intro file member
    exact owned file ((Listing.mem_keep stage _ file).mp member).1
  | printf text path =>
    cases ran
    exact put path _ rfl (within.text text)
  | copyExtension path =>
    obtain ⟨origin, found, rfl⟩ := Option.map_eq_some_iff.mp ran
    exact put path origin rfl (within.extension origin found)
  | copySource source path =>
    obtain ⟨tree, found, ran⟩ := Option.bind_eq_some_iff.mp ran
    obtain ⟨file, listed, rfl⟩ := Option.map_eq_some_iff.mp ran
    exact put path file.2 rfl (within.sources tree found file (List.mem_of_find?_eq_some listed))
  | copyTree source into =>
    obtain ⟨tree, found, rfl⟩ := Option.map_eq_some_iff.mp ran
    intro file member
    rcases Listing.mem_of_putAll stage _ member with old | new
    · exact owned file old
    · obtain ⟨original, listed, moved⟩ := List.mem_filterMap.mp new
      obtain ⟨path, relocated, rfl⟩ := Option.map_eq_some_iff.mp moved
      simp only [relocate] at relocated
      split at relocated
      · cases relocated
        exact ⟨within.sources tree found original listed, placed into _ rfl⟩
      · cases relocated

theorem runStaging_stuck {inputs : Inputs β} {line : StagingLine} {stage : Listing Path β}
    (ran : line.run inputs stage = none) (index : Nat) (rest : List StagingLine) :
    runStaging inputs (fun _ => none) index (line :: rest) stage = (false, stage) := by
  simp [runStaging, ran]

theorem runStaging_step {inputs : Inputs β} {line : StagingLine} {stage next : Listing Path β}
    (ran : line.run inputs stage = some next) (index : Nat) (rest : List StagingLine) :
    runStaging inputs (fun _ => none) index (line :: rest) stage =
      runStaging inputs (fun _ => none) (index + 1) rest next := by
  simp [runStaging, ran]

theorem runStaging_owned (within : inputs.Within used) (current : used version) (lines : List StagingLine)
    (tidy : ∀ line ∈ lines, line.Tidy wheel version) (index : Nat) (stage : Listing Path Origin)
    (owned : ∀ file ∈ stage.files, wheel.Owns used file) :
    ∀ file ∈ (runStaging inputs (fun _ => none) index lines stage).2.files, wheel.Owns used file := by
  induction lines generalizing index stage with
  | nil => exact owned
  | cons line rest ih =>
    cases ran : line.run inputs stage with
    | none =>
      rw [runStaging_stuck ran]
      exact owned
    | some next =>
      rw [runStaging_step ran]
      apply ih (fun other member => tidy other (List.mem_cons_of_mem _ member))
      exact StagingLine.run_owned within current (tidy line List.mem_cons_self) owned ran

theorem runStaging_append (inputs : Inputs β) (first second : List StagingLine) (index : Nat)
    (stage : Listing Path β) :
    runStaging inputs (fun _ => none) index (first ++ second) stage =
      if (runStaging inputs (fun _ => none) index first stage).1 then
        runStaging inputs (fun _ => none) (index + first.length) second
          (runStaging inputs (fun _ => none) index first stage).2
      else (false, (runStaging inputs (fun _ => none) index first stage).2) := by
  induction first generalizing index stage with
  | nil => simp [runStaging]
  | cons line rest ih =>
    rw [List.cons_append]
    cases ran : line.run inputs stage with
    | none => simp [runStaging_stuck ran]
    | some next =>
      rw [runStaging_step ran, runStaging_step ran, ih, List.length_cons, Nat.add_right_comm, Nat.add_assoc]

/-- A recipe that gets as far as zipping has printed the metadata of its version. -/
theorem HandZipped.staged_metadata (wheel : HandZipped) (version : String) (inputs : Inputs β)
    (stage : Listing Path β) (success : (runStaging inputs (fun _ => none) 0 (wheel.staging version) stage).1 = true) :
    [distInfo wheel.name version, "METADATA"] ∈
      (runStaging inputs (fun _ => none) 0 (wheel.staging version) stage).2.files.map Prod.fst := by
  obtain ⟨before, metadata, text, split⟩ := wheel.staging_describe version
  rw [split, runStaging_append] at success ⊢
  by_cases early : (runStaging inputs (fun _ => none) 0 before stage).1 = true
  · rw [if_pos early]
    simp only [describe, runStaging, StagingLine.run]
    apply List.mem_map.mpr
    refine ⟨(_, inputs.text metadata), ?_, rfl⟩
    apply (Listing.mem_put _ _ _).mpr
    right
    refine ⟨(Listing.mem_put _ _ _).mpr (Or.inl rfl), ?_⟩
    simp
  · rw [if_neg early] at success
    cases success

end Runs

/-- What may lie at a path of a component when only these versions of it have been in use. -/
structure Component.Fits (component : Component) (used : String → Prop) (path : Located) (item : Item Origin) :
    Prop where
  origins : ∀ version ∈ item.origins, used version
  wheel : path.1 = .wheel → ∃ version, path.2 = some version ∧ used version
  staging : ∀ wheel : HandZipped, component.handZipped? = some wheel → path.1 = .staging → ∀ tree, item = .tree tree →
    ∀ file ∈ tree.files, wheel.Placed used file.1
  archive : ∀ wheel : HandZipped, component.handZipped? = some wheel → ∀ version, path = (.wheel, some version) →
    ∃ archive, item = .archive archive ∧ (∀ entry ∈ archive.entries, wheel.Placed used entry.1) ∧
      [distInfo wheel.name version, "METADATA"] ∈ archive.entries.map Prod.fst

def Component.Traced (component : Component) (used : String → Prop) (disk : Disk Located (Item Origin)) : Prop :=
  ∀ path item, contentOf disk path = some item → component.Fits used path item

section Recipes

variable {shipped : HandZipped → String → List Path} {component : Component} {used : String → Prop} {version : String}
  {disk : Disk Located (Item Origin)}

/-- A file that is neither a wheel nor a staging tree only has to go back to the right versions. -/
theorem Component.fits_plain {path : Located} {item : Item Origin} (known : ∀ version ∈ item.origins, used version)
    (notWheel : path.1 ≠ .wheel) (notStaging : path.1 ≠ .staging) : component.Fits used path item where
  origins := known
  wheel := fun same => absurd same notWheel
  staging := fun _ _ same => absurd same notStaging
  archive := fun _ _ _ same => absurd (congrArg Prod.fst same) notWheel

theorem Component.traced_apply (traced : component.Traced used disk) (effects : List (Effect Located (Item Origin)))
    (fits : ∀ path item, .write path item ∈ effects → component.Fits used path item) :
    component.Traced used (disk.apply effects) := by
  intro path item found
  rcases disk.apply_cases effects path with kept | gone | ⟨content, _, written, _, made⟩
  · exact traced path item (by rw [contentOf, ← kept]; exact found)
  · simp [contentOf, gone] at found
  · simp only [contentOf, made, Option.map_some, Option.some.injEq] at found
    exact found ▸ fits path content written

theorem Component.traced_origins (traced : component.Traced used disk) (files : List File) :
    ∀ origin ∈ component.originsAt version disk files, used origin := by
  intro origin member
  obtain ⟨file, _, among⟩ := List.mem_flatMap.mp member
  cases found : contentOf disk (component.locate version file) with
  | none => simp [found] at among
  | some item =>
    simp only [found, Option.map_some, Option.getD_some] at among
    exact (traced _ item found).origins origin among

theorem HandZipped.inputs_within (wheel : HandZipped) (traced : wheel.component.Traced used disk)
    (current : used version) : (wheel.inputsAt version disk).Within used where
  sources := by
    intro tree found file member origin among
    obtain ⟨item, read, same⟩ := Option.bind_eq_some_iff.mp found
    cases item with
    | tree listing =>
      cases same
      exact (traced _ _ read).origins origin (List.mem_flatMap.mpr ⟨file, member, among⟩)
    | file bytes => cases same
    | archive packed => cases same
  extension := by
    intro bytes found origin among
    obtain ⟨item, read, same⟩ := Option.bind_eq_some_iff.mp found
    cases item with
    | file content =>
      cases same
      exact (traced _ _ read).origins origin among
    | tree listing => cases same
    | archive packed => cases same
  text := by
    intro line origin among
    exact List.mem_singleton.mp among ▸ current

theorem HandZipped.staged_owned (wheel : HandZipped) (traced : wheel.component.Traced used disk) :
    ∀ file ∈ (treeAt disk (wheel.component.locate version .staging)).files, wheel.Owns used file := by
  intro file member
  cases found : contentOf disk (wheel.component.locate version .staging) with
  | none => simp [treeAt, found] at member
  | some item =>
    cases item with
    | tree listing =>
      simp only [treeAt, found, Option.bind_some, Item.asTree, Option.getD_some] at member
      have fits := traced _ _ found
      constructor
      · intro origin among
        exact fits.origins origin (List.mem_flatMap.mpr ⟨file, member, among⟩)
      · exact fits.staging wheel wheel.handZipped_component rfl listing rfl file member
    | file bytes => simp [treeAt, found, Item.asTree] at member
    | archive packed => simp [treeAt, found, Item.asTree] at member

theorem HandZipped.origins_used {wheel : HandZipped} {stage : Listing Path Origin}
    (owned : ∀ file ∈ stage.files, wheel.Owns used file) :
    ∀ origin ∈ stage.files.flatMap Prod.snd, used origin := by
  intro origin among
  obtain ⟨file, member, listed⟩ := List.mem_flatMap.mp among
  exact (owned file member).1 origin listed

theorem HandZipped.fits_staging (wheel : HandZipped) {stage : Listing Path Origin}
    (owned : ∀ file ∈ stage.files, wheel.Owns used file) :
    wheel.component.Fits used (wheel.component.locate version .staging) (.tree stage) where
  origins := origins_used owned
  wheel := fun same => absurd same File.noConfusion
  staging := by
    intro other same _ tree written file member
    cases written
    rw [wheel.handZipped_component, Option.some.injEq] at same
    exact same ▸ (owned file member).2
  archive := fun _ _ _ same => absurd (congrArg Prod.fst same) File.noConfusion

theorem HandZipped.fits_archive (wheel : HandZipped) (current : used version) {stage : Listing Path Origin}
    (owned : ∀ file ∈ stage.files, wheel.Owns used file)
    (metadata : [distInfo wheel.name version, "METADATA"] ∈ stage.files.map Prod.fst) :
    wheel.component.Fits used (wheel.component.locate version .wheel) (.archive ⟨stage.files, true⟩) where
  origins := origins_used owned
  wheel := fun _ => ⟨version, rfl, current⟩
  staging := fun _ _ same => absurd same File.noConfusion
  archive := by
    intro other same version_ located
    rw [wheel.handZipped_component, Option.some.injEq] at same
    cases same
    cases located
    exact ⟨_, rfl, fun entry member => (owned entry member).2, metadata⟩

theorem HandZipped.packageAt_fits (wheel : HandZipped) (traced : wheel.component.Traced used disk)
    (current : used version) :
    ∀ path item, .write path item ∈ (wheel.packageAt version disk).2 → wheel.component.Fits used path item := by
  have owned := runStaging_owned (wheel.inputs_within traced current) current (wheel.staging version)
    (wheel.staging_tidy version) 0 _ (@HandZipped.staged_owned _ version _ wheel traced)
  have staged := wheel.staged_metadata version (wheel.inputsAt version disk)
    (treeAt disk (wheel.component.locate version .staging))
  unfold packageAt
  dsimp only
  split
  · rename_i success
    rw [pack_undisturbed]
    intro path item member
    rcases List.mem_cons.mp member with same | rest
    · cases same
      exact wheel.fits_staging owned
    · cases List.mem_singleton.mp rest
      exact wheel.fits_archive current owned (staged success)
  · intro path item member
    cases List.mem_singleton.mp member
    exact wheel.fits_staging owned

/-- A target that holds one file, and not a hand-zipped wheel. -/
theorem Component.fits_target (current : used version) {target : File} {origin : Origin}
    (known : ∀ version ∈ origin, used version) (plain : target = .wheel → component.handZipped? = none) :
    component.Fits used (component.locate version target) (.file origin) where
  origins := known
  wheel := by
    intro same
    have target_ : target = .wheel := same
    exact ⟨version, by rw [target_]; rfl, current⟩
  staging := fun _ _ _ _ same => by cases same
  archive := by
    intro wheel hand _ located
    rw [plain (congrArg Prod.fst located)] at hand
    cases hand

theorem Component.unpack_fits (traced : component.Traced used disk) {target : File} :
    ∀ path item, .write path item ∈ component.unpack shipped version disk target →
      component.Fits used path item := by
  intro path item member
  unfold unpack at member
  cases hand : component.handZipped? with
  | none => simp [hand] at member
  | some wheel =>
    simp only [hand] at member
    split at member
    · cases List.mem_singleton.mp member
      apply Component.fits_plain
      · intro origin among
        obtain ⟨file, listed, known⟩ := List.mem_flatMap.mp among
        rcases Listing.mem_of_putAll _ _ listed with old | new
        · cases old
        · obtain ⟨_, _, rfl⟩ := List.mem_map.mp new
          exact traced_origins traced _ origin known
      · exact File.noConfusion
      · exact File.noConfusion
    · cases member

theorem Component.contents_known (traced : component.Traced used disk) (current : used version) (target : File) :
    ∃ origin, component.contents version disk target = .file origin ∧ ∀ version ∈ origin, used version := by
  unfold contents
  split
  · exact ⟨_, rfl, fun origin among => List.mem_singleton.mp among ▸ current⟩
  · exact ⟨_, rfl, traced_origins traced _⟩

theorem Component.recipeAt_fits (traced : component.Traced used disk) (current : used version) (node : Node File) :
    ∀ path item, .write path item ∈ (component.recipeAt shipped version node disk).2 →
      component.Fits used path item := by
  obtain ⟨origin, made, known⟩ := contents_known traced current node.target
  unfold recipeAt
  dsimp only
  split
  · rename_i wheel target hand
    cases Component.handZipped_iff.mp hand
    exact wheel.packageAt_fits traced current
  · rename_i target
    intro path item member
    dsimp only at member
    split at member
    · cases member
    · cases List.mem_singleton.mp member
      apply Component.fits_target current
      · simp
      · exact fun same => absurd (target.symm.trans same) File.noConfusion
  · rename_i plain
    intro path item member
    rcases List.mem_append.mp member with early | last
    · rcases List.mem_append.mp early with dropped | unpacked
      · obtain ⟨_, _, same⟩ := List.mem_map.mp dropped
        cases same
      · exact Component.unpack_fits traced path item unpacked
    · cases List.mem_singleton.mp last
      rw [made]
      apply Component.fits_target current known
      intro same
      cases hand : component.handZipped? with
      | none => rfl
      | some wheel => exact absurd hand (plain wheel same)

theorem Component.buildAt_traced (current : used version) (traced : component.Traced used disk) :
    component.Traced used (component.buildAt shipped version disk).2 := by
  apply make_keeps (component.Traced used) _ disk traced
  intro rule listed disk traced
  obtain ⟨node, _, rfl⟩ := List.mem_map.mp listed
  cases state : (component.ruleAt shipped version node).outdated disk with
  | false =>
    rw [Rule.update_current () state]
    exact traced
  | true =>
    rw [Rule.update_outdated () state]
    exact traced_apply traced _ (recipeAt_fits traced current node)

theorem HandZipped.packageAt_wheel (wheel : HandZipped)
    (success : (wheel.packageAt version disk).1 = true) :
    (contentOf (disk.apply (wheel.packageAt version disk).2) (.wheel, some version)).isSome = true := by
  unfold packageAt at success ⊢
  dsimp only at success ⊢
  split
  · rw [pack_undisturbed]
    have place : wheel.component.locate version .wheel = (.wheel, some version) := rfl
    simp [contentOf, place, Disk.perform]
  · rename_i failed
    rw [if_neg failed] at success
    cases success

/-- A rule for the wheel that went well leaves one of that version. -/
theorem Component.update_wheel {node : Node File} (own : node.target = .wheel)
    (success : ((component.ruleAt shipped version node).update () disk).1 = true) :
    (contentOf ((component.ruleAt shipped version node).update () disk).2 (.wheel, some version)).isSome = true := by
  have place : component.locate version node.target = (.wheel, some version) := by rw [own]; rfl
  cases state : (component.ruleAt shipped version node).outdated disk with
  | false =>
    rw [Rule.update_current () state]
    obtain ⟨_, entry, found, _⟩ := (Node.current_iff _ _).mp state
    change disk.file (component.locate version node.target) = some entry at found
    rw [place] at found
    simp [contentOf, found]
  | true =>
    rw [Rule.update_outdated () state] at success ⊢
    change (component.recipeAt shipped version node disk).1 = true at success
    change (contentOf (disk.apply (component.recipeAt shipped version node disk).2) (.wheel, some version)).isSome = true
    unfold recipeAt at success ⊢
    dsimp only at success ⊢
    split
    · rename_i wheel target hand
      rw [target, hand] at success
      exact wheel.packageAt_wheel success
    · rename_i target
      exact absurd (own.symm.trans target) File.noConfusion
    · rw [place]
      simp [contentOf, Disk.apply, List.foldl_append, Disk.perform]

theorem Component.buildAt_wheel (success : (component.buildAt shipped version disk).1 = true) :
    (contentOf (component.buildAt shipped version disk).2 (.wheel, some version)).isSome = true := by
  obtain ⟨before, node, split, own⟩ := component.wheel_last
  rw [buildAt, split, List.map_append, List.map_singleton, make_append] at success ⊢
  by_cases early : (make () (before.map (component.ruleAt shipped version)) disk).1 = true
  · rw [if_pos early, make_singleton] at success ⊢
    exact update_wheel own success
  · rw [if_neg early] at success
    cases success

theorem Component.sources_plain (component : Component) :
    ∀ file ∈ component.sources, file ≠ .wheel ∧ file ≠ .staging := by
  cases component <;> decide

theorem Component.checkout_traced (component : Component) (used : String → Prop) (version : String) :
    component.Traced used (Disk.checkout (component.sources.map (component.locate version)) fun _ => .file []) := by
  intro path item found
  simp only [contentOf, Disk.checkout] at found
  split at found
  · rename_i listed
    obtain ⟨file, source, rfl⟩ := List.mem_map.mp listed
    obtain ⟨notWheel, notStaging⟩ := component.sources_plain file source
    cases found
    exact fits_plain (by simp [Item.origins]) notWheel notStaging
  · cases found

end Recipes

end WasiWheels.Build
