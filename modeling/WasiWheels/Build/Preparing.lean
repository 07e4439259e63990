import WasiWheels.Build.Patching

/-! What the prepare rules leave behind, over any edits of the patches and any failures. -/

namespace WasiWheels.Build.Patching

open Make

variable {τ π : Type} {tool : PatchTool τ π} {names : List String} {pristine : τ} {outage : Outage τ}

theorem treeAt_congr {disk disk' : Store τ π} (same : disk'.file .tree = disk.file .tree) :
    treeAt disk' = treeAt disk := by
  rw [treeAt, same]
  rfl

theorem patches_congr {disk disk' : Store τ π}
    (same : ∀ name, disk'.file (.patchFile name) = disk.file (.patchFile name)) (names : List String) :
    patches names disk' = patches names disk := by
  apply List.filterMap_congr
  intro name _
  rw [patchAt, same]
  rfl

theorem rewrite_path {tree : τ} {touched : Bool} {change : Change τ π} (member : change ∈ rewrite tree touched) :
    change.path = .tree ∨ change.path = .marker := by
  rcases List.mem_cons.mp member with head | tail
  · exact .inl (congrArg Effect.path head)
  · split at tail
    · exact .inr (congrArg Effect.path (List.mem_singleton.mp tail))
    · cases tail

theorem treeAt_rewrite (disk : Store τ π) (tree : τ) (touched : Bool) :
    treeAt (disk.apply (rewrite tree touched)) = some tree := by
  cases touched with
  | false => rfl
  | true => rfl

/-- The loop writes to the tree and nowhere else. -/
theorem patchLoop_path (index : Nat) (patches : List π) (tree : τ) :
    ∀ change ∈ (patchLoop tool outage index patches tree).2, change.path = .tree ∨ change.path = .marker := by
  induction patches generalizing index tree with
  | nil => exact fun change member => by cases member
  | cons patch rest ih =>
    rw [patchLoop]
    split
    · exact fun change member => rewrite_path member
    · split
      · exact fun change member => rewrite_path member
      · intro change member
        rcases List.mem_append.mp member with early | late
        · exact rewrite_path early
        · exact ih _ _ change late

/-- A loop that gets through has applied every patch once. -/
theorem patchLoop_exact (index : Nat) (patches : List π) (tree : τ) (disk : Store τ π) (there : treeAt disk = some tree)
    (through : (patchLoop tool outage index patches tree).1 = true) :
    ∃ patched, tool.applyAll patches tree = some patched ∧
      treeAt (disk.apply (patchLoop tool outage index patches tree).2) = some patched := by
  induction patches generalizing index tree disk with
  | nil => exact ⟨tree, rfl, there⟩
  | cons patch rest ih =>
    rw [patchLoop] at through ⊢
    split at through
    · cases through
    · rename_i spared
      rw [if_neg spared]
      split at through
      · cases through
      · rename_i patched applied
        rw [PatchTool.applyAll, applied]
        dsimp only
        rw [Option.bind_some, Disk.apply_append]
        exact ih (index + 1) patched _ (treeAt_rewrite disk patched _) through

/-- Nothing but a patch that does not apply, or a strike, stops the loop. -/
theorem patchLoop_succeeds (index : Nat) (patches : List π) (tree : τ)
    (applies : (tool.applyAll patches tree).isSome = true)
    (spared : ∀ other < patches.length, outage.strikes (index + other) = false) :
    (patchLoop tool outage index patches tree).1 = true := by
  induction patches generalizing index tree with
  | nil => rfl
  | cons patch rest ih =>
    rw [patchLoop, if_neg (by rw [← Nat.add_zero index, spared 0 (Nat.zero_lt_succ _)]; decide)]
    rw [PatchTool.applyAll] at applies
    cases applied : tool.apply patch tree with
    | none =>
      rw [applied] at applies
      cases applies
    | some patched =>
      rw [applied] at applies
      apply ih (index + 1) patched applies
      intro other less
      rw [Nat.add_assoc, Nat.add_comm 1]
      exact spared (other + 1) (Nat.succ_lt_succ less)

/-- Even a loop that breaks off leaves a tree. -/
theorem patchLoop_there (index : Nat) (patches : List π) (tree : τ) (disk : Store τ π)
    (there : (treeAt disk).isSome = true) :
    (treeAt (disk.apply (patchLoop tool outage index patches tree).2)).isSome = true := by
  induction patches generalizing index tree disk with
  | nil => exact there
  | cons patch rest ih =>
    rw [patchLoop]
    split
    · rw [treeAt_rewrite]
      rfl
    · split
      · rw [treeAt_rewrite]
        rfl
      · dsimp only
        rw [Disk.apply_append]
        exact ih _ _ _ (by rw [treeAt_rewrite]; rfl)

theorem treeAt_untouched (disk : Store τ π) {changes : List (Change τ π)}
    (apart : ∀ change ∈ changes, change.path ≠ .tree) :
    treeAt (disk.apply changes) = treeAt disk := treeAt_congr (disk.apply_untouched changes apart)

/-- What a recipe that patches the pristine tree does on a disk. -/
structure Patches (tool : PatchTool τ π) (names : List String) (pristine : τ) (outage : Outage τ) (disk : Store τ π)
    (result : Bool × List (Change τ π)) : Prop where
  exact : result.1 = true → ∃ tree, tool.applyAll (patches names disk) pristine = some tree ∧
    treeAt (disk.apply result.2) = some tree
  succeeds : (tool.applyAll (patches names disk) pristine).isSome = true →
    (∀ other < (patches names disk).length, outage.strikes other = false) → result.1 = true
  there : (treeAt (disk.apply result.2)).isSome = true

theorem extractAndPatch_patches {clear finish : List (Change τ π)} (disk : Store τ π)
    (apart : ∀ change ∈ finish, change.path ≠ .tree) : Patches tool names pristine outage disk
      (extractAndPatch tool names pristine clear finish outage disk) := by
  have fresh : treeAt ((disk.apply clear).write .tree (.tree pristine)) = some pristine := rfl
  have unfolded : treeAt (disk.apply (extractAndPatch tool names pristine clear finish outage disk).2) =
      treeAt (((disk.apply clear).write .tree (.tree pristine)).apply
        (patchLoop tool outage 0 (patches names disk) pristine).2) := by
    unfold extractAndPatch
    dsimp only
    rw [Disk.apply_append, Disk.apply_append, Disk.apply_cons]
    apply treeAt_untouched
    intro change member
    split at member
    · exact apart change member
    · cases member
  constructor
  · intro through
    rw [unfolded]
    exact patchLoop_exact 0 _ pristine _ fresh through
  · intro applies spared
    exact patchLoop_succeeds 0 _ pristine applies (fun other less => by rw [Nat.zero_add]; exact spared other less)
  · rw [unfolded]
    exact patchLoop_there 0 _ pristine _ (by rw [fresh]; rfl)

theorem patchInPlace_patches (disk : Store τ π) (unpatched : treeAt disk = some pristine) :
    Patches tool names pristine outage disk (patchInPlace tool names outage disk) := by
  have unfolded : treeAt (disk.apply (patchInPlace tool names outage disk).2) =
      treeAt (disk.apply (patchLoop tool outage 0 (patches names disk) pristine).2) := by
    unfold patchInPlace
    rw [unpatched]
    dsimp only
    rw [Disk.apply_append]
    apply treeAt_untouched
    intro change member
    split at member
    · rw [List.mem_singleton.mp member]
      exact fun same => by cases same
    · cases member
  have status : (patchInPlace tool names outage disk).1 = (patchLoop tool outage 0 (patches names disk) pristine).1 := by
    unfold patchInPlace
    rw [unpatched]
  constructor
  · intro through
    rw [unfolded]
    exact patchLoop_exact 0 _ pristine _ unpatched (status ▸ through)
  · intro applies spared
    rw [status]
    exact patchLoop_succeeds 0 _ pristine applies (fun other less => by rw [Nat.zero_add]; exact spared other less)
  · rw [unfolded]
    exact patchLoop_there 0 _ pristine _ (by rw [unpatched]; rfl)

theorem mem_extractAndPatch {clear finish : List (Change τ π)} {disk : Store τ π} {change : Change τ π}
    (member : change ∈ (extractAndPatch tool names pristine clear finish outage disk).2) :
    change ∈ clear ∨ change.path = .tree ∨ change.path = .marker ∨
      ((extractAndPatch tool names pristine clear finish outage disk).1 = true ∧ change ∈ finish) := by
  unfold extractAndPatch at member ⊢
  dsimp only at member ⊢
  rcases List.mem_append.mp member with before | last
  · rcases List.mem_append.mp before with cleared | patching
    · exact .inl cleared
    · rcases List.mem_cons.mp patching with extraction | loop
      · exact .inr (.inl (congrArg Effect.path extraction))
      · rcases patchLoop_path _ _ _ change loop with tree | marker
        · exact .inr (.inl tree)
        · exact .inr (.inr (.inl marker))
  · split at last
    · rename_i through
      exact .inr (.inr (.inr ⟨through, last⟩))
    · cases last

theorem mem_patchInPlace {disk : Store τ π} {change : Change τ π}
    (member : change ∈ (patchInPlace tool names outage disk).2) :
    change.path = .tree ∨ change.path = .marker ∨
      ((patchInPlace tool names outage disk).1 = true ∧ change = .write .sentinel .text) := by
  unfold patchInPlace at member ⊢
  split at member
  · cases member
  · rename_i tree there
    dsimp only at member ⊢
    rcases List.mem_append.mp member with loop | last
    · rcases patchLoop_path _ _ _ change loop with tree | marker
      · exact .inl tree
      · exact .inr (.inl marker)
    · split at last
      · rename_i through
        exact .inr (.inr ⟨through, List.mem_singleton.mp last⟩)
      · cases last

/-- What a rule that applies patches keeps its hands off. -/
structure Contained (rule : Rule (Outage τ) File (Content τ π)) : Prop where
  patchFiles : ∀ outage disk, ∀ change ∈ (rule.recipe outage disk).2, ∀ name, change.path ≠ .patchFile name
  sentinel : ∀ outage disk, (rule.recipe outage disk).1 = false →
    ∀ content, Effect.write .sentinel content ∉ (rule.recipe outage disk).2

theorem extractAndPatch_contained {rule : Rule (Outage τ) File (Content τ π)} {clear finish : List (Change τ π)}
    (recipe : rule.recipe = extractAndPatch tool names pristine clear finish)
    (patchFiles : ∀ change ∈ clear ++ finish, ∀ name, change.path ≠ .patchFile name)
    (cleared : ∀ content, Effect.write .sentinel content ∉ clear) : Contained rule := by
  constructor
  · intro outage disk change member name
    rw [recipe] at member
    rcases mem_extractAndPatch member with early | tree | marker | ⟨_, last⟩
    · exact patchFiles change (List.mem_append_left _ early) name
    · exact tree ▸ fun same => by cases same
    · exact marker ▸ fun same => by cases same
    · exact patchFiles change (List.mem_append_right _ last) name
  · intro outage disk failed content member
    rw [recipe] at failed member
    rcases mem_extractAndPatch member with early | tree | marker | ⟨through, _⟩
    · exact cleared content early
    · cases tree
    · cases marker
    · rw [failed] at through
      cases through

theorem patching_contained (tool : PatchTool τ π) (names : List String) (pristine : τ) (upstream : Upstream) :
    Contained (patching tool names pristine upstream) := by
  have inPlace : Contained (patchedInPlace tool names) := by
    constructor
    · intro outage disk change member name
      rcases mem_patchInPlace member with tree | marker | ⟨_, last⟩
      · exact tree ▸ fun same => by cases same
      · exact marker ▸ fun same => by cases same
      · exact last ▸ fun same => by cases same
    · intro outage disk failed content member
      rcases mem_patchInPlace member with tree | marker | ⟨through, _⟩
      · cases tree
      · cases marker
      · have status : (patchInPlace tool names outage disk).1 = false := failed
        rw [status] at through
        cases through
  cases upstream with
  | duckdb => exact extractAndPatch_contained rfl (by simp [Effect.path]) (by simp)
  | duckdbPython => exact extractAndPatch_contained rfl (by simp [Effect.path]) (by simp)
  | httpfs => exact extractAndPatch_contained rfl (by simp [Effect.path]) (by simp)
  | awsLc => exact extractAndPatch_contained rfl (by simp [Effect.path]) (by simp)
  | cryptography => exact inPlace
  | numpy => exact inPlace

/-- Every rule but the two that patch in place starts from a fresh tree. -/
theorem patching_patches (upstream : Upstream) (disk : Store τ π)
    (unpatched : upstream.split = true → treeAt disk = some pristine) :
    Patches tool names pristine outage disk ((patching tool names pristine upstream).recipe outage disk) := by
  cases upstream with
  | duckdb => exact extractAndPatch_patches disk (by simp [Effect.path])
  | duckdbPython => exact extractAndPatch_patches disk (by simp [Effect.path])
  | httpfs => exact extractAndPatch_patches disk (by simp [Effect.path])
  | awsLc => exact extractAndPatch_patches disk (by simp [Effect.path])
  | cryptography => exact patchInPlace_patches disk (unpatched rfl)
  | numpy => exact patchInPlace_patches disk (unpatched rfl)

/-- httpfs goes on to copy the client sources. -/
theorem httpfs_copies (disk : Store τ π) (through : ((patching tool names pristine .httpfs).recipe outage disk).1 = true) :
    ((disk.apply ((patching tool names pristine .httpfs).recipe outage disk).2).file .clientCopies).isSome = true := by
  have finish : ((patching tool names pristine .httpfs).recipe outage disk).2 =
      [.remove .sentinel, .remove .clientCopies] ++
        (.write .tree (.tree pristine) :: (patchLoop tool outage 0 (patches names disk) pristine).2) ++
          [.write .clientCopies .text, .write .sentinel .text] := by
    have loop : (patchLoop tool outage 0 (patches names disk) pristine).1 = true := through
    change _ ++ _ ++ (if (patchLoop tool outage 0 (patches names disk) pristine).1 = true then _ else _) = _
    rw [if_pos loop]
  rw [finish, Disk.apply_append]
  rfl

theorem patching_target (upstream : Upstream) (apart : upstream ≠ .awsLc) :
    (patching tool names pristine upstream).target = .sentinel := by
  cases upstream with
  | awsLc => exact absurd rfl apart
  | _ => rfl

/-- An edit of a patch file is newer than whatever the rule has made. -/
theorem patching_outdated (upstream : Upstream) (disk : Store τ π) {name : String} (listed : name ∈ names) (patch : π) :
    (patching tool names pristine upstream).outdated (disk.write (.patchFile name) (.patch patch)) = true := by
  have needed : .patchFile name ∈ (patching tool names pristine upstream).needs := by
    have among : File.patchFile name ∈ names.map File.patchFile := List.mem_map_of_mem listed
    cases upstream with
    | httpfs => exact List.mem_cons_of_mem _ (List.mem_append_left _ among)
    | duckdbPython => exact List.mem_cons_of_mem _ (List.mem_cons_of_mem _ among)
    | _ => exact List.mem_cons_of_mem _ among
  have other : (patching tool names pristine upstream).target ≠ .patchFile name := by
    cases upstream with
    | _ => exact fun same => by cases same
  by_contra current
  obtain ⟨_, made, found, older⟩ := (Node.current_iff _ _).mp (Bool.eq_false_iff.mpr current)
  obtain ⟨entry, read, bound⟩ := older _ needed
  rw [disk.write_other _ other] at found
  rw [disk.write_same, Option.some.injEq] at read
  rw [← read] at bound
  exact Nat.not_le_of_lt (disk.dated _ made found) bound

theorem update_patchFiles (upstream : Upstream) (disk : Store τ π) :
    patches names ((patching tool names pristine upstream).update outage disk).2 = patches names disk := by
  unfold Rule.update
  split
  · apply patches_congr
    intro name
    apply disk.apply_untouched
    exact fun change member => (patching_contained tool names pristine upstream).patchFiles outage disk change member name
  · rfl

/-- A failed run leaves its rule outdated, unless the rule's target is in the tree it patched. -/
theorem update_failed (upstream : Upstream) (apart : upstream ≠ .awsLc) (disk : Store τ π)
    (failed : ((patching tool names pristine upstream).update outage disk).1 = false) :
    (patching tool names pristine upstream).outdated
      ((patching tool names pristine upstream).update outage disk).2 = true := by
  unfold Rule.update at failed ⊢
  split at failed
  · rename_i outdated
    rw [if_pos outdated]
    by_contra current
    have unwritten := (patching_contained tool names pristine upstream).sentinel outage disk failed
    rw [← patching_target upstream apart] at unwritten
    have before := (Node.current_of_apply _ disk _ unwritten (Bool.eq_false_iff.mpr current)).1
    rw [outdated] at before
    cases before
  · cases failed

/-- One consideration of the rule that patches, from a disk on which it may be run. -/
theorem update_prepared (upstream : Upstream) (disk : Store τ π) (struck : Bool)
    (strikes : struck = false → ∀ other < (patches names disk).length, outage.strikes other = false)
    (unpatched : (patching tool names pristine upstream).outdated disk = true → upstream.split = true →
      treeAt disk = some pristine)
    (right : (patching tool names pristine upstream).outdated disk = false → Right tool pristine upstream names disk) :
    Prepared tool pristine upstream names ((patching tool names pristine upstream).update outage disk).2
      ⟨((patching tool names pristine upstream).update outage disk).1, struck⟩ := by
  have same : patches names ((patching tool names pristine upstream).update outage disk).2 = patches names disk :=
    update_patchFiles upstream disk
  cases state : (patching tool names pristine upstream).outdated disk with
  | false =>
    rw [Rule.update_current outage state]
    exact ⟨fun _ _ => rfl, fun _ => right state⟩
  | true =>
    rw [Rule.update_outdated outage state] at same ⊢
    have run : Patches tool names pristine outage disk ((patching tool names pristine upstream).recipe outage disk) :=
      patching_patches upstream disk (unpatched state)
    constructor
    · intro applies spared
      rw [same] at applies
      exact run.succeeds applies (strikes spared)
    · intro through
      rw [Right, same]
      refine ⟨run.exact through, ?_⟩
      rintro rfl
      exact httpfs_copies disk through

/-- Patching in place, however it ends, leaves a tree where there was one. -/
theorem update_there (upstream : Upstream) (split : upstream.split = true) (disk : Store τ π)
    (there : (treeAt disk).isSome = true) :
    (treeAt ((patching tool names pristine upstream).update outage disk).2).isSome = true := by
  obtain ⟨tree, found⟩ := Option.isSome_iff_exists.mp there
  have inPlace : Patches tool names tree outage disk (patchInPlace tool names outage disk) :=
    patchInPlace_patches disk found
  unfold Rule.update
  split
  · cases upstream with
    | cryptography => exact inPlace.there
    | numpy => exact inPlace.there
    | _ => cases split
  · exact there

/-- Extraction leaves a tree, and if it had to run, a pristine one that is still to be patched. -/
theorem extracted_update (disk : Store τ π) (upstream : Upstream) (split : upstream.split = true)
    (there : (disk.file .marker).isSome = true → (treeAt disk).isSome = true) :
    ((extracted pristine).update outage disk).1 = true ∧
      (treeAt ((extracted pristine).update outage disk).2).isSome = true ∧
      (((extracted pristine).update outage disk).2 = disk ∨
        (treeAt ((extracted pristine).update outage disk).2 = some pristine ∧
          patches names ((extracted pristine).update outage disk).2 = patches names disk ∧
          (patching tool names pristine upstream).outdated ((extracted pristine).update outage disk).2 = true)) := by
  cases state : (extracted pristine : Rule (Outage τ) File (Content τ π)).outdated disk with
  | false =>
    rw [Rule.update_current outage state]
    obtain ⟨_, made, found, _⟩ := (Node.current_iff _ _).mp state
    have marked : (disk.file .marker).isSome = true := Option.isSome_iff_exists.mpr ⟨made, found⟩
    exact ⟨rfl, there marked, .inl rfl⟩
  | true =>
    rw [Rule.update_outdated outage state]
    refine ⟨rfl, rfl, .inr ⟨rfl, patches_congr (fun name => rfl) names, ?_⟩⟩
    by_contra current
    have apart : upstream ≠ .awsLc := by
      rintro rfl
      cases split
    have unwritten : ∀ content, Effect.write (patching tool names pristine upstream).target content ∉
        ((extracted pristine).recipe outage disk).2 := by
      rw [patching_target upstream apart]
      simp [extracted]
    have needed : .marker ∈ (patching tool names pristine upstream).needs := by
      cases upstream with
      | cryptography => exact List.mem_cons_self
      | numpy => exact List.mem_cons_self
      | _ => cases split
    have same := (Node.current_of_apply _ disk _ unwritten (Bool.eq_false_iff.mpr current)).2.2 .marker needed
    have dated := disk.dated .marker _ same.symm
    exact absurd dated (Nat.not_lt_of_le (Nat.le_succ disk.clock))

namespace Workspace

/-- What the invariant says of the disk between two makes. -/
structure Kept (tool : PatchTool τ π) (pristine : τ) (upstream : Upstream) (workspace : Workspace τ π) : Prop where
  prepared : ∀ outcome ∈ workspace.last, Prepared tool pristine upstream workspace.names workspace.disk outcome
  current : (upstream = .awsLc → ∀ outcome ∈ workspace.last, outcome.ok = true) →
    (patching tool workspace.names pristine upstream).outdated workspace.disk = false →
      Right tool pristine upstream workspace.names workspace.disk
  extracted : upstream.split = true → (workspace.disk.file .marker).isSome = true → (treeAt workspace.disk).isSome = true

theorem edit_tree (workspace : Workspace τ π) (change : Option (String × π)) :
    treeAt (workspace.edit change).disk = treeAt workspace.disk ∧
      (workspace.edit change).disk.file .marker = workspace.disk.file .marker := by
  cases change with
  | none => exact ⟨rfl, rfl⟩
  | some change => exact ⟨rfl, rfl⟩

theorem mem_insertName (name : String) (names : List String) : name ∈ insertName name names := by
  unfold insertName
  split
  · assumption
  · exact (List.mem_orderedInsert _).mpr (.inl rfl)

/-- The rule is up to date only if nothing was edited. -/
theorem edit_current (upstream : Upstream) (workspace : Workspace τ π) (change : Option (String × π))
    (current : (patching tool (workspace.edit change).names pristine upstream).outdated
      (workspace.edit change).disk = false) :
    workspace.edit change = workspace := by
  cases change with
  | none => rfl
  | some change =>
    have outdated : (patching tool (insertName change.1 workspace.names) pristine upstream).outdated _ = true :=
      patching_outdated upstream workspace.disk (mem_insertName change.1 workspace.names) change.2
    exact absurd (outdated.symm.trans current) (by decide)

/-- A successful make is right, and one that failed has left its rule to be run again. -/
theorem kept_of_prepared {upstream : Upstream} {names : List String} {disk : Store τ π} {outcome : Outcome}
    (prepared : Prepared tool pristine upstream names disk outcome)
    (again : upstream ≠ .awsLc → outcome.ok = false → (patching tool names pristine upstream).outdated disk = true)
    (there : upstream.split = true → (treeAt disk).isSome = true) :
    Kept tool pristine upstream ⟨names, disk, some outcome⟩ := by
  refine ⟨fun other last => Option.some.inj last ▸ prepared, ?_, fun split _ => there split⟩
  intro unspoiled current
  cases ok : outcome.ok with
  | true => exact prepared.exact ok
  | false =>
    by_cases inTree : upstream = .awsLc
    · rw [unspoiled inTree outcome rfl] at ok
      cases ok
    · rw [again inTree ok] at current
      cases current

/-- An outcome that was not struck had no strike at any patch. -/
theorem spared_strikes {workspace : Workspace τ π} {outage : Outage τ}
    (spared : (List.range workspace.current.length).any outage.strikes = false) :
    ∀ other < (patches workspace.names workspace.disk).length, outage.strikes other = false := fun other less =>
  Bool.eq_false_iff.mpr (List.any_eq_false.mp spared other (List.mem_range.mpr less))

section Run

variable {upstream : Upstream} {workspace : Workspace τ π} {event : Event τ π}

/-- What is up to date after the edit was so before it, and is right. -/
theorem right_of_current (kept : workspace.Kept tool pristine upstream)
    (careful : workspace.Careful tool pristine upstream event)
    (current : (patching tool (workspace.edit event.change).names pristine upstream).outdated
      (workspace.edit event.change).disk = false) :
    Right tool pristine upstream (workspace.edit event.change).names (workspace.edit event.change).disk := by
  have unspoiled := fun inTree : upstream = .awsLc => careful.unspoiled inTree current
  have unedited := edit_current upstream workspace event.change current
  rw [unedited] at current ⊢
  exact kept.current unspoiled current

/-- One recipe extracts and patches. -/
theorem run_kept_whole (whole : upstream.split = false) (kept : workspace.Kept tool pristine upstream)
    (careful : workspace.Careful tool pristine upstream event) :
    (workspace.run tool pristine upstream event).Kept tool pristine upstream := by
  have joined : upstream.split ≠ true := by
    rw [whole]
    exact Bool.false_ne_true
  unfold run rules
  simp only [if_neg joined, make_singleton]
  apply kept_of_prepared
  · exact update_prepared upstream _ _ spared_strikes (fun _ split => absurd split joined) (right_of_current kept careful)
  · exact fun apart failed => update_failed upstream apart _ failed
  · exact fun split => absurd split joined

/-- One recipe extracts, and another patches what it finds. -/
theorem run_kept_split (split : upstream.split = true) (kept : workspace.Kept tool pristine upstream)
    (careful : workspace.Careful tool pristine upstream event) :
    (workspace.run tool pristine upstream event).Kept tool pristine upstream := by
  obtain ⟨sameTree, sameMarker⟩ := workspace.edit_tree event.change
  have marked : ((workspace.edit event.change).disk.file .marker).isSome = true →
      (treeAt (workspace.edit event.change).disk).isSome = true := by
    rw [sameTree, sameMarker]
    exact kept.extracted split
  obtain ⟨through, there, extraction⟩ := @extracted_update τ π tool (workspace.edit event.change).names pristine
    event.outage (workspace.edit event.change).disk upstream split marked
  unfold run rules
  simp only [if_pos split]
  rw [make, if_pos through, make_singleton]
  generalize ((extracted pristine).update event.outage (workspace.edit event.change).disk).2 = disk at there extraction ⊢
  have apart : upstream ≠ .awsLc := by
    rintro rfl
    cases split
  refine kept_of_prepared ?_ (fun _ failed => update_failed upstream apart disk failed)
    fun _ => update_there upstream split disk there
  -- either nothing was extracted, or the tree is pristine and has yet to be patched
  rcases extraction with same | ⟨fresh, same, outdated⟩
  · subst same
    refine update_prepared upstream _ _ spared_strikes (fun outdated _ => ?_) (right_of_current kept careful)
    rcases careful.unpatched split outdated with missing | fresh
    · rw [sameTree, missing] at there
      cases there
    · exact sameTree.trans fresh
  · refine update_prepared upstream disk _ (fun spared => same ▸ spared_strikes spared) (fun _ _ => fresh) fun current => ?_
    rw [current] at outdated
    cases outdated

theorem run_kept (kept : workspace.Kept tool pristine upstream) (careful : workspace.Careful tool pristine upstream event) :
    (workspace.run tool pristine upstream event).Kept tool pristine upstream := by
  cases split : upstream.split with
  | false => exact run_kept_whole split kept careful
  | true => exact run_kept_split split kept careful

end Run

/-- A clone has nothing of what the rules make. -/
theorem clone_kept (names : List String) (patch : String → π) (upstream : Upstream) :
    (clone names patch).Kept tool pristine upstream := by
  have unmade : ∀ path, path ∉ [.tarball, .pythonTarball, .clientSources] ++ names.map File.patchFile →
      (clone (τ := τ) names patch).disk.file path = none := fun path absent => if_neg absent
  refine ⟨(fun outcome last => by cases last), ?_, ?_⟩
  · intro _ current
    obtain ⟨_, made, found, _⟩ := (Node.current_iff _ _).mp current
    rw [unmade] at found
    · cases found
    · cases upstream with
      | _ => simp [clone, patching, duckdbPatched, duckdbPythonPatched, httpfsPrepared, awsLcPatched, patchedInPlace]
  · intro _ marked
    rw [unmade .marker (by simp)] at marked
    cases marked

/-- Where one recipe extracts and patches, a make that follows an edit is careful. -/
theorem careful_of_edit {upstream : Upstream} (whole : upstream.split = false) (workspace : Workspace τ π)
    {event : Event τ π} (edited : event.change.isSome = true) : workspace.Careful tool pristine upstream event := by
  constructor
  · intro split
    rw [whole] at split
    cases split
  · intro _ current
    have unedited := edit_current upstream workspace event.change current
    obtain ⟨⟨name, patch⟩, change⟩ := Option.isSome_iff_exists.mp edited
    rw [change] at unedited current
    have outdated : (patching tool (insertName name workspace.names) pristine upstream).outdated _ = true :=
      patching_outdated upstream workspace.disk (mem_insertName name workspace.names) patch
    exact absurd (outdated.symm.trans current) (by decide)

/-- In every state that careful makes lead to, the last make has done what it owes. -/
theorem prepared_of_careful {tool : PatchTool τ π} {pristine : τ} {upstream : Upstream} {names : List String}
    {patch : String → π} {workspace : Workspace τ π}
    (reached : Reachable (fun workspace event => some (workspace.run tool pristine upstream event))
      (Careful tool pristine upstream) (clone names patch) workspace) :
    ∀ outcome ∈ workspace.last, Prepared tool pristine upstream workspace.names workspace.disk outcome := by
  have kept : workspace.Kept tool pristine upstream := by
    refine reached.invariant (clone_kept names patch upstream) ?_
    intro state next event kept careful moved
    exact Option.some.inj moved ▸ run_kept kept careful
  exact kept.prepared

/-- Lines of numbers; a patch replaces a number by another. -/
def replacing : PatchTool (List Nat) (Nat × Nat) where
  apply patch tree :=
    if patch.1 ∈ tree ∧ patch.1 ≠ patch.2 then some (tree.map fun line => if line = patch.1 then patch.2 else line)
    else none
  rejected _ tree := tree
  touches patch := patch.1 = 1
  reapplied := by
    intro patch tree patched applied
    split at applied
    · cases applied
      apply if_neg
      rintro ⟨member, differs⟩
      obtain ⟨line, _, same⟩ := List.mem_map.mp member
      split at same
      · exact differs same.symm
      · rename_i other
        exact other same
    · cases applied

def calm : Outage (List Nat) := ⟨fun _ => false, fun _ tree => tree, fun _ => false⟩

/-- httpfs, whose one patch is edited before the first make. -/
def httpfsEdited : Workspace (List Nat) (Nat × Nat) :=
  (clone ["0001.patch"] fun _ => (1, 9)).run replacing [1, 3] .httpfs ⟨some ("0001.patch", (1, 2)), calm⟩

/-- A second patch is added, and something strikes before it. -/
def httpfsStruck : Workspace (List Nat) (Nat × Nat) :=
  httpfsEdited.run replacing [1, 3] .httpfs ⟨some ("0002.patch", (3, 4)), { calm with strikes := fun index => index == 1 }⟩

/-- The first patch is edited once more. -/
def httpfsMended : Workspace (List Nat) (Nat × Nat) :=
  httpfsStruck.run replacing [1, 3] .httpfs ⟨some ("0001.patch", (1, 5)), calm⟩

theorem prepared_httpfs : httpfsStruck.last = some ⟨false, true⟩ ∧ treeAt httpfsStruck.disk = some [2, 3] ∧
    httpfsMended.last = some ⟨true, false⟩ ∧ treeAt httpfsMended.disk = some [5, 4] ∧
    ∀ outcome ∈ httpfsMended.last, Prepared replacing [1, 3] .httpfs httpfsMended.names httpfsMended.disk outcome := by
  refine ⟨by decide, by decide, by decide, by decide, ?_⟩
  have whole : Upstream.httpfs.split = false := rfl
  refine prepared_of_careful (.step ⟨some ("0001.patch", (1, 5)), calm⟩ (.step _ (.step _ .start ?_ rfl) ?_ rfl) ?_ rfl)
  · exact careful_of_edit whole (clone ["0001.patch"] fun _ => (1, 9)) rfl
  · exact careful_of_edit whole httpfsEdited rfl
  · exact careful_of_edit whole httpfsStruck rfl

/-- numpy, made once. -/
def numpyMade : Workspace (List Nat) (Nat × Nat) :=
  (clone ["0001.patch"] fun _ => (1, 2)).run replacing [1, 3] .numpy ⟨none, calm⟩

/-- Its patch is edited, and it is made again. -/
def numpyEdited : Workspace (List Nat) (Nat × Nat) :=
  numpyMade.run replacing [1, 3] .numpy ⟨some ("0001.patch", (1, 5)), calm⟩

/-- AWS-LC with two patches, the first of them of `CMakeLists.txt`; something strikes before the second. -/
def awsLcStruck : Workspace (List Nat) (Nat × Nat) :=
  (clone ["0001.patch", "0002.patch"] fun name => if name = "0001.patch" then (1, 2) else (3, 4)).run replacing [1, 3]
    .awsLc ⟨none, { calm with strikes := fun index => index == 1 }⟩

/-- The edited patch applies to the pristine tree, but numpy's is patched already; and
AWS-LC's tree is taken for done with one patch in it. -/
theorem edited_and_struck_unprepared :
    (¬ ∀ outcome ∈ numpyEdited.last, Prepared replacing [1, 3] .numpy numpyEdited.names numpyEdited.disk outcome) ∧
    ¬ ∀ outcome ∈ (awsLcStruck.run replacing [1, 3] .awsLc ⟨none, calm⟩).last,
      Prepared replacing [1, 3] .awsLc (awsLcStruck.run replacing [1, 3] .awsLc ⟨none, calm⟩).names
        (awsLcStruck.run replacing [1, 3] .awsLc ⟨none, calm⟩).disk outcome := by
  constructor
  · intro prepared
    have last : numpyEdited.last = some ⟨false, false⟩ := by decide
    have succeeds := (prepared ⟨false, false⟩ last).succeeds (by decide) rfl
    cases succeeds
  · intro prepared
    have last : (awsLcStruck.run replacing [1, 3] .awsLc ⟨none, calm⟩).last = some ⟨true, false⟩ := by decide
    obtain ⟨⟨tree, applied, there⟩, _⟩ := (prepared ⟨true, false⟩ last).exact rfl
    have patched : replacing.applyAll (patches (awsLcStruck.run replacing [1, 3] .awsLc ⟨none, calm⟩).names
        (awsLcStruck.run replacing [1, 3] .awsLc ⟨none, calm⟩).disk) [1, 3] = some [2, 4] := by decide
    have left : treeAt (awsLcStruck.run replacing [1, 3] .awsLc ⟨none, calm⟩).disk = some [2, 3] := by decide
    rw [patched] at applied
    rw [left, ← applied] at there
    exact absurd there (by decide)

end Workspace

end WasiWheels.Build.Patching
