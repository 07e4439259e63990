import WasiWheels.Publish.Forge

/-! Runs in which every step is careful: releases stay faithful to their tags and the
deployed index verifiable, in every state between any two steps. -/

namespace WasiWheels.Publish

open Index (Wheel WheelSet)

/-- The release has what was uploaded. -/
def Release.Has (release : Release) : Upload → Prop
  | .wheel wheel => (release.wheels wheel.name).map Asset.digest = some wheel.digest
  | .sums text => release.sums = some text

/-- These SHA256SUMS list digests of the release. -/
def Release.Lists (release : Release) (text : Text) : Prop :=
  ∃ dist : WheelSet, text = Index.sha256sums dist.wheels ∧ ∀ wheel ∈ dist.wheels, release.Has (.wheel wheel)

/-- What an index was made from still matches the release. -/
def Forge.Backs (forge : Forge) (index : Index.Release) : Prop :=
  ∃ release, forge.releases index.tag = some release ∧ release.Lists index.sums

/-- What careful steps keep. -/
structure Forge.Sound (forge : Forge) : Prop where
  faithful : forge.Faithful
  runs : ∀ run ∈ forge.unfinished, forge.refs (.tag run.tag) = some run.commit
  settled : ∀ tag release, forge.releases tag = some release → release.torn = false →
    ∀ text, release.sums = some text → release.Lists text
  clobbering : ∀ run dist rest, forge.active = some (run, .clobber dist rest) →
    rest ⊆ uploads dist ∧ ∀ release, forge.releases run.tag = some release →
      ∀ item ∈ uploads dist, item ∈ rest ∨ release.Has item
  deployed : ∀ index, forge.deployed = some index → forge.Backs index
  deploying : ∀ run index, forge.active = some (run, .deploy (some index)) → forge.Backs index

theorem mem_uploads {dist : WheelSet} {item : Upload} : item ∈ uploads dist ↔
    (∃ wheel ∈ dist.wheels, item = .wheel wheel) ∨ item = .sums (Index.sha256sums dist.wheels) := by
  simp [uploads, eq_comm]

/-- An upload is there afterwards, and so is every other upload of the same set. -/
theorem Release.put_has {dist : WheelSet} (commit : Commit) {release : Release} {new item : Upload}
    (among : new ∈ uploads dist) (member : item ∈ uploads dist) (had : item = new ∨ release.Has item) :
    (release.put commit new).Has item := by
  rcases mem_uploads.mp among with ⟨wheel, listed, rfl⟩ | rfl
  · rcases mem_uploads.mp member with ⟨other, listed', rfl⟩ | rfl
    · by_cases same : other.name = wheel.name
      · cases dist.named listed' listed same
        simp [put, Has]
      · rcases had with equal | had
        · cases equal
          exact absurd rfl same
        · simpa [put, Has, Function.update_of_ne same] using had
    · rcases had with same | had
      · cases same
      · exact had
  · rcases had with rfl | had
    · simp [put, Has]
    · rcases mem_uploads.mp member with ⟨other, _, rfl⟩ | rfl
      · exact had
      · simp [put, Has]

theorem Release.put_all {dist : WheelSet} (commit : Commit) (items : List Upload) (within : items ⊆ uploads dist)
    (release : Release) (item : Upload) (member : item ∈ uploads dist) (had : item ∈ items ∨ release.Has item) :
    (items.foldl (put commit) release).Has item := by
  induction items generalizing release with
  | nil => exact had.resolve_left (by simp)
  | cons first rest ih =>
    obtain ⟨among, later⟩ := List.cons_subset.mp within
    apply ih later
    rcases had with listed | had
    · rcases List.mem_cons.mp listed with same | tail
      · exact Or.inr (put_has commit among member (Or.inl same))
      · exact Or.inl tail
    · exact Or.inr (put_has commit among member (Or.inr had))

/-- A release with everything of one build in it. -/
theorem Release.lists_of_has {dist : WheelSet} {release : Release} (all : ∀ item ∈ uploads dist, release.Has item)
    {text : Text} (found : release.sums = some text) : release.Lists text := by
  have sums : release.sums = some (Index.sha256sums dist.wheels) := all _ (mem_uploads.mpr (Or.inr rfl))
  rw [found, Option.some.injEq] at sums
  exact ⟨dist, sums, fun wheel member => all _ (mem_uploads.mpr (Or.inl ⟨wheel, member, rfl⟩))⟩

/-- A wheel put into a release was built from the commit of the run. -/
theorem Release.put_wheels {commit : Commit} {release : Release} {new : Upload} {name : Text} {asset : Asset}
    (found : (release.put commit new).wheels name = some asset) :
    asset.commit = commit ∨ release.wheels name = some asset := by
  cases new with
  | sums text => exact Or.inr found
  | wheel wheel =>
    by_cases same : name = wheel.name
    · subst same
      simp only [put, Function.update_self, Option.some.injEq] at found
      exact Or.inl (found ▸ rfl)
    · simp only [put, Function.update_of_ne same] at found
      exact Or.inr found

theorem Release.foldl_wheels {commit : Commit} (items : List Upload) {release : Release} {name : Text} {asset : Asset}
    (found : (items.foldl (put commit) release).wheels name = some asset) :
    asset.commit = commit ∨ release.wheels name = some asset := by
  induction items generalizing release with
  | nil => exact Or.inr found
  | cons first rest ih =>
    rcases ih found with built | early
    · exact Or.inl built
    · exact put_wheels early

/-- SHA256SUMS stay right under an upload that brings no other digest under a listed name. -/
theorem Release.Lists.put {release : Release} {commit : Commit} {new : Upload} {text : Text} (lists : release.Lists text)
    (agrees : ∀ wheel, new = .wheel wheel → ∀ line ∈ Text.lines text, Text.afterLast ' ' line = wheel.name →
      Text.beforeFirst ' ' line = wheel.digest) : (release.put commit new).Lists text := by
  obtain ⟨dist, rfl, has⟩ := lists
  refine ⟨dist, rfl, ?_⟩
  intro wheel member
  cases new with
  | sums other => exact has wheel member
  | wheel other =>
    by_cases same : wheel.name = other.name
    · have listed : Index.sumLine wheel ∈ Text.lines (Index.sha256sums dist.wheels) := by
        rw [Index.lines_sha256sums]
        exact List.mem_map_of_mem member
      have digest := agrees other rfl _ listed ((Index.sumLine_name wheel).trans same)
      rw [Index.sumLine_digest] at digest
      simp [Release.put, Release.Has, same, digest]
    · have kept := has wheel member
      simpa [Release.put, Release.Has, Function.update_of_ne same] using kept

theorem Run.tag_pushed (name : Text) (commit : Commit) : (Run.mk (.tag name) commit []).tag = name := by
  have full : (Run.mk (.tag name) commit []).ref.full = "refs/tags/".toList ++ name := rfl
  have empty : (Run.mk (.tag name) commit []).input = [] := rfl
  generalize Run.mk (.tag name) commit [] = run at *
  rw [Run.tag, empty, full, if_neg (not_not_intro rfl)]
  generalize "refs/tags/".toList = start
  exact Text.withoutPrefix_append start name

namespace Forge

variable {forge : Forge}

/-- A step that leaves refs, releases and the deployed index alone. -/
theorem Sound.turn (sound : forge.Sound) {waiting : List Run} {active : Option (Run × Stage)}
    (runs : ∀ run ∈ (active.map Prod.fst).toList ++ waiting, forge.refs (.tag run.tag) = some run.commit)
    (clobbering : ∀ run dist rest, active = some (run, .clobber dist rest) →
      rest ⊆ uploads dist ∧ ∀ release, forge.releases run.tag = some release →
        ∀ item ∈ uploads dist, item ∈ rest ∨ release.Has item)
    (deploying : ∀ run index, active = some (run, .deploy (some index)) → forge.Backs index) :
    { forge with waiting, active }.Sound where
  faithful := sound.faithful
  runs := runs
  settled := sound.settled
  clobbering := clobbering
  deployed := sound.deployed
  deploying := deploying

/-- A step that changes only which runs wait. -/
theorem Sound.queue (sound : forge.Sound) {waiting : List Run}
    (runs : ∀ run ∈ waiting, forge.refs (.tag run.tag) = some run.commit) : { forge with waiting }.Sound := by
  apply sound.turn _ sound.clobbering sound.deploying
  intro run member
  rcases List.mem_append.mp member with active | queued
  · exact sound.runs run (List.mem_append_left _ active)
  · exact runs run queued

/-- A step that replaces one release. -/
theorem Sound.revise (sound : forge.Sound) {tag : Text} {release : Release} {active : Option (Run × Stage)}
    (faithful : ∀ name asset, release.wheels name = some asset → forge.refs (.tag tag) = some asset.commit)
    (settled : release.torn = false → ∀ text, release.sums = some text → release.Lists text)
    (listed : ∀ index, forge.deployed = some index → index.tag = tag → release.Lists index.sums)
    (same : active.map Prod.fst = forge.active.map Prod.fst)
    (clobbering : ∀ run dist rest, active = some (run, .clobber dist rest) →
      run.tag = tag ∧ rest ⊆ uploads dist ∧ ∀ item ∈ uploads dist, item ∈ rest ∨ release.Has item)
    (undeploying : ∀ run index, active ≠ some (run, .deploy index)) :
    { forge with releases := Function.update forge.releases tag (some release), active }.Sound where
  faithful := by
    intro other name asset found
    obtain ⟨existing, read, asset_⟩ := Option.bind_eq_some_iff.mp found
    by_cases revised : other = tag
    · subst revised
      simp only [Function.update_self, Option.some.injEq] at read
      exact faithful name asset (read ▸ asset_)
    · simp only [Function.update_of_ne revised] at read
      exact sound.faithful other name asset (Option.bind_eq_some_iff.mpr ⟨existing, read, asset_⟩)
  runs := by
    intro run member
    apply sound.runs run
    simpa only [unfinished, same] using member
  settled := by
    intro other existing found whole text sums
    by_cases revised : other = tag
    · subst revised
      simp only [Function.update_self, Option.some.injEq] at found
      cases found
      exact settled whole text sums
    · simp only [Function.update_of_ne revised] at found
      exact sound.settled other existing found whole text sums
  clobbering := by
    intro run dist rest stage
    obtain ⟨own, within, uploaded⟩ := clobbering run dist rest stage
    refine ⟨within, ?_⟩
    intro existing found
    simp only [own, Function.update_self, Option.some.injEq] at found
    exact found ▸ uploaded
  deployed := by
    intro index shown
    by_cases revised : index.tag = tag
    · exact ⟨release, by simp only [revised, Function.update_self], listed index shown revised⟩
    · obtain ⟨existing, found, lists⟩ := sound.deployed index shown
      exact ⟨existing, by simp only [Function.update_of_ne revised]; exact found, lists⟩
  deploying := fun run index stage => absurd stage (undeploying run (some index))

theorem mem_unfinished_active {run : Run} {stage : Stage} (active : forge.active = some (run, stage)) :
    run ∈ forge.unfinished := by
  simp [unfinished, active]

theorem mem_unfinished_waiting {run : Run} (member : run ∈ forge.waiting) : run ∈ forge.unfinished :=
  List.mem_append_right _ member

theorem Sound.push (sound : forge.Sound) (ref : Ref) (commit : Commit)
    (careful : (Event.push ref commit).Careful forge) {next : Forge} (moved : forge.step (.push ref commit) = some next) :
    next.Sound := by
  cases moved
  have refs (tag : Text) (busy : (forge.releases tag).isSome = true ∨ ∃ run ∈ forge.unfinished, run.tag = tag) :
      Function.update forge.refs ref (some commit) (.tag tag) = forge.refs (.tag tag) := by
    by_cases moved : Ref.tag tag = ref
    · subst moved
      rw [Function.update_self]
      exact (careful busy).symm
    · rw [Function.update_of_ne moved]
  refine { faithful := ?_, runs := ?_, settled := sound.settled, clobbering := sound.clobbering,
           deployed := sound.deployed, deploying := sound.deploying }
  · intro tag name asset found
    obtain ⟨release, read, _⟩ := Option.bind_eq_some_iff.mp found
    have existing : forge.releases tag = some release := read
    exact (refs tag (Or.inl (by rw [existing]; rfl))).trans (sound.faithful tag name asset found)
  · have old (run : Run) (member : run ∈ forge.unfinished) :
        Function.update forge.refs ref (some commit) (.tag run.tag) = some run.commit := by
      rw [refs run.tag (Or.inr ⟨run, member, rfl⟩)]
      exact sound.runs run member
    intro run member
    rcases List.mem_append.mp member with active | waiting
    · exact old run (List.mem_append_left _ active)
    · dsimp only at waiting
      split at waiting
      · rename_i triggered
        rcases List.mem_append.mp waiting with earlier | new
        · exact old run (mem_unfinished_waiting earlier)
        · cases List.mem_singleton.mp new
          cases ref with
          | branch name => cases triggered
          | tag name =>
            rw [Run.tag_pushed]
            exact Function.update_self ..
      · exact old run (mem_unfinished_waiting waiting)

theorem Sound.dispatch (sound : forge.Sound) {ref : Ref} {tag : Text} (careful : (Event.dispatch ref tag).Careful forge)
    {next : Forge} (moved : forge.step (.dispatch ref tag) = some next) : next.Sound := by
  simp only [step] at moved
  split at moved
  · rename_i commit named
    split at moved
    · rename_i given
      cases moved
      apply sound.queue
      intro run member
      rcases List.mem_append.mp member with earlier | new
      · exact sound.runs run (mem_unfinished_waiting earlier)
      · cases List.mem_singleton.mp new
        rw [Run.tag, if_pos given.1, ← careful]
        exact named
    · cases moved
  · cases moved

theorem Sound.start (sound : forge.Sound) {index : Nat} {next : Forge} (moved : forge.step (.start index) = some next) :
    next.Sound := by
  simp only [step] at moved
  split at moved
  · rename_i run idle found
    cases moved
    apply sound.turn
    · intro other member
      rcases List.mem_append.mp member with active | waiting
      · cases List.mem_singleton.mp active
        exact sound.runs run (mem_unfinished_waiting (List.mem_of_getElem? found))
      · exact sound.runs other (mem_unfinished_waiting (List.mem_of_mem_eraseIdx waiting))
    · exact fun _ _ _ stage => by cases stage
    · exact fun _ _ stage => by cases stage
  · cases moved

/-- The active run goes on to another stage without touching a release. -/
theorem Sound.proceed (sound : forge.Sound) {run : Run} {stage stage' : Stage} (active : forge.active = some (run, stage))
    (clobbering : ∀ dist rest, stage' = .clobber dist rest → rest ⊆ uploads dist ∧ ∀ item ∈ uploads dist, item ∈ rest)
    (deploying : ∀ index, stage' = .deploy (some index) → forge.Backs index) :
    { forge with active := some (run, stage') }.Sound := by
  apply sound.turn
  · intro other member
    rcases List.mem_append.mp member with own | waiting
    · cases List.mem_singleton.mp own
      exact sound.runs run (mem_unfinished_active active)
    · exact sound.runs other (mem_unfinished_waiting waiting)
  · intro other dist rest same
    cases same
    obtain ⟨within, all⟩ := clobbering dist rest rfl
    exact ⟨within, fun _ _ item member => Or.inl (all item member)⟩
  · intro other index same
    cases same
    exact deploying index rfl

theorem Sound.build (sound : forge.Sound) {dist : WheelSet} {next : Forge} (moved : forge.step (.build dist) = some next) :
    next.Sound := by
  simp only [step] at moved
  split at moved
  · rename_i run active
    cases moved
    exact sound.proceed active (fun _ _ same => by cases same) (fun _ same => by cases same)
  · cases moved

theorem Sound.publish (sound : forge.Sound) {next : Forge} (moved : forge.step .publish = some next) : next.Sound := by
  simp only [step] at moved
  split at moved
  · rename_i run dist active
    have current := sound.runs run (mem_unfinished_active active)
    split at moved
    · rename_i unreleased
      cases moved
      apply sound.revise
      · intro name asset found
        rcases Release.foldl_wheels _ found with built | early
        · rw [built]
          exact current
        · cases early
      · intro _ text found
        exact Release.lists_of_has
          (fun item member => Release.put_all _ _ (List.Subset.refl _) _ item member (Or.inl member)) found
      · intro index shown same
        obtain ⟨release, found, _⟩ := sound.deployed index shown
        rw [same, unreleased] at found
        cases found
      · simp [active]
      · exact fun _ _ _ stage => by cases stage
      · exact fun _ _ stage => by cases stage
    · cases moved
      apply sound.proceed active
      · intro dist' rest same
        cases same
        exact ⟨List.Subset.refl _, fun item member => member⟩
      · exact fun _ same => by cases same
  · cases moved

theorem Sound.upload (sound : forge.Sound) {index : Nat} (careful : (Event.upload index).Careful forge) {next : Forge}
    (moved : forge.step (.upload index) = some next) : next.Sound := by
  simp only [step] at moved
  split at moved
  · rename_i run dist rest active
    have current := sound.runs run (mem_unfinished_active active)
    obtain ⟨within, uploaded⟩ := sound.clobbering run dist rest active
    split at moved
    · rename_i release item found listed
      have among : item ∈ uploads dist := within (List.mem_of_getElem? listed)
      cases moved
      apply sound.revise
      · intro name asset put
        rcases Release.put_wheels put with built | early
        · rw [built]
          exact current
        · exact sound.faithful run.tag name asset (by simp [served, found, early])
      · exact fun whole => by cases whole
      · intro shown deployed same
        obtain ⟨existing, read, lists⟩ := sound.deployed shown deployed
        rw [same, found, Option.some.injEq] at read
        subst read
        obtain ⟨dist', text, has⟩ := @Release.Lists.put _ run.commit item _ lists (by
          rintro wheel rfl
          exact careful (run.tag, wheel) (by simp [replacement, active, listed]) shown deployed same)
        exact ⟨dist', text, has⟩
      · simp [active]
      · intro other dist' rest' stage
        cases stage
        refine ⟨rfl, fun _ member => within (List.mem_of_mem_eraseIdx member), ?_⟩
        intro other member
        by_cases same : other = item
        · exact Or.inr (Release.put_has run.commit among member (Or.inl same))
        · rcases uploaded release found other member with awaited | had
          · left
            obtain ⟨place, here⟩ := List.mem_iff_getElem?.mp awaited
            refine List.mem_eraseIdx_iff_getElem?.mpr ⟨place, ?_, here⟩
            rintro rfl
            exact same (Option.some.inj (here.symm.trans listed))
          · exact Or.inr (Release.put_has run.commit among member (Or.inr had))
      · exact fun _ _ stage => by cases stage
    · cases moved
  · cases moved

theorem Sound.uploaded (sound : forge.Sound) {next : Forge} (moved : forge.step .uploaded = some next) : next.Sound := by
  simp only [step] at moved
  split at moved
  · rename_i run dist active
    obtain ⟨release, found, moved⟩ := Option.map_eq_some_iff.mp moved
    obtain ⟨_, uploaded⟩ := sound.clobbering run dist [] active
    have all : ∀ item ∈ uploads dist, release.Has item :=
      fun item member => (uploaded release found item member).resolve_left (by simp)
    cases moved
    apply sound.revise
    · intro name asset put
      exact sound.faithful run.tag name asset (by simpa [served, found] using put)
    · exact fun _ text sums => Release.lists_of_has all sums
    · intro index deployed same
      obtain ⟨existing, read, lists⟩ := sound.deployed index deployed
      rw [same, found, Option.some.injEq] at read
      exact read ▸ lists
    · simp [active]
    · exact fun _ _ _ stage => by cases stage
    · exact fun _ _ stage => by cases stage
  · cases moved

theorem Sound.generate (sound : forge.Sound) {latest : Option Text} (careful : (Event.generate latest).Careful forge)
    {next : Forge} (moved : forge.step (.generate latest) = some next) : next.Sound := by
  simp only [step] at moved
  split at moved
  · rename_i run active
    split at moved
    · cases moved
      exact sound.proceed active (fun _ _ same => by cases same) (fun _ same => by cases same)
    · rename_i tag
      obtain ⟨sums, read, moved⟩ := Option.map_eq_some_iff.mp moved
      obtain ⟨release, found, listed⟩ := Option.bind_eq_some_iff.mp read
      cases moved
      apply sound.proceed active
      · exact fun _ _ same => by cases same
      · intro index same
        cases same
        exact ⟨release, found, sound.settled tag release found (careful release found) sums listed⟩
  · cases moved

theorem Sound.deploy (sound : forge.Sound) {next : Forge} (moved : forge.step .deploy = some next) : next.Sound := by
  simp only [step] at moved
  split at moved
  · rename_i run index active
    cases moved
    exact { faithful := sound.faithful
            runs := fun other member => sound.runs other (mem_unfinished_waiting member)
            settled := sound.settled
            clobbering := fun _ _ _ stage => by cases stage
            deployed := fun shown same => sound.deploying run shown (by rw [active, ← same])
            deploying := fun _ _ stage => by cases stage }
  · cases moved

theorem Sound.step (sound : forge.Sound) (event : Event) (careful : event.Careful forge) {next : Forge}
    (moved : forge.step event = some next) : next.Sound := by
  cases event with
  | push ref commit => exact sound.push ref commit careful moved
  | dispatch ref tag => exact sound.dispatch careful moved
  | start index => exact sound.start moved
  | build dist => exact sound.build moved
  | publish => exact sound.publish moved
  | upload index => exact sound.upload careful moved
  | uploaded => exact sound.uploaded moved
  | generate latest => exact sound.generate careful moved
  | deploy => exact sound.deploy moved
  | cancel index =>
    cases moved
    apply sound.queue
    intro run waiting
    exact sound.runs run (mem_unfinished_waiting (List.mem_of_mem_eraseIdx waiting))
  | abort =>
    cases moved
    apply sound.turn
    · exact fun run member => sound.runs run (mem_unfinished_waiting member)
    · exact fun _ _ _ stage => by cases stage
    · exact fun _ _ stage => by cases stage

end Forge

end WasiWheels.Publish
