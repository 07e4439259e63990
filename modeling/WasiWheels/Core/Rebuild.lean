import WasiWheels.Core.Make

/-! When rebuilding by modification times is right: every recipe reads only its
prerequisites, and whatever decides its output is visible in one of them. -/

namespace WasiWheels.Make

variable {φ ε α : Type}

/-- The file holds what a clean build in this environment would put there. -/
def Holds (value : ε → φ → α) (disk : Disk φ α) (env : ε) (path : φ) : Prop :=
  ∃ entry, disk.file path = some entry ∧ entry.content = value env path

theorem Holds.congr {value : ε → φ → α} {disk disk' : Disk φ α} {env : ε} {path : φ} (holds : Holds value disk env path)
    (same : disk'.file path = disk.file path) : Holds value disk' env path := by
  obtain ⟨entry, found, content⟩ := holds
  exact ⟨entry, same.trans found, content⟩

/-- A file that holds the values of two environments shows they agree on it. -/
theorem Holds.agree {value : ε → φ → α} {disk : Disk φ α} {env env' : ε} {path : φ} (holds : Holds value disk env path)
    (holds' : Holds value disk env' path) : value env path = value env' path := by
  obtain ⟨entry, found, content⟩ := holds
  obtain ⟨entry', found', content'⟩ := holds'
  rw [found, Option.some.injEq] at found'
  rw [← content, ← content', found']

section Values

variable (value : ε → φ → α) [DecidableEq φ]

/-- Targets up to date hold the value of every environment whose values their prerequisites hold. -/
def Consistent (scope : ε → Prop) (rules : List (Rule ε φ α)) (disk : Disk φ α) : Prop :=
  ∀ rule ∈ rules, rule.outdated disk = false → ∀ env, scope env →
    (∀ need ∈ rule.needs, Holds value disk env need) → Holds value disk env rule.target

/-- The contract of a recipe: what it keeps, delivers and touches, and that its
target cannot change with the environment unless a prerequisite does. -/
structure Rule.Sound (scope : ε → Prop) (extra : Disk φ α → Prop) (scratch : List φ) (rule : Rule ε φ α) :
    Prop where
  succeeds : ∀ env disk, (rule.recipe env disk).1 = true
  keeps : ∀ env disk, scope env → extra disk → extra (disk.apply (rule.recipe env disk).2)
  makes : ∀ env disk, scope env → extra disk →
    (∀ path ∈ rule.needs ++ rule.afters, Holds value disk env path) →
    Holds value (disk.apply (rule.recipe env disk).2) env rule.target
  writes : ∀ env disk path content, Effect.write path content ∈ (rule.recipe env disk).2 →
    path = rule.target ∨ path ∈ scratch
  removes : ∀ env disk path, Effect.remove path ∈ (rule.recipe env disk).2 → path ∈ rule.drops ∨ path ∈ scratch
  tracks : rule.forced = true ∨ ∀ env env', scope env → scope env' →
    (∀ need ∈ rule.needs, value env need = value env' need) → value env rule.target = value env' rule.target

/-- The state between two invocations. -/
structure Steady (scope : ε → Prop) (extra : Disk φ α → Prop) (makefile : Makefile ε φ α) (disk : Disk φ α) :
    Prop where
  kept : extra disk
  grounded : ∀ env, scope env → ∀ path ∈ makefile.sources, Holds value disk env path
  consistent : Consistent value scope makefile.rules disk

end Values

variable [DecidableEq φ] {value : ε → φ → α} {scope : ε → Prop} {extra : Disk φ α → Prop}

namespace Rule.Sound

variable {scratch : List φ} {rule : Rule ε φ α}

/-- A recipe leaves alone whatever is not its target, cleared by it, or scratch. -/
theorem untouched (sound : rule.Sound value scope extra scratch) (env : ε) (disk : Disk φ α) {path : φ}
    (target : path ≠ rule.target) (cleared : path ∉ rule.drops) (private_ : path ∉ scratch) :
    (disk.apply (rule.recipe env disk).2).file path = disk.file path := by
  apply disk.apply_untouched
  intro effect member same
  cases effect with
  | write written content =>
    rcases sound.writes env disk written content member with made | hidden
    · exact target (same.symm.trans made)
    · exact private_ (same ▸ hidden)
  | remove removed =>
    rcases sound.removes env disk removed member with dropped | hidden
    · exact cleared (same ▸ dropped)
    · exact private_ (same ▸ hidden)

/-- Running one recipe on right prerequisites keeps every other rule's promise too. -/
theorem consistent {makefile : Makefile ε φ α} (sound : rule.Sound value scope extra makefile.scratch)
    (disk : Disk φ α) (env : ε) (inScope : scope env) (steady : Steady value scope extra makefile disk)
    (ready : ∀ path ∈ rule.needs ++ rule.afters, Holds value disk env path)
    (intact : ∀ path ∈ rule.needs, path ≠ rule.target ∧ path ∉ rule.drops ∧ path ∉ makefile.scratch)
    (unique : ∀ other ∈ makefile.rules, other.target = rule.target → other.toNode = rule.toNode) :
    Consistent value scope makefile.rules (disk.apply (rule.recipe env disk).2) := by
  intro other member current env' inScope' needs
  by_cases same : other.target = rule.target
  · have made := sound.makes env disk inScope steady.kept ready
    rcases sound.tracks with forced | tracks
    · have spared := ((Node.current_iff _ _).mp current).1
      rw [unique other member same, forced] at spared
      exact absurd spared (by decide)
    · rw [same]
      have agree : ∀ need ∈ rule.needs, value env need = value env' need := by
        intro need used
        obtain ⟨apart, uncleared, unhidden⟩ := intact need used
        have held := (ready need (List.mem_append_left _ used)).congr
          (sound.untouched env disk apart uncleared unhidden)
        exact held.agree (needs need (by rw [unique other member same]; exact used))
      obtain ⟨entry, found, content⟩ := made
      exact ⟨entry, found, content.trans (tracks env env' inScope inScope' agree)⟩
  · have unwritten : ∀ content, Effect.write other.target content ∉ (rule.recipe env disk).2 := by
      intro content written
      rcases sound.writes env disk _ content written with made | hidden
      · exact same made
      · exact (makefile.apart _ hidden).2 other member rfl
    obtain ⟨before, target, unchanged⟩ := other.toNode.current_of_apply disk _ unwritten current
    have earlier := steady.consistent other member before env' inScope'
      (fun need used => (needs need used).congr (unchanged need used).symm)
    exact earlier.congr target

end Rule.Sound

namespace Makefile

variable {makefile : Makefile ε φ α}

theorem unique (makefile : Makefile ε φ α) {rule other : Rule ε φ α} (member : rule ∈ makefile.rules)
    (member' : other ∈ makefile.rules) (same : other.target = rule.target) : other.toNode = rule.toNode :=
  makefile.ordered.unique _ (List.mem_map_of_mem member) _ (List.mem_map_of_mem member') same

/-- Considering one rule, with its prerequisites right, makes its target right and spoils nothing. -/
theorem update_steady (sound : ∀ rule ∈ makefile.rules, rule.Sound value scope extra makefile.scratch)
    {env : ε} (inScope : scope env) {rule : Rule ε φ α} (member : rule ∈ makefile.rules) {done : List φ}
    {disk : Disk φ α} (open_ : ∀ path ∈ done, path ∉ makefile.scratch)
    (based : ∀ path ∈ makefile.sources, path ∈ done) (covered : ∀ path ∈ rule.needs ++ rule.afters, path ∈ done)
    (unmade : rule.target ∉ done) (spared : ∀ path ∈ rule.drops, path ∉ done)
    (steady : Steady value scope extra makefile disk) (made : ∀ path ∈ done, Holds value disk env path) :
    (rule.update env disk).1 = true ∧ Steady value scope extra makefile (rule.update env disk).2 ∧
      ∀ path ∈ rule.target :: done, Holds value (rule.update env disk).2 env path := by
  have ready : ∀ path ∈ rule.needs ++ rule.afters, Holds value disk env path :=
    fun path used => made path (covered path used)
  cases state : rule.outdated disk with
  | false =>
    rw [Rule.update_current env state]
    have held := steady.consistent rule member state env inScope
      (fun need used => ready need (List.mem_append_left _ used))
    exact ⟨rfl, steady, List.forall_mem_cons.mpr ⟨held, made⟩⟩
  | true =>
    rw [Rule.update_outdated env state]
    have contract := sound rule member
    have frame : ∀ path ∈ done, (disk.apply (rule.recipe env disk).2).file path = disk.file path := by
      intro path early
      apply contract.untouched env disk
      · exact fun same => unmade (same ▸ early)
      · exact fun dropped => spared path dropped early
      · exact open_ path early
    have intact : ∀ path ∈ rule.needs, path ≠ rule.target ∧ path ∉ rule.drops ∧ path ∉ makefile.scratch := by
      intro path used
      have early := covered path (List.mem_append_left _ used)
      exact ⟨fun same => unmade (same ▸ early), fun dropped => spared path dropped early, open_ path early⟩
    have grounded : ∀ env', scope env' → ∀ path ∈ makefile.sources,
        Holds value (disk.apply (rule.recipe env disk).2) env' path :=
      fun env' inScope' path source => (steady.grounded env' inScope' path source).congr (frame path (based path source))
    have consistent := contract.consistent disk env inScope steady ready intact
      (fun other member' same => makefile.unique member member' same)
    have kept := contract.keeps env disk inScope steady.kept
    have target := contract.makes env disk inScope steady.kept ready
    exact ⟨contract.succeeds env disk, ⟨kept, grounded, consistent⟩,
      List.forall_mem_cons.mpr ⟨target, fun path early => (made path early).congr (frame path early)⟩⟩

/-- From the rules still ahead, with everything before them right, to everything right. -/
theorem steady_from (sound : ∀ rule ∈ makefile.rules, rule.Sound value scope extra makefile.scratch)
    {env : ε} (inScope : scope env) (rules : List (Rule ε φ α)) (done : List φ) (disk : Disk φ α)
    (ours : ∀ rule ∈ rules, rule ∈ makefile.rules) (open_ : ∀ path ∈ done, path ∉ makefile.scratch)
    (based : ∀ path ∈ makefile.sources, path ∈ done) (ordered : Ordered done (rules.map Rule.toNode))
    (steady : Steady value scope extra makefile disk) (made : ∀ path ∈ done, Holds value disk env path) :
    (make env rules disk).1 = true ∧ Steady value scope extra makefile (make env rules disk).2 ∧
      (∀ path ∈ done, Holds value (make env rules disk).2 env path) ∧
      ∀ rule ∈ rules, Holds value (make env rules disk).2 env rule.target := by
  induction rules generalizing done disk with
  | nil => exact ⟨rfl, steady, made, by simp⟩
  | cons rule rest ih =>
    obtain ⟨covered, unmade, spared, later⟩ := ordered
    have member := ours rule List.mem_cons_self
    obtain ⟨success, steady', done'⟩ :=
      update_steady sound inScope member open_ based covered unmade spared steady made
    have open' : ∀ path ∈ rule.target :: done, path ∉ makefile.scratch := by
      intro path among
      rcases List.mem_cons.mp among with same | early
      · exact fun hidden => (makefile.apart path hidden).2 rule member same
      · exact open_ path early
    obtain ⟨success', final, before, after⟩ := ih (rule.target :: done) (rule.update env disk).2
      (fun other tail => ours other (List.mem_cons_of_mem _ tail)) open'
      (fun path source => List.mem_cons_of_mem _ (based path source)) later steady' done'
    obtain ⟨target, early⟩ := List.forall_mem_cons.mp before
    rw [make, if_pos success]
    exact ⟨success', final, early, List.forall_mem_cons.mpr ⟨target, after⟩⟩

/-- One invocation: it succeeds, leaves a steady state, and every target is that of a clean build. -/
theorem make_steady (sound : ∀ rule ∈ makefile.rules, rule.Sound value scope extra makefile.scratch)
    {env : ε} (inScope : scope env) {disk : Disk φ α} (steady : Steady value scope extra makefile disk) :
    (make env makefile.rules disk).1 = true ∧ Steady value scope extra makefile (make env makefile.rules disk).2 ∧
      ∀ rule ∈ makefile.rules, Holds value (make env makefile.rules disk).2 env rule.target := by
  obtain ⟨success, final, _, targets⟩ := steady_from sound inScope makefile.rules makefile.sources disk
    (fun _ member => member) (fun path source hidden => (makefile.apart path hidden).1 source)
    (fun _ source => source) makefile.ordered steady (steady.grounded env inScope)
  exact ⟨success, final, targets⟩

end Makefile

/-- A rule decided by its prerequisites alone, whose recipe writes its target and nothing else. -/
def Rule.Plain (rule : Rule ε φ α) : Prop :=
  rule.forced = false ∧ ∀ env disk, ∃ content, rule.recipe env disk = (true, [.write rule.target content])

theorem Rule.Plain.update_settles {rule : Rule ε φ α} (plain : rule.Plain) (env : ε) (disk : Disk φ α)
    (present : ∀ need ∈ rule.needs, (disk.file need).isSome) (apart : rule.target ∉ rule.needs) :
    (rule.update env disk).1 = true ∧ rule.outdated (rule.update env disk).2 = false ∧
      ((rule.update env disk).2.file rule.target).isSome ∧
      ∀ path, path ≠ rule.target → (rule.update env disk).2.file path = disk.file path := by
  cases state : rule.outdated disk with
  | false =>
    rw [Rule.update_current env state]
    obtain ⟨_, made, found, _⟩ := (Node.current_iff _ _).mp state
    exact ⟨rfl, state, by simp [found], fun _ _ => rfl⟩
  | true =>
    obtain ⟨content, runs⟩ := plain.2 env disk
    rw [Rule.update_outdated env state, runs]
    have others : ∀ path, path ≠ rule.target →
        (disk.apply [.write rule.target content]).file path = disk.file path :=
      fun path differs => disk.write_other content differs
    have target : (disk.apply [.write rule.target content]).file rule.target = some ⟨content, disk.clock⟩ :=
      disk.write_same rule.target content
    refine ⟨rfl, (Node.current_iff _ _).mpr ⟨plain.1, ⟨content, disk.clock⟩, target, ?_⟩, target ▸ rfl, others⟩
    intro need used
    obtain ⟨entry, found⟩ := Option.isSome_iff_exists.mp (present need used)
    rw [others need (fun same => apart (same ▸ used))]
    exact ⟨entry, found, Nat.le_of_lt (disk.dated need entry found)⟩

/-- After one run of plain rules nothing is outdated. -/
theorem make_settles (env : ε) (rules : List (Rule ε φ α)) (done : List φ) (disk : Disk φ α)
    (plain : ∀ rule ∈ rules, rule.Plain) (ordered : Ordered done (rules.map Rule.toNode))
    (present : ∀ path ∈ done, (disk.file path).isSome) :
    (make env rules disk).1 = true ∧ (∀ rule ∈ rules, rule.outdated (make env rules disk).2 = false) ∧
      ∀ path ∈ done, (make env rules disk).2.file path = disk.file path := by
  induction rules generalizing done disk with
  | nil => exact ⟨rfl, by simp, fun _ _ => rfl⟩
  | cons rule rest ih =>
    obtain ⟨covered, unmade, _, later⟩ := ordered
    have needs : ∀ need ∈ rule.needs, need ∈ done := fun need used => covered need (List.mem_append_left _ used)
    obtain ⟨success, current, made, others⟩ := (plain rule List.mem_cons_self).update_settles env disk
      (fun need used => present need (needs need used)) (fun used => unmade (needs _ used))
    have early : ∀ path ∈ done, (rule.update env disk).2.file path = disk.file path :=
      fun path among => others path (fun same => unmade (same ▸ among))
    obtain ⟨success', settled, unchanged⟩ := ih (rule.target :: done) (rule.update env disk).2
      (fun other tail => plain other (List.mem_cons_of_mem _ tail)) later
      (List.forall_mem_cons.mpr ⟨made, fun path among => (early path among).symm ▸ present path among⟩)
    obtain ⟨target, before⟩ := List.forall_mem_cons.mp unchanged
    have still : rule.outdated (make env rest (rule.update env disk).2).2 = false :=
      (rule.toNode.outdated_congr target (fun need used => before need (needs need used))).trans current
    rw [make, if_pos success]
    exact ⟨success', List.forall_mem_cons.mpr ⟨still, settled⟩,
      fun path among => (before path among).trans (early path among)⟩

end WasiWheels.Make
