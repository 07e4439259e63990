import WasiWheels.Build.Tracing

/-! Sequences of version bumps without a `make clean`. Nothing ever leaves `out/` or
`dist/`, so these hold the current wheels alone exactly as long as no version changes. -/

namespace WasiWheels.Build

open Make

/-- The top-level `.dist-info` directories of a wheel. -/
def Archive.distInfos (archive : Archive β) : List String :=
  (archive.entries.filterMap fun entry => entry.1.dropLast.head?).filter isDistInfo

/-- A wheel of that version and of nothing else. -/
structure Archive.Genuine (wheel : HandZipped) (version : String) (archive : Archive Origin) : Prop where
  distInfo : ∀ directory, directory ∈ archive.distInfos ↔ directory = distInfo wheel.name version
  files : ∀ entry ∈ archive.entries, ∀ origin ∈ entry.2, origin = version

/-- Nothing of a superseded version is left where it could be published from. -/
structure Yard.Pristine (yard : Yard) : Prop where
  dist : ∀ component version, (yard.dist component version).isSome = true ↔ version = yard.version component
  sums : yard.sums = yard.dist
  wheels : ∀ (wheel : HandZipped) version item, yard.dist wheel.component version = some item →
    ∃ archive, item = .archive archive ∧ archive.Genuine wheel (yard.version wheel.component)
  out : ∀ component version, (contentOf (yard.disk component) (.wheel, some version)).isSome = true →
    version = yard.version component
  staging : ∀ wheel : HandZipped, ∀ file ∈ (treeAt (yard.disk wheel.component) (.staging, none)).files,
    (∀ origin ∈ file.2, origin = yard.version wheel.component) ∧
      ∀ directory, file.1.dropLast.head? = some directory → isDistInfo directory = true →
        directory = distInfo wheel.name (yard.version wheel.component)

/-- Only these versions of each component have been in use. -/
structure Yard.Traced (used : Component → String → Prop) (yard : Yard) : Prop where
  current : ∀ component, used component (yard.version component)
  disk : ∀ component : Component, component.Traced (used component) (yard.disk component)
  dist : ∀ (component : Component) version item, yard.dist component version = some item →
    component.Fits (used component) (.wheel, some version) item
  sums : yard.sums = yard.dist

/-- The wheel of every current version has been collected. -/
def Yard.Stocked (yard : Yard) : Prop := ∀ component, (yard.dist component (yard.version component)).isSome = true

variable {shipped : HandZipped → String → List Path} {used : Component → String → Prop}

@[simp] theorem Yard.version_bump (yard : Yard) (component : Component) (version : String) :
    (yard.bump component version).version = Function.update yard.version component version := rfl

@[simp] theorem Yard.disk_bump (yard : Yard) (component : Component) (version : String) :
    (yard.bump component version).disk =
      Function.update yard.disk component ((yard.disk component).write (.makefile, none) (.file [])) := rfl

theorem Yard.wheels_cases {yard next : Yard} (ran : yard.wheels shipped = some next) :
    (∀ component : Component, (component.buildAt shipped (yard.version component) (yard.disk component)).1 = true) ∧
      next.version = yard.version ∧
      (∀ component, next.disk component =
        (component.buildAt shipped (yard.version component) (yard.disk component)).2) ∧
      (∀ component version, next.dist component version =
        (contentOf (next.disk component) (.wheel, some version)).or (yard.dist component version)) ∧
      next.sums = next.dist := by
  unfold wheels at ran
  dsimp only at ran
  split at ran
  · rename_i success
    cases ran
    refine ⟨fun component => List.all_eq_true.mp success component component.mem_all, rfl, fun _ => rfl, ?_, rfl⟩
    intro component version
    dsimp only
    cases contentOf (component.buildAt shipped (yard.version component) (yard.disk component)).2
      (.wheel, some version) <;> rfl
  · cases ran

theorem Yard.wheels_traced {yard next : Yard} (traced : yard.Traced used) (ran : yard.wheels shipped = some next) :
    next.Traced used := by
  obtain ⟨_, versions, disks, dists, sums⟩ := wheels_cases ran
  have disk (component : Component) : component.Traced (used component) (next.disk component) := by
    rw [disks]
    exact Component.buildAt_traced (traced.current component) (traced.disk component)
  refine ⟨fun component => versions ▸ traced.current component, disk, ?_, sums⟩
  intro component version item found
  rw [dists, Option.or_eq_some_iff] at found
  rcases found with built | ⟨_, kept⟩
  · exact disk component _ item built
  · exact traced.dist component version item kept

theorem Yard.wheels_stocked {yard next : Yard} (ran : yard.wheels shipped = some next) :
    next.Stocked ∧ ∀ component version, (yard.dist component version).isSome = true →
      (next.dist component version).isSome = true := by
  obtain ⟨success, versions, disks, dists, _⟩ := wheels_cases ran
  constructor
  · intro component
    rw [dists, versions, disks, Option.isSome_or, Component.buildAt_wheel (success component), Bool.true_or]
  · intro component version held
    rw [dists, Option.isSome_or, held, Bool.or_true]

theorem Yard.bump_traced {yard : Yard} (traced : yard.Traced used) {component : Component} {version : String}
    (new : used component version) : (yard.bump component version).Traced used := by
  refine ⟨?_, ?_, traced.dist, traced.sums⟩
  · intro other
    by_cases same : other = component
    · subst same
      rw [version_bump, Function.update_self]
      exact new
    · rw [version_bump, Function.update_of_ne same]
      exact traced.current other
  · intro other
    by_cases same : other = component
    · subst same
      rw [disk_bump, Function.update_self]
      apply Component.traced_apply (traced.disk other) [.write (.makefile, none) (.file [])]
      intro path item member
      cases List.mem_singleton.mp member
      exact Component.fits_plain (by simp [Item.origins]) File.noConfusion File.noConfusion
    · rw [disk_bump, Function.update_of_ne same]
      exact traced.disk other

theorem Yard.bumps_traced {bumps : List (Component × String)} {yard last : Yard} (traced : yard.Traced used)
    (new : ∀ bump ∈ bumps, used bump.1 bump.2) (ran : Yard.bumps shipped bumps yard = some last) :
    last.Traced used := by
  induction bumps generalizing yard with
  | nil =>
    cases ran
    exact traced
  | cons bump rest ih =>
    obtain ⟨next, collected, ran⟩ := Option.bind_eq_some_iff.mp ran
    have bumped := bump_traced traced (new bump List.mem_cons_self)
    exact ih (wheels_traced bumped collected) (fun other member => new other (List.mem_cons_of_mem _ member)) ran

/-- Once collected, a wheel stays, so the wheels of all versions pile up. -/
theorem Yard.bumps_stocked {bumps : List (Component × String)} {yard last : Yard} (stocked : yard.Stocked)
    (ran : Yard.bumps shipped bumps yard = some last) :
    last.Stocked ∧ (∀ bump ∈ bumps, (last.dist bump.1 bump.2).isSome = true) ∧
      ∀ component version, (yard.dist component version).isSome = true →
        (last.dist component version).isSome = true := by
  induction bumps generalizing yard with
  | nil =>
    cases ran
    exact ⟨stocked, by simp, fun _ _ held => held⟩
  | cons bump rest ih =>
    obtain ⟨next, collected, ran⟩ := Option.bind_eq_some_iff.mp ran
    obtain ⟨stocked', kept⟩ := wheels_stocked collected
    obtain ⟨final, later, keeps⟩ := ih stocked' ran
    refine ⟨final, ?_, fun component version held => keeps component version (kept component version held)⟩
    intro other member
    rcases List.mem_cons.mp member with same | tail
    · subst same
      apply keeps
      have version := (wheels_cases collected).2.1
      have current := stocked' other.1
      rwa [version, version_bump, Function.update_self] at current
    · exact later other tail

theorem Yard.checkout_traced {version : Component → String} (current : ∀ component, used component (version component)) :
    (Yard.checkout version).Traced used where
  current := current
  disk := fun component => component.checkout_traced _ _
  dist := by simp [checkout]
  sums := rfl

/-- `dist/` holds the wheels of every version there has been. -/
theorem Yard.run_dist {version : Component → String} {bumps : List (Component × String)} {yard : Yard}
    (ran : Yard.run shipped version bumps = some yard) (component : Component) (other : String) :
    (yard.dist component other).isSome = true ↔ other = version component ∨ (component, other) ∈ bumps := by
  obtain ⟨first, collected, ran⟩ := Option.bind_eq_some_iff.mp ran
  obtain ⟨stocked, _⟩ := wheels_stocked collected
  obtain ⟨_, bumped, kept⟩ := bumps_stocked stocked ran
  constructor
  · intro held
    obtain ⟨item, found⟩ := Option.isSome_iff_exists.mp held
    have traced : yard.Traced fun component other => other = version component ∨ (component, other) ∈ bumps :=
      bumps_traced (wheels_traced (checkout_traced fun _ => Or.inl rfl) collected) (fun _ member => Or.inr member) ran
    obtain ⟨_, same, known⟩ := (traced.dist component other item found).wheel rfl
    cases same
    exact known
  · rintro (initial | member)
    · apply kept
      have current := stocked component
      rw [(wheels_cases collected).2.1] at current
      exact initial ▸ current
    · exact bumped _ member

theorem Archive.mem_distInfos (archive : Archive β) (directory : String) : directory ∈ archive.distInfos ↔
    (∃ entry ∈ archive.entries, entry.1.dropLast.head? = some directory) ∧ isDistInfo directory = true := by
  simp only [distInfos, List.mem_filter, List.mem_filterMap]

theorem Component.fits_genuine {wheel : HandZipped} {version : String} {item : Item Origin}
    (fits : wheel.component.Fits (fun other => other = version) (.wheel, some version) item) :
    ∃ archive, item = .archive archive ∧ archive.Genuine wheel version := by
  obtain ⟨archive, rfl, placed, metadata⟩ := fits.archive wheel wheel.handZipped_component version rfl
  obtain ⟨described, member, path⟩ := List.mem_map.mp metadata
  refine ⟨archive, rfl, ?_, ?_⟩
  · intro directory
    rw [archive.mem_distInfos]
    constructor
    · rintro ⟨⟨entry, among, top⟩, named⟩
      obtain ⟨_, rfl, own⟩ := placed entry among directory top named
      exact own
    · rintro rfl
      exact ⟨⟨described, member, by rw [path]; rfl⟩, isDistInfo_distInfo _ _⟩
  · intro entry among origin listed
    exact fits.origins origin (List.mem_flatMap.mpr ⟨entry, among, listed⟩)

theorem Yard.Traced.pristine {yard : Yard} (traced : yard.Traced fun component other => other = yard.version component)
    (stocked : yard.Stocked) : yard.Pristine where
  dist := by
    intro component version
    constructor
    · intro held
      obtain ⟨item, found⟩ := Option.isSome_iff_exists.mp held
      obtain ⟨_, same, known⟩ := (traced.dist component version item found).wheel rfl
      cases same
      exact known
    · rintro rfl
      exact stocked component
  sums := traced.sums
  wheels := by
    intro wheel version item found
    have fits := traced.dist wheel.component version item found
    obtain ⟨_, same, rfl⟩ := fits.wheel rfl
    cases same
    exact Component.fits_genuine fits
  out := by
    intro component version held
    obtain ⟨item, found⟩ := Option.isSome_iff_exists.mp held
    obtain ⟨_, same, known⟩ := (traced.disk component _ item found).wheel rfl
    cases same
    exact known
  staging := by
    intro wheel file member
    obtain ⟨origins, placed⟩ := @HandZipped.staged_owned _ (yard.version wheel.component) _ wheel
      (traced.disk wheel.component) file member
    refine ⟨origins, ?_⟩
    intro directory top named
    obtain ⟨_, rfl, own⟩ := placed directory top named
    exact own

/-- Without a `make clean` in between, nothing superseded is left exactly when no bump changes a version. -/
theorem pristine_iff {version : Component → String} {bumps : List (Component × String)} {yard : Yard}
    (ran : Yard.run shipped version bumps = some yard) :
    yard.Pristine ↔ ∀ bump ∈ bumps, bump.2 = version bump.1 := by
  constructor
  · intro pristine bump member
    have initial := (pristine.dist _ _).mp ((Yard.run_dist ran bump.1 (version bump.1)).mpr (Or.inl rfl))
    have bumped := (pristine.dist _ _).mp ((Yard.run_dist ran bump.1 bump.2).mpr (Or.inr member))
    exact bumped.trans initial.symm
  · intro unchanged
    obtain ⟨first, collected, rest⟩ := Option.bind_eq_some_iff.mp ran
    have traced : yard.Traced fun component other => other = version component :=
      Yard.bumps_traced (Yard.wheels_traced (Yard.checkout_traced fun _ => rfl) collected) unchanged rest
    obtain ⟨stocked, _, _⟩ := Yard.bumps_stocked (Yard.wheels_stocked collected).1 rest
    have versions : yard.version = version := funext traced.current
    rw [← versions] at traced
    exact traced.pristine stocked

/-- One module of each package. -/
def HandZipped.modules (wheel : HandZipped) (_ : String) : List Path :=
  match wheel with
  | .cffi => [["src", "cffi", "__init__.py"]]
  | .regex => [["regex", "__init__.py"]]
  | .pyyaml => [["lib", "yaml", "__init__.py"], ["lib", "_yaml", "__init__.py"]]
  | .duckdbPython => [["duckdb", "__init__.py"]]

theorem pristine_rebuilt : ∃ yard, Yard.run HandZipped.modules Component.pinned [(.cffi, "2.0.0")] = some yard ∧
    (yard.Pristine ↔ ∀ bump ∈ [(Component.cffi, "2.0.0")], bump.2 = bump.1.pinned) := by
  have finished : (Yard.run HandZipped.modules Component.pinned [(.cffi, "2.0.0")]).isSome = true := by decide +kernel
  obtain ⟨yard, ran⟩ := Option.isSome_iff_exists.mp finished
  exact ⟨yard, ran, pristine_iff ran⟩

/-- A bump of cffi: both wheels are in `dist/`, and the new one holds the old one's metadata. -/
theorem superseded_cffi_published : ∃ yard item,
    Yard.run HandZipped.modules Component.pinned [(.cffi, "2.0.1")] = some yard ∧
      yard.version .cffi = "2.0.1" ∧ (yard.dist .cffi "2.0.0").isSome = true ∧
      yard.dist .cffi "2.0.1" = some item ∧ "2.0.0" ∈ item.origins ∧ ¬ yard.Pristine := by
  have finished : (Yard.run HandZipped.modules Component.pinned [(.cffi, "2.0.1")]).map (fun yard =>
      (decide (yard.version .cffi = "2.0.1"),
        (yard.dist .cffi "2.0.1").map fun item => decide ("2.0.0" ∈ item.origins))) = some (true, some true) := by
    decide +kernel
  obtain ⟨yard, ran, both⟩ := Option.map_eq_some_iff.mp finished
  obtain ⟨current, mixed⟩ := Prod.mk.inj both
  obtain ⟨item, collected, stale⟩ := Option.map_eq_some_iff.mp mixed
  have kept := (Yard.run_dist ran .cffi "2.0.0").mpr (Or.inl rfl)
  refine ⟨yard, item, ran, of_decide_eq_true current, kept, collected, of_decide_eq_true stale, ?_⟩
  intro pristine
  have same := (pristine.dist .cffi "2.0.0").mp kept
  rw [of_decide_eq_true current] at same
  exact absurd same (by decide)

-- Going back to a version: its sources are older than the objects of the version after it.
example : ((Yard.run HandZipped.modules Component.pinned [(.regex, "2026.6.1"), (.regex, "2026.5.9")]).bind
    fun yard => (yard.dist .regex "2026.5.9").map fun item => decide ("2026.6.1" ∈ item.origins)) = some true := by
  decide +kernel

end WasiWheels.Build
