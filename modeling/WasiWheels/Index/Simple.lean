import WasiWheels.Index.Pages

/-! The root Makefile's `index` target over the files of `dist/`, and when it files
wheels as the Pages script does. -/

namespace WasiWheels.Index

open Text (beforeFirst unlines words)

/-- A glob that starts with `*` does not match a leading dot. -/
def hidden (name : Text) : Bool := name.head? == some '.'

/-- `$(DIST_DIR)/*.whl` -/
def globWheels (names : List Text) : List Text := names.filter fun name => !hidden name && whl.isSuffixOf name

/-- `$(DIST_DIR)/$${p}-*.whl` -/
def globPackage (pkg : Text) (files : List (Text × Text)) : List (Text × Text) :=
  files.filter fun file => (pkg ++ ['-']).isPrefixOf file.1 && whl.isSuffixOf file.1

/-- `<a href="../../$wn#sha256=$sha">$wn</a>` -/
def relativeAnchor (file : Text × Text) : Anchor :=
  ⟨"../../".toList ++ file.1 ++ "#sha256=".toList ++ file.2, file.1⟩

/-- `index`, from the names in `dist/` and the digests of the files. -/
def simpleIndex (files : List (Text × Text)) : Site :=
  let pkgs := words (unlines (sortUnique ((globWheels (files.map Prod.fst)).map (beforeFirst '-'))))
  { root := pkgs.map packageAnchor
    pages := pkgs.map fun pkg => ⟨pkg, (globPackage pkg files).map relativeAnchor⟩ }

def Wheel.file (wheel : Wheel) : Text × Text := (wheel.name, wheel.digest)

/-- What `sha256sum *.whl` goes through. -/
def visible (wheels : List Wheel) : List Wheel := wheels.filter fun wheel => !hidden wheel.name

theorem mem_visible {wheels : List Wheel} {wheel : Wheel} :
    wheel ∈ visible wheels ↔ wheel ∈ wheels ∧ hidden wheel.name = false := by
  simp [visible]

theorem hidden_distribution (wheel : Wheel) : hidden wheel.name = hidden wheel.distribution := by
  have filled := wheel.filled
  unfold hidden Wheel.name
  cases distribution : wheel.distribution with
  | nil => exact absurd distribution filled
  | cons first rest => rfl

/-- The package directories of `index`. -/
theorem simple_packages (wheels : List Wheel) :
    words (unlines (sortUnique ((globWheels ((wheels.map Wheel.file).map Prod.fst)).map (beforeFirst '-')))) =
      sortUnique ((visible wheels).map Wheel.distribution) := by
  have named : globWheels ((wheels.map Wheel.file).map Prod.fst) = (visible wheels).map Wheel.name := by
    rw [List.map_map, globWheels, List.filter_map, visible]
    congr 1
    apply List.filter_congr
    intro wheel _
    have suffix : whl.isSuffixOf wheel.name = true := by simpa using wheel.whl_suffix
    simp [Wheel.file, suffix]
  have column : ((visible wheels).map Wheel.name).map (beforeFirst '-') = (visible wheels).map Wheel.distribution := by
    rw [List.map_map]
    exact List.map_congr_left fun wheel _ => wheel.distribution_eq
  rw [named, column]
  apply Text.words_unlines
  · intro package member
    obtain ⟨wheel, _, same⟩ := List.mem_map.mp (mem_sortUnique.mp member)
    exact same ▸ wheel.filled
  · intro package member
    obtain ⟨wheel, _, same⟩ := List.mem_map.mp (mem_sortUnique.mp member)
    exact same ▸ fun char among => (part_plain (wheel.valid char among)).2

/-- The glob of a package picks the wheels whose first field it is. -/
theorem glob_iff (wheel : Wheel) {pkg : Text} (field : '-' ∉ pkg) :
    ((pkg ++ ['-']).isPrefixOf wheel.name && whl.isSuffixOf wheel.name) = true ↔ wheel.distribution = pkg := by
  have suffix : whl.isSuffixOf wheel.name = true := by simpa using wheel.whl_suffix
  rw [suffix, Bool.and_true, List.isPrefixOf_iff_prefix]
  constructor
  · rintro ⟨rest, same⟩
    rw [← wheel.distribution_eq, ← same, List.append_assoc]
    exact Text.beforeFirst_append field rest
  · intro same
    exact ⟨wheel.rest, by rw [← same, List.append_assoc]; rfl⟩

theorem simpleIndex_files (wheels : List Wheel) {wheel : Wheel} (member : wheel ∈ wheels) (directory : Text) :
    (simpleIndex (wheels.map Wheel.file)).Files directory wheel.name ↔
      directory = wheel.distribution ∧ hidden wheel.name = false := by
  unfold Site.Files simpleIndex
  simp only [simple_packages, List.mem_map, mem_sortUnique]
  constructor
  · rintro ⟨page, ⟨pkg, ⟨other, among, first⟩, same⟩, located, anchor, shows, labelled⟩
    rw [← same] at shows
    obtain ⟨file, globbed, linked⟩ := List.mem_map.mp shows
    obtain ⟨listed, matched⟩ := List.mem_filter.mp globbed
    obtain ⟨linked_, _, file_⟩ := List.mem_map.mp listed
    have name : linked_.name = wheel.name := by rw [← labelled, ← linked, ← file_]; rfl
    have field : '-' ∉ pkg := first ▸ other.dash_not_mem
    rw [← file_] at matched
    have picked := (glob_iff linked_ field).mp matched
    have here : directory = wheel.distribution := by
      rw [← located, ← same, ← Wheel.distribution_congr name]
      exact picked.symm
    refine ⟨here, ?_⟩
    rw [hidden_distribution, ← Wheel.distribution_congr name, picked, ← first, ← hidden_distribution]
    exact (mem_visible.mp among).2
  · rintro ⟨here, shown⟩
    have globbed : wheel.file ∈ globPackage wheel.distribution (wheels.map Wheel.file) :=
      List.mem_filter.mpr ⟨List.mem_map_of_mem member, (glob_iff wheel wheel.dash_not_mem).mpr rfl⟩
    exact ⟨_, ⟨wheel.distribution, ⟨wheel, mem_visible.mpr ⟨member, shown⟩, rfl⟩, rfl⟩, here.symm,
      relativeAnchor wheel.file, List.mem_map_of_mem globbed, rfl⟩

theorem pagesIndex_files (awk : Awk) (repo tag : Text) (wheels : List Wheel) {wheel : Wheel} (member : wheel ∈ wheels)
    (directory : Text) :
    (pagesIndex awk repo (some ⟨tag, sha256sums wheels⟩)).Files directory wheel.name ↔
      (∃ other ∈ wheels, other.package = directory) ∧ awk.equal wheel.package directory = true := by
  rw [pagesIndex_eq]
  unfold Site.Files
  simp only [List.mem_map, mem_sortUnique]
  constructor
  · rintro ⟨page, ⟨pkg, occurs, same⟩, located, anchor, shows, labelled⟩
    rw [← same] at shows
    obtain ⟨linked, chosen, link⟩ := List.mem_map.mp shows
    obtain ⟨_, equal⟩ := List.mem_filter.mp chosen
    have name : linked.name = wheel.name := by rw [← labelled, ← link]; rfl
    have package : linked.package = wheel.package := by
      rw [Wheel.package, Wheel.package, Wheel.distribution_congr name]
    have here : pkg = directory := by rw [← located, ← same]
    exact ⟨here ▸ occurs, by rw [← here, ← package]; exact equal⟩
  · rintro ⟨occurs, equal⟩
    exact ⟨_, ⟨directory, occurs, rfl⟩, rfl, wheel.anchor repo tag,
      List.mem_map_of_mem (List.mem_filter.mpr ⟨member, equal⟩), rfl⟩

/-- Both indexes file every wheel under its PEP 503 name, and nowhere else. -/
def Agree (awk : Awk) (repo tag : Text) (dist : WheelSet) : Prop :=
  ∀ wheel ∈ dist.wheels, ∀ directory,
    ((simpleIndex (dist.wheels.map Wheel.file)).Files directory wheel.name ↔ directory = wheel.package) ∧
    ((pagesIndex awk repo (some ⟨tag, sha256sums (visible dist.wheels)⟩)).Files directory wheel.name ↔
      directory = wheel.package)

theorem visible_of_normalized {wheel : Wheel} (normalized : wheel.package = wheel.distribution) :
    hidden wheel.name = false := by
  rw [hidden_distribution]
  apply Bool.eq_false_iff.mpr
  intro dotted
  have dot : '.' ∈ wheel.distribution := List.mem_of_mem_head? (beq_iff_eq.mp dotted)
  exact plain_of_normalized normalized dot

/-- The indexes agree exactly if every distribution name is normalised already and
no two of them are equal to awk. -/
theorem agree_iff (awk : Awk) (repo tag : Text) (dist : WheelSet) :
    Agree awk repo tag dist ↔
      (∀ wheel ∈ dist.wheels, wheel.package = wheel.distribution) ∧ NumbersApart awk dist.wheels := by
  constructor
  · intro agree
    have normalized : ∀ wheel ∈ dist.wheels, wheel.package = wheel.distribution := by
      intro wheel member
      exact ((simpleIndex_files _ member _).mp (((agree wheel member wheel.package).1).mpr rfl)).1
    have shown : ∀ wheel ∈ dist.wheels, wheel ∈ visible dist.wheels :=
      fun wheel member => mem_visible.mpr ⟨member, visible_of_normalized (normalized wheel member)⟩
    refine ⟨normalized, ?_⟩
    intro wheel member other member' equal
    have files := (pagesIndex_files awk repo tag _ (shown wheel member) other.package).mpr
      ⟨⟨other, shown other member', rfl⟩, equal⟩
    exact (((agree wheel member other.package).2).mp files).symm
  · rintro ⟨normalized, apart⟩ wheel member directory
    have shown := visible_of_normalized (normalized wheel member)
    constructor
    · rw [simpleIndex_files _ member, normalized wheel member]
      simp [shown]
    · rw [pagesIndex_files awk repo tag _ (mem_visible.mpr ⟨member, shown⟩)]
      constructor
      · rintro ⟨⟨other, among, same⟩, equal⟩
        subst same
        exact (apart wheel member other (mem_visible.mp among).1 equal).symm
      · intro same
        subst same
        exact ⟨⟨wheel, mem_visible.mpr ⟨member, shown⟩, rfl⟩, awk.equal_self _⟩

/-- The wheel `make pydantic-core` builds. -/
def pydanticCoreWheel : Wheel where
  distribution := "pydantic_core".toList
  rest := "2.47.0-cp314-abi3-wasi_wasm32.whl".toList
  digest := emptyDigest
  filled := by decide
  valid := List.all_eq_true.mp (by decide)
  restValid := List.all_eq_true.mp (by decide)
  suffix := ⟨"2.47.0-cp314-abi3-wasi_wasm32".toList, by decide⟩
  digestFilled := emptyDigest_filled
  hexadecimal := emptyDigest_hexadecimal

/-- `index` files it under `pydantic_core`, where no installer looks. -/
theorem pydantic_core_disagrees :
    ¬ ∃ awk : Awk, Agree awk ['o', '/', 'r'] ['v', '1'] ⟨[pydanticCoreWheel], List.pairwise_singleton _ _⟩ := by
  rintro ⟨awk, agree⟩
  have member : pydanticCoreWheel ∈ [pydanticCoreWheel] := List.mem_singleton_self _
  have files := ((agree pydanticCoreWheel member pydanticCoreWheel.package).1).mpr rfl
  have normalized := ((simpleIndex_files _ member _).mp files).1
  revert normalized
  decide

end WasiWheels.Index
