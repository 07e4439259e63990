import WasiWheels.Index.Pages

/-! Whether the Pages site has every wheel of a release once, on its own page. -/

namespace WasiWheels.Index

/-- Every wheel link of the site, with the page it is on. -/
def Site.links (site : Site) : List (Text × Anchor) :=
  site.pages.flatMap fun page => page.anchors.map fun anchor => (page.directory, anchor)

/-- The link a wheel should have, on the page of its own name. -/
def Wheel.link (repo tag : Text) (wheel : Wheel) : Text × Anchor := (wheel.package, wheel.anchor repo tag)

/-- The wheel links of the site are those of the wheels, each once; every page has some, and
the root lists each page once and nothing else. -/
structure Partitions (repo tag : Text) (wheels : List Wheel) (site : Site) : Prop where
  links : site.links.Perm (wheels.map (Wheel.link repo tag))
  once : site.links.Nodup
  filled : ∀ page ∈ site.pages, page.anchors ≠ []
  apart : (site.pages.map Page.directory).Nodup
  root : site.root = site.pages.map fun page => packageAnchor page.directory

/-- Going through distinct keys and picking the rows of each is going through the rows. -/
theorem pick_perm {κ ρ : Type} [DecidableEq κ] (key : ρ → κ) (keys : List κ) (nodup : keys.Nodup) (rows : List ρ)
    (covered : ∀ row ∈ rows, key row ∈ keys) :
    (keys.flatMap fun name => rows.filter fun row => key row = name).Perm rows := by
  induction keys generalizing rows with
  | nil =>
    cases rows with
    | nil => exact List.Perm.refl _
    | cons row rest => exact absurd (covered row List.mem_cons_self) (by simp)
  | cons first others ih =>
    obtain ⟨unlisted, later⟩ := List.nodup_cons.mp nodup
    have remaining : ∀ row ∈ rows.filter (fun row => !decide (key row = first)), key row ∈ others := by
      intro row member
      obtain ⟨listed, differs⟩ := List.mem_filter.mp member
      rcases List.mem_cons.mp (covered row listed) with same | tail
      · simp [same] at differs
      · exact tail
    have skipped : (others.flatMap fun name => rows.filter fun row => key row = name) =
        others.flatMap fun name => (rows.filter fun row => !decide (key row = first)).filter fun row => key row = name := by
      apply List.flatMap_congr
      intro name member
      rw [List.filter_filter]
      apply List.filter_congr
      intro row _
      by_cases same : key row = name
      · have differs : name ≠ first := fun first_ => unlisted (first_ ▸ member)
        simp [same, differs]
      · simp [same]
    rw [List.flatMap_cons, skipped]
    exact ((ih later _ remaining).append_left _).trans (List.filter_append_perm _ rows)

theorem name_of_link {repo tag : Text} {wheel other : Wheel} (same : wheel.link repo tag = other.link repo tag) :
    wheel.name = other.name := congrArg (fun link : Text × Anchor => link.2.label) same

/-- Distinct wheels have distinct links, so none occurs twice. -/
theorem nodup_links (repo tag : Text) (release : WheelSet) : (release.wheels.map (Wheel.link repo tag)).Nodup := by
  rw [List.Nodup, List.pairwise_map]
  exact release.distinct.imp fun differs same => differs (name_of_link same)

theorem links_eq (awk : Awk) (repo tag : Text) (wheels : List Wheel) :
    (pagesIndex awk repo (some ⟨tag, sha256sums wheels⟩)).links =
      (sortUnique (wheels.map Wheel.package)).flatMap fun pkg =>
        (wheels.filter fun wheel => awk.equal wheel.package pkg).map fun wheel => (pkg, wheel.anchor repo tag) := by
  simp [pagesIndex_eq, Site.links, List.flatMap_map, Function.comp_def]

/-- A name that awk takes for another is listed on the other's page as well. -/
theorem apart_of_partitions {awk : Awk} {repo tag : Text} {wheels : List Wheel}
    (partitions : Partitions repo tag wheels (pagesIndex awk repo (some ⟨tag, sha256sums wheels⟩))) :
    NumbersApart awk wheels := by
  intro wheel member other member' equal
  have crossed : (other.package, wheel.anchor repo tag) ∈ (pagesIndex awk repo (some ⟨tag, sha256sums wheels⟩)).links := by
    rw [links_eq]
    apply List.mem_flatMap.mpr
    refine ⟨other.package, mem_sortUnique.mpr (List.mem_map_of_mem member'), ?_⟩
    exact List.mem_map.mpr ⟨wheel, List.mem_filter.mpr ⟨member, equal⟩, rfl⟩
  obtain ⟨owner, _, same⟩ := List.mem_map.mp (partitions.links.mem_iff.mp crossed)
  have name : owner.name = wheel.name := congrArg (fun link : Text × Anchor => link.2.label) same
  have own : owner.package = wheel.package := by rw [Wheel.package, Wheel.package, Wheel.distribution_congr name]
  exact own.symm.trans (congrArg Prod.fst same)

/-- With the names apart, going through the pages is going through the wheels. -/
theorem links_perm {awk : Awk} (repo tag : Text) {wheels : List Wheel} (apart : NumbersApart awk wheels) :
    (pagesIndex awk repo (some ⟨tag, sha256sums wheels⟩)).links.Perm (wheels.map (Wheel.link repo tag)) := by
  have picked : ∀ pkg ∈ sortUnique (wheels.map Wheel.package),
      (wheels.filter fun wheel => awk.equal wheel.package pkg).map (fun wheel => (pkg, wheel.anchor repo tag)) =
        (wheels.filter fun wheel => wheel.package = pkg).map (Wheel.link repo tag) := by
    intro pkg occurs
    obtain ⟨named, member, same⟩ := List.mem_map.mp (mem_sortUnique.mp occurs)
    have chosen : (wheels.filter fun wheel => awk.equal wheel.package pkg) =
        wheels.filter fun wheel => wheel.package = pkg := by
      apply List.filter_congr
      intro wheel member'
      rw [Bool.eq_iff_iff, decide_eq_true_eq]
      constructor
      · intro equal
        rw [← same] at equal ⊢
        exact apart wheel member' named member equal
      · intro own
        rw [own]
        exact awk.equal_self pkg
    rw [chosen]
    apply List.map_congr_left
    intro wheel chosen_
    have own : wheel.package = pkg := by simpa using (List.mem_filter.mp chosen_).2
    rw [Wheel.link, own]
  rw [links_eq, List.flatMap_congr picked, ← List.map_flatMap]
  apply List.Perm.map
  exact pick_perm Wheel.package _ (nodup_sortUnique _) wheels
    (fun wheel member => mem_sortUnique.mpr (List.mem_map_of_mem member))

/-- A page exists for the sake of a wheel. -/
theorem pages_filled (awk : Awk) (repo tag : Text) (wheels : List Wheel) :
    ∀ page ∈ (pagesIndex awk repo (some ⟨tag, sha256sums wheels⟩)).pages, page.anchors ≠ [] := by
  intro page shown
  rw [pagesIndex_eq] at shown
  obtain ⟨pkg, occurs, same⟩ := List.mem_map.mp shown
  obtain ⟨wheel, member, own⟩ := List.mem_map.mp (mem_sortUnique.mp occurs)
  rw [← same]
  intro empty
  have chosen : wheel ∈ wheels.filter fun wheel => awk.equal wheel.package pkg :=
    List.mem_filter.mpr ⟨member, by rw [own]; exact awk.equal_self pkg⟩
  rw [List.map_eq_nil_iff.mp empty] at chosen
  exact absurd chosen (by simp)

/-- The site partitions a release exactly if no two different package names in it are equal to awk. -/
theorem partitions_iff (awk : Awk) (repo tag : Text) (release : WheelSet) :
    Partitions repo tag release.wheels (pagesIndex awk repo (some ⟨tag, sha256sums release.wheels⟩)) ↔
      NumbersApart awk release.wheels := by
  constructor
  · exact apart_of_partitions
  · intro apart
    have links := links_perm repo tag apart
    refine { links, once := ?_, filled := pages_filled awk repo tag release.wheels, apart := ?_, root := ?_ }
    · exact links.nodup_iff.mpr (nodup_links repo tag release)
    · simp only [pagesIndex_eq, List.map_map, Function.comp_def, List.map_id']
      exact nodup_sortUnique _
    · simp [pagesIndex_eq, List.map_map, Function.comp_def]

def anyWheel (distribution : Text) (filled : distribution ≠ []) (valid : ∀ char ∈ distribution, part char = true) :
    Wheel where
  distribution
  rest := "1.0-py3-none-any.whl".toList
  digest := emptyDigest
  filled
  valid
  restValid := List.all_eq_true.mp (by decide)
  suffix := ⟨"1.0-py3-none-any".toList, by decide⟩
  digestFilled := emptyDigest_filled
  hexadecimal := emptyDigest_hexadecimal

def ten : Wheel := anyWheel "10".toList (by decide) (List.all_eq_true.mp (by decide))

def tenAgain : Wheel := anyWheel "1e1".toList (by decide) (List.all_eq_true.mp (by decide))

def tens : WheelSet := ⟨[ten, tenAgain], by decide⟩

/-- Every awk lists the wheels of `10` and `1e1` on both pages. -/
theorem numbers_cross_listed : ¬ ∃ awk : Awk, Partitions ['o', '/', 'r'] ['v', '1'] tens.wheels
    (pagesIndex awk ['o', '/', 'r'] (some ⟨['v', '1'], sha256sums tens.wheels⟩)) := by
  rintro ⟨awk, partitions⟩
  have number : Awk.decimal ten.package = some ((10 : ℤ) : ℚ) := by decide +kernel
  have other : Awk.decimal tenAgain.package = some ((10 : ℤ) : ℚ) := by decide +kernel
  have equal : awk.equal ten.package tenAgain.package = true := by
    rw [awk.equal_numerals number other (by decide) (by decide)]
    rfl
  have same := apart_of_partitions partitions ten (by simp [tens]) tenAgain (by simp [tens]) equal
  revert same
  decide

end WasiWheels.Index
