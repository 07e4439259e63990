import WasiWheels.Core.Awk
import WasiWheels.Index.Wheels

/-! `scripts/build-pages-index.sh`: from a release's SHA256SUMS to the Pages site. -/

namespace WasiWheels.Index

open Text (beforeFirst afterLast unlines lines words readThree)

/-- A published release, as far as the script looks at it. -/
structure Release where
  tag : Text
  sums : Text

/-- One line of `sha256sum` output. -/
def sumLine (wheel : Wheel) : Text := wheel.digest ++ ' ' :: (' ' :: wheel.name)

/-- `sha256sum *.whl > SHA256SUMS` -/
def sha256sums (wheels : List Wheel) : Text := unlines (wheels.map sumLine)

/-- The row of `entries.tsv` for a line of SHA256SUMS, unless the line is skipped. -/
def entryOf (line : Text) : Option Text :=
  if line = [] then none
  else
    let sha := beforeFirst ' ' line
    let fname := afterLast ' ' line
    if whl.isSuffixOf fname then
      let pkg := normalize (beforeFirst '-' fname)
      some (pkg ++ '\t' :: (fname ++ '\t' :: sha))
    else none

/-- `entries.tsv` -/
def entries : Option Release → Text
  | none => []
  | some release => unlines ((lines release.sums).filterMap entryOf)

/-- `PKGS=$(awk -F'\t' '{print $1}' "$ENTRIES" | sort -u)`, as the `for` loops split it; the
newlines that the substitution strips separate no words. -/
def packages (entries : Text) : List Text := words (unlines (sortUnique ((lines entries).map (beforeFirst '\t'))))

/-- `awk -F'\t' -v p="$pkg" '$1 == p' "$ENTRIES"` -/
def selected (awk : Awk) (entries pkg : Text) : List Text :=
  (lines entries).filter fun row => awk.equal (beforeFirst '\t' row) pkg

def releaseUrl (repo tag fname : Text) : Text :=
  "https://github.com/".toList ++ repo ++ "/releases/download/".toList ++ tag ++ '/' :: fname

/-- `<a href="$url#sha256=$sha">$fname</a>` -/
def wheelAnchor (repo tag fname sha : Text) : Anchor :=
  ⟨releaseUrl repo tag fname ++ "#sha256=".toList ++ sha, fname⟩

/-- One turn of the `while IFS=$'\t' read -r _ fname sha` loop. -/
def rowAnchor (repo tag row : Text) : Anchor :=
  let fields := readThree '\t' row
  wheelAnchor repo tag fields.2.1 fields.2.2

def pagesIndex (awk : Awk) (repo : Text) (release : Option Release) : Site :=
  let rows := entries release
  let tag := (release.map Release.tag).getD []
  { root := (packages rows).map packageAnchor
    pages := (packages rows).map fun pkg => ⟨pkg, (selected awk rows pkg).map (rowAnchor repo tag)⟩ }

/-- The row a wheel gets. -/
def Wheel.row (wheel : Wheel) : Text := wheel.package ++ '\t' :: (wheel.name ++ '\t' :: wheel.digest)

/-- The link a wheel gets. -/
def Wheel.anchor (repo tag : Text) (wheel : Wheel) : Anchor := wheelAnchor repo tag wheel.name wheel.digest

section Rows

variable (wheel : Wheel)

theorem blank_free {text : Text} {char : Char} (plain : ∀ other ∈ text, Text.blank other = false)
    (blank : Text.blank char = true) : char ∉ text := by
  intro member
  rw [plain char member] at blank
  cases blank

theorem sumLine_digest : beforeFirst ' ' (sumLine wheel) = wheel.digest :=
  Text.beforeFirst_append (blank_free wheel.digest_plain rfl) _

theorem sumLine_name : afterLast ' ' (sumLine wheel) = wheel.name := by
  rw [sumLine, show wheel.digest ++ ' ' :: (' ' :: wheel.name) = (wheel.digest ++ [' ']) ++ ' ' :: wheel.name by simp]
  exact Text.afterLast_append (blank_free wheel.name_plain rfl) _

theorem entryOf_sumLine : entryOf (sumLine wheel) = some wheel.row := by
  have line : sumLine wheel ≠ [] := by simp [sumLine]
  have suffix : whl.isSuffixOf wheel.name = true := by simpa using wheel.whl_suffix
  simp only [entryOf, line, if_false, sumLine_digest, sumLine_name, suffix, if_true, wheel.distribution_eq,
    normalize_eq]
  rfl

theorem sumLine_newline : '\n' ∉ sumLine wheel := by
  simp only [sumLine, List.mem_append, List.mem_cons, not_or]
  exact ⟨blank_free wheel.digest_plain rfl, by decide, by decide, blank_free wheel.name_plain rfl⟩

theorem package_plain : ∀ char ∈ wheel.package, Text.blank char = false := pep503_plain wheel.valid

theorem row_newline : '\n' ∉ wheel.row := by
  simp only [Wheel.row, List.mem_append, List.mem_cons, not_or]
  exact ⟨blank_free (package_plain wheel) rfl, by decide, blank_free wheel.name_plain rfl, by decide,
    blank_free wheel.digest_plain rfl⟩

theorem row_package : beforeFirst '\t' wheel.row = wheel.package :=
  Text.beforeFirst_append (blank_free (package_plain wheel) rfl) _

theorem rowAnchor_row (repo tag : Text) : rowAnchor repo tag wheel.row = wheel.anchor repo tag := by
  have named : wheel.name ≠ [] := by simp [Wheel.name]
  have fields := Text.readThree_fields (pep503_filled wheel.filled) named wheel.digestFilled
    (blank_free (package_plain wheel) (show Text.blank '\t' = true from rfl)) (blank_free wheel.name_plain rfl)
    (blank_free wheel.digest_plain rfl)
  change wheelAnchor repo tag (readThree '\t' wheel.row).2.1 (readThree '\t' wheel.row).2.2 = _
  rw [show readThree '\t' wheel.row = (pep503 wheel.distribution, wheel.name, wheel.digest) from fields]
  rfl

end Rows

theorem lines_sha256sums (wheels : List Wheel) : lines (sha256sums wheels) = wheels.map sumLine := by
  apply Text.lines_unlines
  intro line member
  obtain ⟨wheel, _, same⟩ := List.mem_map.mp member
  exact same ▸ sumLine_newline wheel

theorem lines_entries (tag : Text) (wheels : List Wheel) :
    lines (entries (some ⟨tag, sha256sums wheels⟩)) = wheels.map Wheel.row := by
  have rows : (wheels.map sumLine).filterMap entryOf = wheels.map Wheel.row := by
    rw [List.filterMap_map, ← List.filterMap_eq_map]
    congr 1
    funext wheel
    exact entryOf_sumLine wheel
  simp only [entries, lines_sha256sums, rows]
  apply Text.lines_unlines
  intro row member
  obtain ⟨wheel, _, same⟩ := List.mem_map.mp member
  exact same ▸ row_newline wheel

theorem packages_entries (tag : Text) (wheels : List Wheel) :
    packages (entries (some ⟨tag, sha256sums wheels⟩)) = sortUnique (wheels.map Wheel.package) := by
  have column : (lines (entries (some ⟨tag, sha256sums wheels⟩))).map (beforeFirst '\t') = wheels.map Wheel.package := by
    rw [lines_entries, List.map_map]
    exact List.map_congr_left fun wheel _ => row_package wheel
  rw [packages, column]
  apply Text.words_unlines
  · intro package member
    obtain ⟨wheel, _, same⟩ := List.mem_map.mp (mem_sortUnique.mp member)
    exact same ▸ pep503_filled wheel.filled
  · intro package member
    obtain ⟨wheel, _, same⟩ := List.mem_map.mp (mem_sortUnique.mp member)
    exact same ▸ package_plain wheel

/-- What the whole pipeline comes to: a page for each normalised name, with every wheel whose
name awk takes for equal to it. -/
theorem pagesIndex_eq (awk : Awk) (repo tag : Text) (wheels : List Wheel) :
    pagesIndex awk repo (some ⟨tag, sha256sums wheels⟩) =
      { root := (sortUnique (wheels.map Wheel.package)).map packageAnchor
        pages := (sortUnique (wheels.map Wheel.package)).map fun pkg =>
          ⟨pkg, (wheels.filter fun wheel => awk.equal wheel.package pkg).map (Wheel.anchor repo tag)⟩ } := by
  have chosen (pkg : Text) : (selected awk (entries (some ⟨tag, sha256sums wheels⟩)) pkg).map (rowAnchor repo tag) =
      (wheels.filter fun wheel => awk.equal wheel.package pkg).map (Wheel.anchor repo tag) := by
    rw [selected, lines_entries, List.filter_map, List.map_map]
    have same : ((fun row => awk.equal (beforeFirst '\t' row) pkg) ∘ Wheel.row) =
        fun wheel => awk.equal wheel.package pkg := by
      funext wheel
      simp [row_package]
    rw [same]
    exact List.map_congr_left fun wheel _ => rowAnchor_row wheel repo tag
  simp only [pagesIndex, packages_entries, Option.map_some, Option.getD_some, chosen]

/-- No two package names are equal to awk. -/
def NumbersApart (awk : Awk) (wheels : List Wheel) : Prop :=
  ∀ wheel ∈ wheels, ∀ other ∈ wheels, awk.equal wheel.package other.package = true → wheel.package = other.package

end WasiWheels.Index
