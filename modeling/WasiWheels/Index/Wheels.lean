import WasiWheels.Core.Text
import Mathlib

/-! Wheel file names, their normalised distribution names, and what an index site shows. -/

namespace WasiWheels.Index

/-- `[-_.]` -/
def separator (char : Char) : Bool := char == '-' || char == '_' || char == '.'

/-- The script's `sed`: a run of separators becomes one dash, written for its last. -/
def collapse : Text → Text
  | [] => []
  | char :: rest =>
    if separator char then
      if (rest.head?.map separator).getD false then collapse rest else '-' :: collapse rest
    else char :: collapse rest

/-- `tr '[:upper:]' '[:lower:]' | sed ..` -/
def normalize (name : Text) : Text := collapse (name.map Char.toLower)

/-- PEP 503: `re.sub(r"[-_.]+", "-", name).lower()` -/
def pep503 (name : Text) : Text := (collapse name).map Char.toLower

/-- What the fields of a wheel name are made of. -/
def part (char : Char) : Bool := char.isAlphanum || char == '.' || char == '_' || char == '+'

def whl : Text := ".whl".toList

/-- A wheel: its file name, a distribution field and at least one more after a dash, and its digest. -/
structure Wheel where
  distribution : Text
  rest : Text
  digest : Text
  filled : distribution ≠ []
  valid : ∀ char ∈ distribution, part char = true
  restValid : ∀ char ∈ rest, (part char || char == '-') = true
  suffix : whl <:+ rest
  digestFilled : digest ≠ []
  hexadecimal : ∀ char ∈ digest, char.isAlphanum = true

namespace Wheel

/-- The file name. -/
def name (wheel : Wheel) : Text := wheel.distribution ++ '-' :: wheel.rest

/-- The package an installer looks the wheel up under. -/
def package (wheel : Wheel) : Text := pep503 wheel.distribution

end Wheel

/-- SHA-256 of the empty file. -/
def emptyDigest : Text := "e3b0c44298fc1c149afbf4c8996fb92427ae41e4649b934ca495991b7852b855".toList

theorem emptyDigest_filled : emptyDigest ≠ [] := by decide

theorem emptyDigest_hexadecimal : ∀ char ∈ emptyDigest, char.isAlphanum = true := List.all_eq_true.mp (by decide)

/-- Wheels under distinct names. -/
structure WheelSet where
  wheels : List Wheel
  distinct : wheels.Pairwise fun wheel other => wheel.name ≠ other.name

/-- A wheel of the set is known by its name. -/
theorem WheelSet.named (dist : WheelSet) {wheel other : Wheel} (member : wheel ∈ dist.wheels)
    (member' : other ∈ dist.wheels) (same : wheel.name = other.name) : wheel = other := by
  have : Std.Symm fun wheel other : Wheel => wheel.name ≠ other.name := ⟨fun _ _ apart => apart.symm⟩
  by_contra differs
  exact dist.distinct.forall member member' differs same

structure Anchor where
  href : Text
  label : Text
deriving DecidableEq

/-- The links of `<directory>/index.html`. -/
structure Page where
  directory : Text
  anchors : List Anchor
deriving DecidableEq

structure Site where
  root : List Anchor
  pages : List Page
deriving DecidableEq

/-- The site links the file from the package directory. -/
def Site.Files (site : Site) (directory label : Text) : Prop :=
  ∃ page ∈ site.pages, page.directory = directory ∧ ∃ anchor ∈ page.anchors, anchor.label = label

/-- `sort -u` -/
def sortUnique (names : List Text) : List Text := names.dedup.insertionSort (· ≤ ·)

/-- `<a href="$pkg/">$pkg</a>` -/
def packageAnchor (package : Text) : Anchor := ⟨package ++ ['/'], package⟩

theorem mem_sortUnique {names : List Text} {name : Text} : name ∈ sortUnique names ↔ name ∈ names := by
  simp [sortUnique]

theorem nodup_sortUnique (names : List Text) : (sortUnique names).Nodup :=
  (List.perm_insertionSort _ _).nodup_iff.mpr names.nodup_dedup

/-- Lowering changes capital letters only, into small ones. -/
theorem toLower_cases (char : Char) :
    char.toLower = char ∨ (char.isUpper = true ∧ char.toLower.isLower = true) := by
  unfold Char.toLower
  split
  · rename_i upper
    obtain ⟨low, high⟩ := upper
    right
    simp only [Char.isUpper, Char.isLower, ge_iff_le, Bool.decide_and, Bool.and_eq_true, decide_eq_true_eq]
    refine ⟨⟨low, high⟩, ?_⟩
    simp only [UInt32.le_iff_toNat_le, Char.reduceVal, UInt32.reduceToNat, ge_iff_le] at low high ⊢
    have lifted : (char.val + (97 - 65)).toNat = char.val.toNat + 32 := by
      rw [UInt32.toNat_add, show (97 - 65 : UInt32).toNat = 32 from rfl]
      omega
    omega
  · exact Or.inl rfl

theorem separator_toLower (char : Char) : separator char.toLower = separator char := by
  have letters (other : Char) (letter : other.isAlpha = true) : separator other = false := by
    apply Bool.eq_false_iff.mpr
    intro dash
    simp only [separator, Bool.or_eq_true, beq_iff_eq] at dash
    rcases dash with (same | same) | same <;> rw [same] at letter <;> revert letter <;> decide
  rcases toLower_cases char with same | ⟨upper, lower⟩
  · rw [same]
  · rw [letters char (by simp [Char.isAlpha, upper]), letters char.toLower (by simp [Char.isAlpha, lower])]

theorem mem_collapse {name : Text} {char : Char} (member : char ∈ collapse name) :
    char = '-' ∨ (char ∈ name ∧ separator char = false) := by
  induction name with
  | nil => simp [collapse] at member
  | cons first rest ih =>
    have later (tail : char ∈ collapse rest) : char = '-' ∨ (char ∈ first :: rest ∧ separator char = false) := by
      rcases ih tail with dash | ⟨among, plain⟩
      · exact Or.inl dash
      · exact Or.inr ⟨List.mem_cons_of_mem _ among, plain⟩
    rw [collapse] at member
    split at member
    · split at member
      · exact later member
      · rcases List.mem_cons.mp member with dash | tail
        · exact Or.inl dash
        · exact later tail
    · rename_i plain
      rcases List.mem_cons.mp member with same | tail
      · exact Or.inr ⟨same ▸ List.mem_cons_self, by rw [same]; simpa using plain⟩
      · exact later tail

theorem collapse_filled {name : Text} (filled : name ≠ []) : collapse name ≠ [] := by
  induction name with
  | nil => exact absurd rfl filled
  | cons first rest ih =>
    rw [collapse]
    split
    · split
      · rename_i follows
        apply ih
        intro none
        simp [none] at follows
      · simp
    · simp

/-- The script lowers first and PEP 503 last; separators have no case. -/
theorem normalize_eq (name : Text) : normalize name = pep503 name := by
  unfold normalize pep503
  induction name with
  | nil => rfl
  | cons first rest ih =>
    have next : ((rest.map Char.toLower).head?.map separator).getD false =
        (rest.head?.map separator).getD false := by
      cases rest with
      | nil => rfl
      | cons second tail => simp [separator_toLower]
    simp only [List.map_cons, collapse, separator_toLower, next, ih]
    split
    · split
      · rfl
      · rfl
    · rfl

theorem part_plain {char : Char} (valid : part char = true) : char ≠ '-' ∧ Text.blank char = false := by
  constructor
  · intro same
    rw [same] at valid
    revert valid
    decide
  · apply Bool.eq_false_iff.mpr
    intro blank
    simp only [Text.blank, Bool.or_eq_true, beq_iff_eq] at blank
    rcases blank with (same | same) | same <;> rw [same] at valid <;> revert valid <;> decide

theorem part_toLower {char : Char} (valid : part char = true) : part char.toLower = true := by
  rcases toLower_cases char with same | ⟨_, lower⟩
  · rw [same]
    exact valid
  · simp [part, Char.isAlphanum, Char.isAlpha, lower]

theorem pep503_plain {name : Text} (valid : ∀ char ∈ name, part char = true) :
    ∀ char ∈ pep503 name, Text.blank char = false := by
  rw [← normalize_eq]
  intro char member
  rcases mem_collapse member with dash | ⟨among, _⟩
  · rw [dash]
    rfl
  · obtain ⟨original, listed, same⟩ := List.mem_map.mp among
    exact same ▸ (part_plain (part_toLower (valid original listed))).2

theorem pep503_filled {name : Text} (filled : name ≠ []) : pep503 name ≠ [] := by
  simpa [pep503] using collapse_filled filled

/-- A name that is its own normalisation has no separator but the dash. -/
theorem plain_of_normalized {name : Text} (normalized : pep503 name = name) : '.' ∉ name := by
  intro member
  rw [← normalized, ← normalize_eq] at member
  rcases mem_collapse member with dash | ⟨_, plain⟩
  · exact absurd dash (by decide)
  · exact absurd plain (by decide)

namespace Wheel

variable (wheel : Wheel)

theorem dash_not_mem : '-' ∉ wheel.distribution := fun member => (part_plain (wheel.valid '-' member)).1 rfl

theorem name_plain : ∀ char ∈ wheel.name, Text.blank char = false := by
  intro char member
  rcases List.mem_append.mp member with early | late
  · exact (part_plain (wheel.valid char early)).2
  · rcases List.mem_cons.mp late with dash | tail
    · rw [dash]
      rfl
    · rcases Bool.or_eq_true_iff.mp (wheel.restValid char tail) with valid | dash
      · exact (part_plain valid).2
      · rw [beq_iff_eq.mp dash]
        rfl

theorem digest_plain : ∀ char ∈ wheel.digest, Text.blank char = false := by
  intro char member
  have valid : part char = true := by simp [part, wheel.hexadecimal char member]
  exact (part_plain valid).2

theorem whl_suffix : whl <:+ wheel.name :=
  wheel.suffix.trans ((List.suffix_cons '-' wheel.rest).trans (List.suffix_append wheel.distribution _))

/-- The first dash-separated field of the file name. -/
theorem distribution_eq : Text.beforeFirst '-' wheel.name = wheel.distribution :=
  Text.beforeFirst_append wheel.dash_not_mem wheel.rest

theorem distribution_congr {wheel other : Wheel} (same : wheel.name = other.name) :
    wheel.distribution = other.distribution := by
  rw [← wheel.distribution_eq, ← other.distribution_eq, same]

end Wheel

end WasiWheels.Index
