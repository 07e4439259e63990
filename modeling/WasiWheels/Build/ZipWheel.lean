import WasiWheels.Core.Listing
import Mathlib.Data.List.Lex
import Mathlib.Data.String.Basic

/-! `zip-wheel.go`: a staging directory walked into a zip archive at its final path. -/

namespace WasiWheels.Build

abbrev Path := List String

/-- A zip file; without the central directory that Close writes it cannot be read. -/
structure Archive (β : Type) where
  entries : List (Path × β)
  closed : Bool
deriving DecidableEq, Repr

/-- The archive holds every file of the staging tree in full. -/
def Archive.Complete (archive : Archive β) (stage : Listing Path β) : Prop :=
  archive.closed = true ∧ ∀ file ∈ stage.files, file ∈ archive.entries

/-- The operation that fails at one file of the walk. -/
inductive Interruption (β : Type) where
  /-- `walkErr`, `filepath.Rel` or `zw.Create`: the archive has no entry for the file. -/
  | visit
  /-- `os.Open` or `io.Copy`: its entry exists, and only this much got into it. -/
  | read (copied : β)
deriving DecidableEq, Repr

/-- What goes wrong in one run of `pack`. -/
structure Faults (β : Type) where
  create : Bool := false
  walk : Nat → Option (Interruption β) := fun _ => none
  close : Bool := false

/-- The function handed to `filepath.Walk`, over the files in walk order. -/
def walkFiles (interrupted : Nat → Option (Interruption β)) : Nat → List (Path × β) → Bool × List (Path × β)
  | _, [] => (true, [])
  | index, file :: rest =>
    match interrupted index with
    | some .visit => (false, [])
    | some (.read copied) => (false, [(file.1, copied)])
    | none =>
      let walked := walkFiles interrupted (index + 1) rest
      (walked.1, file :: walked.2)

/-- `pack(stage, out)`: whether it returned nil, and the archive now at `out`, if it
got as far as creating one. The deferred Closes run in any case and their errors are dropped. -/
def pack (faults : Faults β) (stage : Listing Path β) : Bool × Option (Archive β) :=
  if faults.create then (false, none)
  else
    let walked := walkFiles faults.walk 0 stage.files
    (walked.1, some ⟨walked.2, !faults.close⟩)

/-- Nothing goes wrong once `os.Create` has truncated the output. -/
def Faults.Contained (faults : Faults β) : Prop :=
  faults.create = true ∨ ((∀ index, faults.walk index = none) ∧ faults.close = false)

theorem walkFiles_undisturbed {interrupted : Nat → Option (Interruption β)} (quiet : ∀ index, interrupted index = none)
    (index : Nat) (files : List (Path × β)) : walkFiles interrupted index files = (true, files) := by
  induction files generalizing index with
  | nil => rfl
  | cons file rest ih => simp [walkFiles, quiet, ih]

theorem pack_undisturbed (stage : Listing Path β) : pack {} stage = (true, some ⟨stage.files, true⟩) := by
  simp [pack, walkFiles_undisturbed]

/-- A contained run either leaves the output alone and fails, or packs everything. -/
theorem pack_contained {faults : Faults β} (contained : faults.Contained) (stage : Listing Path β) :
    pack faults stage = (false, none) ∨
      ∃ archive, pack faults stage = (true, some archive) ∧ archive.Complete stage := by
  unfold pack
  rcases contained with failed | ⟨quiet, closes⟩
  · simp [failed]
  · cases create : faults.create with
    | true => simp
    | false =>
      right
      refine ⟨⟨stage.files, true⟩, ?_, rfl, fun _ member => member⟩
      simp [walkFiles_undisturbed quiet, closes]

end WasiWheels.Build
