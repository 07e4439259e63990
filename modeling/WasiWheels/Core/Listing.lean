import Mathlib.Order.Lattice

/-! Directory trees as listings: each path once, in the order a walk visits them. -/

namespace WasiWheels

variable {κ β : Type} [LinearOrder κ]

structure Listing (κ β : Type) [LinearOrder κ] where
  files : List (κ × β)
  sorted : files.Pairwise fun file other => file.1 < other.1

namespace Listing

/-- Write a file at its place, over one of the same path. -/
def insert (path : κ) (bytes : β) : List (κ × β) → List (κ × β)
  | [] => [(path, bytes)]
  | file :: rest =>
    if path < file.1 then (path, bytes) :: file :: rest
    else if path = file.1 then (path, bytes) :: rest
    else file :: insert path bytes rest

theorem mem_insert {path : κ} {bytes : β} {files : List (κ × β)}
    (sorted : files.Pairwise fun file other => file.1 < other.1) (file : κ × β) :
    file ∈ insert path bytes files ↔ file = (path, bytes) ∨ (file ∈ files ∧ file.1 ≠ path) := by
  induction files with
  | nil => simp [insert]
  | cons first rest ih =>
    obtain ⟨ahead, later⟩ := List.pairwise_cons.mp sorted
    rw [insert]
    split
    · rename_i before
      have apart : file ∈ first :: rest → file.1 ≠ path := by
        intro member same
        rcases List.mem_cons.mp member with head | tail
        · exact absurd before (by rw [← same, head]; exact lt_irrefl _)
        · exact absurd (lt_trans before (ahead file tail)) (by rw [same]; exact lt_irrefl _)
      constructor
      · intro member
        rcases List.mem_cons.mp member with head | tail
        · exact Or.inl head
        · exact Or.inr ⟨tail, apart tail⟩
      · rintro (head | ⟨tail, _⟩)
        · exact head ▸ List.mem_cons_self
        · exact List.mem_cons_of_mem _ tail
    · split
      · rename_i same
        constructor
        · intro member
          rcases List.mem_cons.mp member with head | tail
          · exact Or.inl head
          · exact Or.inr ⟨List.mem_cons_of_mem _ tail, by rw [same]; exact ne_of_gt (ahead file tail)⟩
        · rintro (head | ⟨member, apart⟩)
          · exact head ▸ List.mem_cons_self
          · rcases List.mem_cons.mp member with first_ | tail
            · exact absurd (by rw [first_, same]) apart
            · exact List.mem_cons_of_mem _ tail
      · rename_i differs
        rw [List.mem_cons, ih later, List.mem_cons]
        constructor
        · rintro (head | new | ⟨tail, apart⟩)
          · exact Or.inr ⟨Or.inl head, by rw [head]; exact Ne.symm differs⟩
          · exact Or.inl new
          · exact Or.inr ⟨Or.inr tail, apart⟩
        · rintro (new | ⟨head | tail, apart⟩)
          · exact Or.inr (Or.inl new)
          · exact Or.inl head
          · exact Or.inr (Or.inr ⟨tail, apart⟩)

theorem sorted_insert {path : κ} {bytes : β} {files : List (κ × β)}
    (sorted : files.Pairwise fun file other => file.1 < other.1) :
    (insert path bytes files).Pairwise fun file other => file.1 < other.1 := by
  induction files with
  | nil => simp [insert]
  | cons first rest ih =>
    obtain ⟨ahead, later⟩ := List.pairwise_cons.mp sorted
    rw [insert]
    split
    · rename_i before
      refine List.pairwise_cons.mpr ⟨?_, sorted⟩
      intro file member
      rcases List.mem_cons.mp member with head | tail
      · exact head ▸ before
      · exact lt_trans before (ahead file tail)
    · rename_i notBefore
      split
      · rename_i same
        exact List.pairwise_cons.mpr ⟨fun file tail => same ▸ ahead file tail, later⟩
      · rename_i differs
        refine List.pairwise_cons.mpr ⟨?_, ih later⟩
        intro file member
        rcases (mem_insert later file).mp member with new | ⟨tail, _⟩
        · rw [new]
          exact lt_of_le_of_ne (not_lt.mp notBefore) (Ne.symm differs)
        · exact ahead file tail

def empty : Listing κ β := ⟨[], List.Pairwise.nil⟩

def put (listing : Listing κ β) (file : κ × β) : Listing κ β :=
  ⟨insert file.1 file.2 listing.files, sorted_insert listing.sorted⟩

def putAll (listing : Listing κ β) (files : List (κ × β)) : Listing κ β := files.foldl put listing

def keep (listing : Listing κ β) (wanted : κ → Bool) : Listing κ β :=
  ⟨listing.files.filter fun file => wanted file.1, listing.sorted.filter _⟩

@[simp] theorem files_empty : (empty : Listing κ β).files = [] := rfl

theorem mem_put (listing : Listing κ β) (new file : κ × β) :
    file ∈ (listing.put new).files ↔ file = new ∨ (file ∈ listing.files ∧ file.1 ≠ new.1) :=
  mem_insert listing.sorted file

@[simp] theorem mem_keep (listing : Listing κ β) (wanted : κ → Bool) (file : κ × β) :
    file ∈ (listing.keep wanted).files ↔ file ∈ listing.files ∧ wanted file.1 = true := by
  simp [keep]

/-- Whatever a listing holds after some writes was there before or was written. -/
theorem mem_of_putAll (listing : Listing κ β) (new : List (κ × β)) {file : κ × β}
    (member : file ∈ (listing.putAll new).files) : file ∈ listing.files ∨ file ∈ new := by
  induction new generalizing listing with
  | nil => exact Or.inl member
  | cons first rest ih =>
    rcases ih (listing.put first) member with before | tail
    · rcases (mem_put listing first file).mp before with same | ⟨old, _⟩
      · exact Or.inr (same ▸ List.mem_cons_self)
      · exact Or.inl old
    · exact Or.inr (List.mem_cons_of_mem _ tail)

end Listing

end WasiWheels
