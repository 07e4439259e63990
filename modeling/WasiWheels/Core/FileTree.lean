import Mathlib.Data.List.Nodup

/-! Directory trees, the regular files in them, and where each is found. -/

namespace WasiWheels

variable {κ β : Type}

inductive FileTree (κ β : Type) where
  | file (bytes : β)
  | dir (entries : List (κ × FileTree κ β))

namespace FileTree

mutual

/-- The regular files below a path, directory by directory. -/
def files (path : List κ) : FileTree κ β → List (List κ × β)
  | .file bytes => [(path, bytes)]
  | .dir entries => filesIn path entries

def filesIn (path : List κ) : List (κ × FileTree κ β) → List (List κ × β)
  | [] => []
  | (name, tree) :: rest => tree.files (path ++ [name]) ++ filesIn path rest

end

mutual

/-- Every directory lists legal names only, each once and in ascending order. -/
def Ordered [LT κ] (legal : κ → Prop) : FileTree κ β → Prop
  | .file _ => True
  | .dir entries => OrderedIn legal entries

def OrderedIn [LT κ] (legal : κ → Prop) : List (κ × FileTree κ β) → Prop
  | [] => True
  | (name, tree) :: rest =>
    legal name ∧ (∀ other ∈ rest, name < other.1) ∧ tree.Ordered legal ∧ OrderedIn legal rest

end

/-- What a lookup of a path finds. -/
inductive FileAt : FileTree κ β → List κ → β → Prop
  | here (bytes : β) : FileAt (.file bytes) [] bytes
  | inside {entries name tree path bytes} (entry : (name, tree) ∈ entries) (rest : FileAt tree path bytes) :
      FileAt (.dir entries) (name :: path) bytes

mutual

theorem mem_files (tree : FileTree κ β) (path found : List κ) (bytes : β) :
    (found, bytes) ∈ tree.files path ↔ ∃ below, found = path ++ below ∧ FileAt tree below bytes := by
  cases tree with
  | file content =>
    simp only [files, List.mem_singleton, Prod.mk.injEq]
    constructor
    · rintro ⟨rfl, rfl⟩
      exact ⟨[], (List.append_nil _).symm, .here _⟩
    · rintro ⟨below, same, inside⟩
      cases inside
      exact ⟨by simpa using same, rfl⟩
  | dir entries =>
    rw [files, mem_filesIn]
    constructor
    · rintro ⟨name, tree, below, entry, same, inside⟩
      exact ⟨name :: below, same, .inside entry inside⟩
    · rintro ⟨below, same, inside⟩
      cases inside with
      | inside entry rest => exact ⟨_, _, _, entry, same, rest⟩

theorem mem_filesIn (entries : List (κ × FileTree κ β)) (path found : List κ) (bytes : β) :
    (found, bytes) ∈ filesIn path entries ↔
      ∃ name tree below, (name, tree) ∈ entries ∧ found = path ++ name :: below ∧
        FileAt tree below bytes := by
  cases entries with
  | nil => simp [filesIn]
  | cons entry rest =>
    obtain ⟨name, tree⟩ := entry
    rw [filesIn, List.mem_append, mem_files tree, mem_filesIn rest]
    constructor
    · rintro (⟨below, same, inside⟩ | ⟨other, tree', below, entry, same, inside⟩)
      · exact ⟨name, tree, below, List.mem_cons_self, by simpa using same, inside⟩
      · exact ⟨other, tree', below, List.mem_cons_of_mem _ entry, same, inside⟩
    · rintro ⟨other, tree', below, entry, same, inside⟩
      rcases List.mem_cons.mp entry with head | tail
      · cases head
        exact .inl ⟨below, by simpa using same, inside⟩
      · exact .inr ⟨other, tree', below, tail, same, inside⟩

end

theorem OrderedIn.mem [LT κ] {legal : κ → Prop} {entries : List (κ × FileTree κ β)}
    (ordered : OrderedIn legal entries) {name : κ} {tree : FileTree κ β} (entry : (name, tree) ∈ entries) :
    legal name ∧ tree.Ordered legal := by
  induction entries with
  | nil => cases entry
  | cons first rest ih =>
    obtain ⟨allowed, _, below, later⟩ := ordered
    rcases List.mem_cons.mp entry with head | tail
    · cases head
      exact ⟨allowed, below⟩
    · exact ih later tail

/-- Every step of the way to a file has a legal name. -/
theorem FileAt.legal [LT κ] {legal : κ → Prop} {tree : FileTree κ β} {path : List κ} {bytes : β}
    (found : FileAt tree path bytes) (ordered : tree.Ordered legal) : ∀ name ∈ path, legal name := by
  induction found with
  | here bytes => exact fun name member => by cases member
  | inside entry rest ih =>
    obtain ⟨allowed, below⟩ := OrderedIn.mem ordered entry
    intro name member
    rcases List.mem_cons.mp member with head | tail
    · exact head ▸ allowed
    · exact ih below name tail

mutual

/-- No two files of a tree have the same path. -/
theorem nodup_files [LT κ] [Std.Irrefl fun name other : κ => name < other] {legal : κ → Prop}
    (tree : FileTree κ β) (path : List κ) (ordered : tree.Ordered legal) :
    ((tree.files path).map Prod.fst).Nodup := by
  cases tree with
  | file bytes => exact List.nodup_singleton path
  | dir entries => exact nodup_filesIn entries path ordered

theorem nodup_filesIn [LT κ] [Std.Irrefl fun name other : κ => name < other] {legal : κ → Prop}
    (entries : List (κ × FileTree κ β)) (path : List κ) (ordered : OrderedIn legal entries) :
    ((filesIn path entries).map Prod.fst).Nodup := by
  cases entries with
  | nil => exact List.nodup_nil
  | cons entry rest =>
    obtain ⟨name, tree⟩ := entry
    obtain ⟨_, ahead, below, later⟩ := ordered
    rw [filesIn, List.map_append, List.nodup_append]
    refine ⟨nodup_files tree _ below, nodup_filesIn rest path later, ?_⟩
    rintro first firstMember second secondMember rfl
    obtain ⟨⟨found, bytes⟩, here, rfl⟩ := List.mem_map.mp firstMember
    obtain ⟨⟨again, bytes'⟩, there, same⟩ := List.mem_map.mp secondMember
    obtain ⟨tail, inside, _⟩ := (mem_files tree _ _ bytes).mp here
    obtain ⟨other, _, tail', entry, elsewhere, _⟩ := (mem_filesIn rest path _ bytes').mp there
    have meet : path ++ name :: tail = path ++ other :: tail' :=
      calc path ++ name :: tail = path ++ [name] ++ tail := (List.append_assoc path [name] tail).symm
        _ = found := inside.symm
        _ = again := same.symm
        _ = path ++ other :: tail' := elsewhere
    obtain ⟨equal, _⟩ := List.cons.inj (List.append_cancel_left meet)
    have less : name < other := ahead _ entry
    rw [← equal] at less
    exact Std.Irrefl.irrefl name less

end

end FileTree

end WasiWheels
