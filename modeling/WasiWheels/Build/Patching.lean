import WasiWheels.Core.Make
import WasiWheels.Core.Reach
import Mathlib.Data.List.Sort
import Mathlib.Data.String.Basic

/-! The rules that extract an upstream tree and patch it, over edits of the patch files,
with runs that may break off at any patch. -/

namespace WasiWheels.Build.Patching

open Make

/-- The upstream trees that are patched. -/
inductive Upstream where
  | duckdb
  | duckdbPython
  | httpfs
  | awsLc
  | cryptography
  | numpy
deriving DecidableEq, Repr

/-- `patch -p1`: what it makes of a tree, or leaves of it when it fails. A patch that is
already in the tree fails. -/
structure PatchTool (τ π : Type) where
  apply : π → τ → Option τ
  rejected : π → τ → τ
  reapplied : ∀ patch tree patched, apply patch tree = some patched → apply patch patched = none
  /-- The patch rewrites the file at the top of the tree that a rule has for its target. -/
  touches : π → Bool

variable {τ π : Type}

/-- Apply patches in order. -/
def PatchTool.applyAll (tool : PatchTool τ π) : List π → τ → Option τ
  | [], tree => some tree
  | patch :: rest, tree => (tool.apply patch tree).bind (tool.applyAll rest)

inductive File where
  | tarball
  /-- The duckdb-python tarball, beside that of the core. -/
  | pythonTarball
  | patchFile (name : String)
  /-- `$(HTTPFS_WASI_SRCS)`, and their copies in the tree. -/
  | clientSources
  | clientCopies
  | tree
  /-- `CMakeLists.txt` or `pyproject.toml` at the top of the tree. -/
  | marker
  /-- `.patched` or `.prepared` -/
  | sentinel
deriving DecidableEq, Repr

inductive Content (τ π : Type) where
  | text
  | patch (patch : π)
  | tree (tree : τ)

abbrev Store (τ π : Type) := Disk File (Content τ π)

abbrev Change (τ π : Type) := Effect File (Content τ π)

/-- What breaks the loop over the patches off from outside, at which patch, and what it leaves. -/
structure Outage (τ : Type) where
  strikes : Nat → Bool
  debris : Nat → τ → τ
  touched : Nat → Bool

def patchAt (disk : Store τ π) (name : String) : Option π :=
  match disk.file (.patchFile name) with
  | some ⟨.patch patch, _⟩ => some patch
  | _ => none

/-- `$(wildcard ..*.patch)`, in the order of the names. -/
def patches (names : List String) (disk : Store τ π) : List π := names.filterMap (patchAt disk)

def treeAt (disk : Store τ π) : Option τ :=
  match disk.file .tree with
  | some ⟨.tree tree, _⟩ => some tree
  | _ => none

def rewrite (tree : τ) (touched : Bool) : List (Change τ π) :=
  .write .tree (.tree tree) :: if touched then [.write .marker .text] else []

section
variable (tool : PatchTool τ π) (names : List String)

/-- `for p in ..; do .. patch -p1 --no-backup-if-mismatch < $$p || exit 1; done` -/
def patchLoop (outage : Outage τ) : Nat → List π → τ → Bool × List (Change τ π)
  | _, [], _ => (true, [])
  | index, patch :: rest, tree =>
    if outage.strikes index then (false, rewrite (outage.debris index tree) (outage.touched index))
    else
      match tool.apply patch tree with
      | none => (false, rewrite (tool.rejected patch tree) (tool.touches patch))
      | some patched =>
        let later := patchLoop outage (index + 1) rest patched
        (later.1, rewrite patched (tool.touches patch) ++ later.2)

/-- Extract and patch in one recipe. -/
def extractAndPatch (pristine : τ) (clear finish : List (Change τ π)) (outage : Outage τ) (disk : Store τ π) :
    Bool × List (Change τ π) :=
  let patched := patchLoop tool outage 0 (patches names disk) pristine
  (patched.1, clear ++ (.write .tree (.tree pristine) :: patched.2) ++ if patched.1 then finish else [])

/-- Patch the tree that is there. -/
def patchInPlace (outage : Outage τ) (disk : Store τ π) : Bool × List (Change τ π) :=
  match treeAt disk with
  | none => (false, [])
  | some tree =>
    let patched := patchLoop tool outage 0 (patches names disk) tree
    (patched.1, patched.2 ++ if patched.1 then [.write .sentinel .text] else [])

/-- duckdb: `$(BUILD_DIR)/.patched` -/
def duckdbPatched (pristine : τ) : Rule (Outage τ) File (Content τ π) where
  target := .sentinel
  needs := .tarball :: names.map .patchFile
  recipe := extractAndPatch tool names pristine [] [.write .sentinel .text]

/-- duckdb-python: `$(BUILD_DIR)/.patched` -/
def duckdbPythonPatched (pristine : τ) : Rule (Outage τ) File (Content τ π) where
  target := .sentinel
  needs := .pythonTarball :: .tarball :: names.map .patchFile
  recipe := extractAndPatch tool names pristine [] [.write .sentinel .text]

/-- httpfs: `$(HTTPFS_SRC)/.prepared`, which goes with the tree. -/
def httpfsPrepared (pristine : τ) : Rule (Outage τ) File (Content τ π) where
  target := .sentinel
  needs := .tarball :: (names.map .patchFile ++ [.clientSources])
  recipe := extractAndPatch tool names pristine [.remove .sentinel, .remove .clientCopies]
    [.write .clientCopies .text, .write .sentinel .text]

/-- AWS-LC: `$(AWS_LC_SRC)/CMakeLists.txt`. As tar leaves it, it is older than the
tarball, which to make is as good as missing. -/
def awsLcPatched (pristine : τ) : Rule (Outage τ) File (Content τ π) where
  target := .marker
  needs := .tarball :: names.map .patchFile
  recipe := extractAndPatch tool names pristine [.remove .marker] [.write .marker .text]

/-- numpy and cryptography: `pyproject.toml` in the tree. -/
def extracted (pristine : τ) : Rule (Outage τ) File (Content τ π) where
  target := .marker
  needs := [.tarball]
  recipe := fun _ _ => (true, [.remove .marker, .write .tree (.tree pristine), .write .marker .text])

/-- numpy and cryptography: `$(BUILD_DIR)/.patched` -/
def patchedInPlace : Rule (Outage τ) File (Content τ π) where
  target := .sentinel
  needs := .marker :: names.map .patchFile
  recipe := patchInPlace tool names

/-- The rule that applies the patches. -/
def patching (pristine : τ) : Upstream → Rule (Outage τ) File (Content τ π)
  | .duckdb => duckdbPatched tool names pristine
  | .duckdbPython => duckdbPythonPatched tool names pristine
  | .httpfs => httpfsPrepared tool names pristine
  | .awsLc => awsLcPatched tool names pristine
  | .cryptography => patchedInPlace tool names
  | .numpy => patchedInPlace tool names

/-- Extraction and patching are two rules. -/
def Upstream.split : Upstream → Bool
  | .cryptography => true
  | .numpy => true
  | _ => false

/-- The prepare rules, in the order make considers them. -/
def rules (pristine : τ) (upstream : Upstream) : List (Rule (Outage τ) File (Content τ π)) :=
  if upstream.split then [extracted pristine, patching tool names pristine upstream]
  else [patching tool names pristine upstream]

end

/-- How the last make went, and whether something struck it from outside. -/
structure Outcome where
  ok : Bool
  struck : Bool
deriving DecidableEq, Repr

/-- The tree is the pristine one with the current patches, each applied once; that of httpfs
has the client sources beside it. -/
def Right (tool : PatchTool τ π) (pristine : τ) (upstream : Upstream) (names : List String) (disk : Store τ π) : Prop :=
  (∃ tree, tool.applyAll (patches names disk) pristine = some tree ∧ treeAt disk = some tree) ∧
    (upstream = .httpfs → (disk.file .clientCopies).isSome = true)

/-- What each make owes: to succeed whenever the patches apply to the pristine tree and
nothing strikes, and never to succeed with any other tree. -/
structure Prepared (tool : PatchTool τ π) (pristine : τ) (upstream : Upstream) (names : List String) (disk : Store τ π)
    (outcome : Outcome) : Prop where
  succeeds : (tool.applyAll (patches names disk) pristine).isSome = true → outcome.struck = false → outcome.ok = true
  exact : outcome.ok = true → Right tool pristine upstream names disk

structure Workspace (τ π : Type) where
  names : List String
  disk : Store τ π
  last : Option Outcome

/-- One make, after a patch file has been edited or added, or after nothing. -/
structure Event (τ π : Type) where
  change : Option (String × π)
  outage : Outage τ

def insertName (name : String) (names : List String) : List String :=
  if name ∈ names then names else names.orderedInsert (· ≤ ·) name

namespace Workspace

/-- A clone with its patch files, and the tarballs downloaded. -/
def clone (names : List String) (patch : String → π) : Workspace τ π where
  names := names
  disk := Disk.checkout ([.tarball, .pythonTarball, .clientSources] ++ names.map .patchFile) fun
    | .patchFile name => .patch (patch name)
    | _ => .text
  last := none

def edit (workspace : Workspace τ π) : Option (String × π) → Workspace τ π
  | none => workspace
  | some (name, patch) =>
    { workspace with
      names := insertName name workspace.names
      disk := workspace.disk.write (.patchFile name) (.patch patch) }

/-- The patches as they are now. -/
def current (workspace : Workspace τ π) : List π := patches workspace.names workspace.disk

def run (tool : PatchTool τ π) (pristine : τ) (upstream : Upstream) (workspace : Workspace τ π) (event : Event τ π) :
    Workspace τ π :=
  let edited := workspace.edit event.change
  let made := make event.outage (rules tool edited.names pristine upstream) edited.disk
  { names := edited.names
    disk := made.2
    last := some ⟨made.1, (List.range edited.current.length).any event.outage.strikes⟩ }

/-- The rule of the two that patches in place finds the tree as it was extracted, and a
`CMakeLists.txt` that a failed run has rewritten is not taken for up to date. -/
structure Careful (tool : PatchTool τ π) (pristine : τ) (upstream : Upstream) (workspace : Workspace τ π)
    (event : Event τ π) : Prop where
  unpatched : upstream.split = true →
    (patching tool (workspace.edit event.change).names pristine upstream).outdated (workspace.edit event.change).disk = true →
      treeAt workspace.disk = none ∨ treeAt workspace.disk = some pristine
  unspoiled : upstream = .awsLc →
    (patching tool (workspace.edit event.change).names pristine upstream).outdated (workspace.edit event.change).disk = false →
      ∀ outcome ∈ workspace.last, outcome.ok = true

end Workspace

end WasiWheels.Build.Patching
