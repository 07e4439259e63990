import WasiWheels.Core.Block
import WasiWheels.Core.FileTree
import Mathlib.Data.List.Lex

/-! `zip-wheel.go` operation by operation: every call that can fail, the two deferred
Closes among them, over a staging directory of any depth. -/

namespace WasiWheels.Build.Zipping

abbrev Name := List UInt8
abbrev Bytes := List UInt8

/-- The names from the staging directory down. -/
abbrev Route := List Name

def slash : UInt8 := 47
def dot : UInt8 := 46

def Legal (name : Name) : Prop := slash ∉ name ∧ name ≠ [] ∧ name ≠ [dot] ∧ name ≠ [dot, dot]

/-- A staging directory as `filepath.Walk` reads it: in the order of the sorted names. -/
structure Stage where
  tree : FileTree Name Bytes
  ordered : tree.Ordered Legal

/-- `filepath.Rel(stage, path)` with '/' for the separator. -/
def relative (path : Route) : Name := if path = [] then [dot] else [slash].intercalate path

inductive Operation where
  | create
  | lstat (path : Route)
  | readDir (path : Route)
  /-- `zw.Create`, which also flushes the entry before. -/
  | createEntry (path : Route)
  | openFile (path : Route)
  | copy (path : Route)
  /-- `zw.Close`, which flushes the last entry and writes the central directory. -/
  | closeZip
  | closeOutput
deriving DecidableEq, Repr

structure ZipFile where
  entries : List (Name × Bytes)
  directory : Bool
deriving DecidableEq, Repr

/-- A complete archive of the stage: readable, and each regular file in it once. -/
structure ZipFile.Complete (file : ZipFile) (tree : FileTree Name Bytes) : Prop where
  directory : file.directory = true
  once : (file.entries.map Prod.fst).Nodup
  exact : ∀ name bytes, (name, bytes) ∈ file.entries ↔ ∃ path, tree.FileAt path bytes ∧ name = relative path

/-- Which operations fail, and what a failing one leaves behind. -/
structure Failures where
  fails : Operation → Bool
  copied : Route → Bytes
  kept : ZipFile → ZipFile

structure Run where
  performed : List Operation := []
  entries : List (Name × Bytes) := []
  output : Option ZipFile := none

/-- A Go function that returns an error: that of the operation that failed. -/
abbrev Go := Block Run Empty Operation

def attempt (failures : Failures) (operation : Operation) : Go (Option Operation) := fun run =>
  (.fall (if failures.fails operation then some operation else none),
    { run with performed := run.performed ++ [operation] })

/-- `if err != nil { return err }` -/
def check (err : Option Operation) : Go Unit :=
  match err with
  | some error => Block.throw error
  | none => pure ()

def addEntry (name : Name) : Go Unit := Block.modify fun run => { run with entries := run.entries ++ [(name, [])] }

/-- Give the entry opened last its bytes. -/
def fill (bytes : Bytes) : Go Unit := Block.modify fun run =>
  { run with entries := run.entries.dropLast ++ run.entries.getLast?.toList.map fun entry => (entry.1, bytes) }

section
variable (failures : Failures)

/-- The function handed to `filepath.Walk`; without `walkErr`, `info` is what is at the path. -/
def visit (path : Route) (info : FileTree Name Bytes) (walkErr : Option Operation) : Go Unit := do
  check walkErr
  match info with
  | .dir _ => pure ()
  | .file bytes => do
    let rel := relative path
    let err ← attempt failures (.createEntry path)
    check err
    addEntry rel
    let err ← attempt failures (.openFile path)
    check err
    let err ← attempt failures (.copy path)
    fill (if err.isSome then failures.copied path else bytes)
    check err

mutual

/-- `filepath.Walk` below a path that Lstat has found. -/
def walk (fn : Route → FileTree Name Bytes → Option Operation → Go Unit) (path : Route) : FileTree Name Bytes → Go Unit
  | .file bytes => fn path (.file bytes) none
  | .dir entries => do
    let err ← attempt failures (.readDir path)
    fn path (.dir entries) err
    if err.isSome then pure () else walkNames fn path entries

def walkNames (fn : Route → FileTree Name Bytes → Option Operation → Go Unit) (path : Route) :
    List (Name × FileTree Name Bytes) → Go Unit
  | [] => pure ()
  | (name, tree) :: rest => do
    let err ← attempt failures (.lstat (path ++ [name]))
    if err.isSome then fn (path ++ [name]) tree err else walk fn (path ++ [name]) tree
    walkNames fn path rest

end

/-- `filepath.Walk(stage, fn)` -/
def walkStage (fn : Route → FileTree Name Bytes → Option Operation → Go Unit) (stage : Stage) : Go Unit := do
  let err ← attempt failures (.lstat [])
  if err.isSome then fn [] stage.tree err else walk failures fn [] stage.tree

def closeZip (run : Run) : Run :=
  { run with
    performed := run.performed ++ [.closeZip]
    output := some ⟨run.entries, !failures.fails .closeZip⟩ }

def closeOutput (run : Run) : Run :=
  { run with
    performed := run.performed ++ [.closeOutput]
    output := if failures.fails .closeOutput then run.output.map failures.kept else run.output }

/-- `pack(stage, out)`: the deferred Closes run on every way out, and what they return is dropped. -/
def pack (stage : Stage) : Go Unit := do
  let err ← attempt failures .create
  check err
  Block.scope id (closeOutput failures) (Block.scope id (closeZip failures) (walkStage failures (visit failures) stage))

def ran (stage : Stage) : Exit Empty Operation Unit × Run := pack failures stage {}

/-- `pack` returned nil. -/
def Succeeds (stage : Stage) : Prop := (ran failures stage).1 = .fall ()

end

/-! What the whole walk of a stage tries, in order. -/

mutual

def operations (path : Route) : FileTree Name Bytes → List Operation
  | .file _ => [.createEntry path, .openFile path, .copy path]
  | .dir entries => .readDir path :: operationsIn path entries

def operationsIn (path : Route) : List (Name × FileTree Name Bytes) → List Operation
  | [] => []
  | (name, tree) :: rest =>
    .lstat (path ++ [name]) :: (operations (path ++ [name]) tree ++ operationsIn path rest)

end

/-- Everything `pack` tries before the deferred Closes. -/
def Stage.operations (stage : Stage) : List Operation :=
  .create :: .lstat [] :: Zipping.operations [] stage.tree

/-- The entries of the stage's files. -/
def named (files : List (Route × Bytes)) : List (Name × Bytes) := files.map fun file => (relative file.1, file.2)

theorem named_append (files others : List (Route × Bytes)) : named (files ++ others) = named files ++ named others :=
  List.map_append

/-- More operations done, and more entries in the archive. -/
def Run.did (run : Run) (operations : List Operation) (added : List (Name × Bytes)) : Run :=
  { run with performed := run.performed ++ operations, entries := run.entries ++ added }

theorem Run.did_nil (run : Run) : run.did [] [] = run := by
  simp only [did, List.append_nil]

theorem Run.did_did (run : Run) (operations operations' : List Operation) (added added' : List (Name × Bytes)) :
    (run.did operations added).did operations' added' = run.did (operations ++ operations') (added ++ added') := by
  simp only [did, List.append_assoc]

section
variable {failures : Failures} {steps : List Operation} {change : Run → Run}

/-- An operation is tried before whatever its error decides. -/
theorem attempt_tries {operation : Operation} {next : Option Operation → Go Unit}
    (rest : Block.Tries failures.fails (next none) steps () change)
    (stops : ∀ run, ∃ error, (next (some operation) run).1 = .throw error) :
    Block.Tries failures.fails (attempt failures operation >>= next) (operation :: steps) ()
      (fun run => change (run.did [operation] [])) := by
  have unfolded : ∀ run, (attempt failures operation >>= next) run =
      next (if failures.fails operation then some operation else none) (run.did [operation] []) := by
    intro run
    rw [Run.did, List.append_nil]
    rfl
  constructor
  · intro quiet run
    rw [unfolded, quiet operation List.mem_cons_self]
    exact rest.1 (fun step member => quiet step (List.mem_cons_of_mem _ member)) _
  · rintro ⟨step, member, failed⟩ run
    rw [unfolded]
    cases fault : failures.fails operation with
    | true => exact stops _
    | false =>
      rcases List.mem_cons.mp member with head | tail
      · rw [head, fault] at failed
        cases failed
      · exact rest.2 ⟨step, tail, failed⟩ _

/-- An operation whose error is returned. -/
theorem checked_tries (operation : Operation) {next : Go Unit} (rest : Block.Tries failures.fails next steps () change) :
    Block.Tries failures.fails (attempt failures operation >>= fun err => check err >>= fun _ => next)
      (operation :: steps) () (fun run => change (run.did [operation] [])) :=
  attempt_tries rest fun _ => ⟨operation, rfl⟩

/-- A file becomes an entry with its bytes. -/
theorem visit_file_tries (path : Route) (bytes : Bytes) :
    Block.Tries failures.fails (visit failures path (.file bytes) none)
      [.createEntry path, .openFile path, .copy path] ()
      (fun run => run.did [.createEntry path, .openFile path, .copy path] [(relative path, bytes)]) := by
  have copied : Block.Tries failures.fails (attempt failures (.copy path) >>= fun err =>
      fill (if err.isSome then failures.copied path else bytes) >>= fun _ => check err) [.copy path] () _ :=
    attempt_tries ((Block.Tries.modify _).seq (Block.Tries.pure ())) fun _ => ⟨_, rfl⟩
  have opened := checked_tries (.openFile path) copied
  have added : Block.Tries failures.fails (addEntry (relative path)) [] () _ := Block.Tries.modify _
  have created := checked_tries (.createEntry path) (added.seq opened)
  refine created.congr rfl rfl ?_
  intro run
  simp [Run.did]

theorem visit_dir_tries (path : Route) (entries : List (Name × FileTree Name Bytes)) :
    Block.Tries failures.fails (visit failures path (.dir entries) none) [] () id := Block.Tries.pure ()

mutual

/-- A walk that nothing disturbs adds every file below the path. -/
theorem walk_tries (path : Route) (tree : FileTree Name Bytes) :
    Block.Tries failures.fails (walk failures (visit failures) path tree) (operations path tree) ()
      (fun run => run.did (operations path tree) (named (tree.files path))) := by
  cases tree with
  | file bytes =>
    rw [walk]
    exact visit_file_tries path bytes
  | dir entries =>
    rw [walk]
    refine (attempt_tries ((visit_dir_tries path entries).seq (walkNames_tries path entries)) ?_).congr rfl rfl ?_
    · exact fun run => ⟨.readDir path, rfl⟩
    · exact fun run => Run.did_did run _ _ _ _

theorem walkNames_tries (path : Route) (entries : List (Name × FileTree Name Bytes)) :
    Block.Tries failures.fails (walkNames failures (visit failures) path entries) (operationsIn path entries) ()
      (fun run => run.did (operationsIn path entries) (named (FileTree.filesIn path entries))) := by
  cases entries with
  | nil =>
    rw [walkNames]
    exact (Block.Tries.pure ()).congr rfl rfl fun run => run.did_nil.symm
  | cons entry rest =>
    obtain ⟨name, tree⟩ := entry
    rw [walkNames]
    refine (attempt_tries ((walk_tries (path ++ [name]) tree).seq (walkNames_tries path rest)) ?_).congr rfl rfl ?_
    · exact fun run => ⟨.lstat (path ++ [name]), rfl⟩
    · intro run
      simp only [Run.did_did, operationsIn, FileTree.filesIn, named_append, List.nil_append, List.cons_append]

end

theorem walkStage_tries (stage : Stage) : Block.Tries failures.fails (walkStage failures (visit failures) stage)
    (.lstat [] :: operations [] stage.tree) ()
    (fun run => run.did (.lstat [] :: operations [] stage.tree) (named (stage.tree.files []))) := by
  refine (attempt_tries (walk_tries [] stage.tree) ?_).congr rfl rfl ?_
  · exact fun run => ⟨.lstat [], rfl⟩
  · exact fun run => Run.did_did run _ _ _ _

/-- The deferred Closes follow whatever the walk did. -/
theorem pack_tries (stage : Stage) : Block.Tries failures.fails (pack failures stage) stage.operations ()
    (fun run => closeOutput failures (closeZip failures (run.did stage.operations (named (stage.tree.files []))))) := by
  refine (checked_tries .create (walkStage_tries stage).scope.scope).congr rfl rfl ?_
  intro run
  simp only [id, Run.did_did, List.singleton_append, List.nil_append, Stage.operations]

theorem ran_undisturbed {stage : Stage} (quiet : ∀ operation ∈ stage.operations, failures.fails operation = false) :
    ran failures stage = (.fall (), closeOutput failures (closeZip failures
      { performed := stage.operations, entries := named (stage.tree.files []) })) := (pack_tries stage).1 quiet {}

theorem ran_disturbed {stage : Stage} (failed : ∃ operation ∈ stage.operations, failures.fails operation = true) :
    ¬ Succeeds failures stage := by
  intro succeeds
  obtain ⟨error, thrown⟩ := (pack_tries stage).2 failed {}
  rw [Succeeds, ran, thrown] at succeeds
  cases succeeds

end

/-- A legal path can be read off its entry name. -/
theorem relative_injective {path path' : Route} (legal : ∀ name ∈ path, Legal name) (legal' : ∀ name ∈ path', Legal name)
    (same : relative path = relative path') : path = path' := by
  have parts : ∀ {route : Route}, (∀ name ∈ route, Legal name) → route ≠ [] →
      (relative route).splitOn slash = route := by
    intro route allowed filled
    rw [relative, if_neg filled]
    exact List.splitOn_intercalate slash (fun name member => (allowed name member).1) filled
  have apart : ∀ {route : Route}, (∀ name ∈ route, Legal name) → route ≠ [] → relative route ≠ relative [] := by
    intro route allowed filled dotted
    have split := parts allowed filled
    rw [dotted] at split
    exact (allowed [dot] (split ▸ List.mem_singleton_self [dot])).2.2.1 rfl
  by_cases empty : path = []
  · subst empty
    by_contra differs
    exact apart legal' (Ne.symm differs) same.symm
  · by_cases empty' : path' = []
    · subst empty'
      exact absurd same (apart legal empty)
    · rw [← parts legal empty, same, parts legal' empty']

/-- The entries of a whole walk make a complete archive. -/
theorem named_complete (stage : Stage) : ZipFile.Complete ⟨named (stage.tree.files []), true⟩ stage.tree := by
  have located : ∀ path bytes, (path, bytes) ∈ stage.tree.files [] ↔ stage.tree.FileAt path bytes := by
    intro path bytes
    rw [FileTree.mem_files]
    constructor
    · rintro ⟨below, same, found⟩
      exact same ▸ found
    · exact fun found => ⟨path, rfl, found⟩
  refine ⟨rfl, ?_, ?_⟩
  · have names : (named (stage.tree.files [])).map Prod.fst = ((stage.tree.files []).map Prod.fst).map relative := by
      rw [named, List.map_map, List.map_map]
      rfl
    rw [names]
    refine List.Nodup.map_on ?_ (FileTree.nodup_files stage.tree [] stage.ordered)
    intro path member path' member' same
    obtain ⟨⟨_, bytes⟩, inside, rfl⟩ := List.mem_map.mp member
    obtain ⟨⟨_, bytes'⟩, inside', rfl⟩ := List.mem_map.mp member'
    exact relative_injective (((located _ _).mp inside).legal stage.ordered)
      (((located _ _).mp inside').legal stage.ordered) same
  · intro name bytes
    constructor
    · intro member
      obtain ⟨⟨path, content⟩, inside, same⟩ := List.mem_map.mp member
      cases same
      exact ⟨path, (located path _).mp inside, rfl⟩
    · rintro ⟨path, found, rfl⟩
      exact List.mem_map.mpr ⟨(path, bytes), (located path bytes).mpr found, rfl⟩

/-- What a nil from `pack` should mean. -/
structure Reliable (failures : Failures) (stage : Stage) : Prop where
  complete : Succeeds failures stage → ∃ file, (ran failures stage).2.output = some file ∧ file.Complete stage.tree
  reported : ∀ operation ∈ (ran failures stage).2.performed, failures.fails operation = true → ¬ Succeeds failures stage

/-- A nil can be relied on unless the walk went through and a deferred Close then failed. -/
theorem reliable_iff (failures : Failures) (stage : Stage) : Reliable failures stage ↔
    ((∃ operation ∈ stage.operations, failures.fails operation = true) ∨
      (failures.fails .closeZip = false ∧ failures.fails .closeOutput = false)) := by
  by_cases failed : ∃ operation ∈ stage.operations, failures.fails operation = true
  · refine iff_of_true ⟨fun succeeds => ?_, fun _ _ _ => ran_disturbed failed⟩ (.inl failed)
    exact absurd succeeds (ran_disturbed failed)
  · have quiet : ∀ operation ∈ stage.operations, failures.fails operation = false := by simpa using failed
    have outcome := ran_undisturbed quiet
    have succeeds : Succeeds failures stage := congrArg Prod.fst outcome
    rw [or_iff_right failed]
    constructor
    · intro reliable
      have closes := reliable.reported
      rw [outcome] at closes
      constructor
      · by_contra fault
        exact closes .closeZip (by simp [closeOutput, closeZip]) (by simpa using fault) succeeds
      · by_contra fault
        exact closes .closeOutput (by simp [closeOutput]) (by simpa using fault) succeeds
    · rintro ⟨zip, output⟩
      refine ⟨fun _ => ⟨⟨named (stage.tree.files []), true⟩, ?_, named_complete stage⟩, ?_⟩
      · rw [outcome]
        simp [closeOutput, closeZip, zip, output]
      · intro operation member fault
        rw [outcome] at member
        rcases List.mem_append.mp member with before | last
        · rcases List.mem_append.mp before with walked | closing
          · rw [quiet operation walked] at fault
            cases fault
          · rw [List.mem_singleton.mp closing, zip] at fault
            cases fault
        · rw [List.mem_singleton.mp last, output] at fault
          cases fault

/-- One file, `a`, in the staging directory. -/
def oneFile : Stage where
  tree := .dir [([97], .file [1])]
  ordered := ⟨by unfold Legal; decide, (fun _ member => by cases member), trivial, trivial⟩

/-- Nothing fails but writing the central directory. -/
def diskFull : Failures where
  fails operation := operation == .closeZip
  copied _ := []
  kept file := file

/-- The archive has no directory, and `pack` returns nil. -/
theorem directory_lost : Succeeds diskFull oneFile ∧ ¬ Reliable diskFull oneFile := by
  have succeeds : Succeeds diskFull oneFile := rfl
  refine ⟨succeeds, fun reliable => ?_⟩
  obtain ⟨file, written, complete⟩ := reliable.complete succeeds
  cases written
  exact absurd complete.directory (by decide)

end WasiWheels.Build.Zipping
