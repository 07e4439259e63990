import WasiWheels.Core.Shell
import WasiWheels.Index.Pages

/-! `scripts/build-pages-index.sh` command by command, and the files it leaves in `$OUT_DIR`. -/

namespace WasiWheels.Index

open Text (lines)
open Script (errexit pipefail forEach piped trapExit failing)

/-- The release that GitHub points to as the latest. -/
structure Published where
  tag : Text
  named : tag ≠ []
  /-- Its SHA256SUMS, if it has that asset. -/
  sums : Option Text

/-- The state of the repository, as far as the script asks for it. -/
structure Repository where
  slug : Text
  latest : Option Published

/-- What the script runs. A number is the turn of the loop around the command. -/
inductive Command where
  /-- `[[ -z "$GH_REPO" ]]` -/
  | checkSlug
  | echoStart
  | rm
  | mkdir
  | mktemp
  | view
  | echoNone
  | clearEntries
  | echoTag
  | download
  | openSums
  | printName (line : Nat)
  | tr (line : Nat)
  | sed (line : Nat)
  | appendRow (line : Nat)
  | awkColumn
  | sortUnique
  | openRoot
  | rootHeader
  | rootLink (turn : Nat)
  | rootFooter
  | mkdirPage (turn : Nat)
  | openPage (turn : Nat)
  | pageHeader (turn : Nat)
  | awkRows (turn : Nat)
  | rowLink (turn row : Nat)
  | pageFooter (turn : Nat)
  /-- The closing `echo`; the statuses of the `wc`s among its arguments are lost. -/
  | echoDone
  /-- `rm -rf "$TMP"`, by the trap. -/
  | cleanup
deriving DecidableEq, Repr

/-- What is written into a page. -/
inductive Part where
  | header (title : Text)
  | link (anchor : Anchor)
  | footer
deriving DecidableEq

/-- A file below `$OUT_DIR`. -/
structure HtmlFile where
  path : Text
  parts : List Part
deriving DecidableEq

/-- What is below `$OUT_DIR`, the file written last at the end. -/
abbrev Tree := List HtmlFile

def indexHtml : Text := "index.html".toList

def rootTitle : Text := "WASI Python wheel index".toList

namespace Tree

def opening (path : Text) (tree : Tree) : Tree := tree ++ [⟨path, []⟩]

/-- More of the file opened last. -/
def writing (part : Part) (tree : Tree) : Tree :=
  tree.dropLast ++ tree.getLast?.toList.map fun file => { file with parts := file.parts ++ [part] }

end Tree

/-- `{ .. } > path` -/
def openFile (path : Text) : Script Tree Unit := Block.modify (Tree.opening path)

def write (part : Part) : Script Tree Unit := Block.modify (Tree.writing part)

section
variable (awk : Awk) (repository : Repository) (outcome : Command → Option Failure)

/-- The status of a command: some fail without anything going wrong. -/
def answer (command : Command) : Option Failure :=
  let refused : Option Failure := some ⟨1, Nat.one_ne_zero⟩
  match command with
  | .checkSlug => if repository.slug = [] then refused else none
  | .view => if repository.latest.isNone then refused else outcome .view
  | .download => if (repository.latest.bind Published.sums).isNone then refused else outcome .download
  | other => outcome other

/-- Run a command under `set -e`. -/
def run (command : Command) : Script Tree Unit := errexit (answer repository outcome command)

/-- `TAG="$(gh release view .. 2>/dev/null || true)"`: a `gh` that fails has printed nothing. -/
def viewed : Option Published :=
  if (answer repository outcome .view).isSome then none else repository.latest

/-- One turn of the `while IFS= read -r line` loop, and what it adds to `entries.tsv`. -/
def collectLine (number : Nat) (line : Text) : Script Tree Text :=
  match entryOf line with
  | none => pure []
  | some row => do
    errexit (pipefail [answer repository outcome (.printName number), answer repository outcome (.tr number),
      answer repository outcome (.sed number)])
    run repository outcome (.appendRow number)
    pure (row ++ ['\n'])

def collect : Nat → List Text → Script Tree Text
  | _, [] => pure []
  | number, line :: rest => do
    let row ← collectLine repository outcome number line
    let rows ← collect (number + 1) rest
    pure (row ++ rows)

/-- `entries.tsv` of the release that was found. -/
def gather : Option Published → Script Tree Text
  | none => do
    run repository outcome .echoNone
    run repository outcome .clearEntries
    pure []
  | some published => do
    run repository outcome .clearEntries
    run repository outcome .echoTag
    run repository outcome .download
    run repository outcome .openSums
    collect repository outcome 0 (lines (published.sums.getD []))

/-- The root `index.html`. -/
def emitRoot (packages : List Text) : Script Tree Unit := do
  run repository outcome .openRoot
  openFile indexHtml
  run repository outcome .rootHeader
  write (.header rootTitle)
  forEach (fun turn => do
    run repository outcome (.rootLink turn.2)
    write (.link (packageAnchor turn.1))) packages.zipIdx
  run repository outcome .rootFooter
  write .footer

/-- One turn of the loop over `$PKGS`: a package's `index.html`. -/
def emitPage (tag entries : Text) (turn : Text × Nat) : Script Tree Unit := do
  run repository outcome (.mkdirPage turn.2)
  run repository outcome (.openPage turn.2)
  openFile (turn.1 ++ '/' :: indexHtml)
  run repository outcome (.pageHeader turn.2)
  write (.header turn.1)
  piped (answer repository outcome (.awkRows turn.2)) (forEach (fun row => do
    run repository outcome (.rowLink turn.2 row.2)
    write (.link (rowAnchor repository.slug tag row.1))) (selected awk entries turn.1).zipIdx)
  run repository outcome (.pageFooter turn.2)
  write .footer

/-- From the first look at the releases to the end, with `$TMP` there to be removed. -/
def build : Script Tree Unit := do
  let found := viewed repository outcome
  let tag := (found.map Published.tag).getD []
  let entries ← gather repository outcome found
  errexit (pipefail [answer repository outcome .awkColumn, answer repository outcome .sortUnique])
  emitRoot repository outcome (packages entries)
  forEach (emitPage awk repository outcome tag entries) (packages entries).zipIdx
  run repository outcome .echoDone

/-- The whole script, from whatever was in `$OUT_DIR` before. -/
def script : Script Tree Unit := do
  run repository outcome .checkSlug
  run repository outcome .echoStart
  run repository outcome .rm
  Block.modify fun _ => []
  run repository outcome .mkdir
  run repository outcome .mktemp
  trapExit (answer repository outcome .cleanup) (build awk repository outcome)

end

/-! The commands of a run in which nothing is refused, in order. -/

def lineCommands (number : Nat) (line : Text) : List Command :=
  match entryOf line with
  | none => []
  | some _ => [.printName number, .tr number, .sed number, .appendRow number]

def collectCommands : Nat → List Text → List Command
  | _, [] => []
  | number, line :: rest => lineCommands number line ++ collectCommands (number + 1) rest

def gatherCommands : Option Published → List Command
  | none => [.echoNone, .clearEntries]
  | some published =>
    [.clearEntries, .echoTag, .download, .openSums] ++ collectCommands 0 (lines (published.sums.getD []))

def rootCommands (packages : List Text) : List Command :=
  [Command.openRoot, .rootHeader] ++ packages.zipIdx.map (fun turn => Command.rootLink turn.2) ++
    [Command.rootFooter]

def pageCommands (awk : Awk) (entries : Text) (turn : Text × Nat) : List Command :=
  [Command.mkdirPage turn.2, .openPage turn.2, .pageHeader turn.2, .awkRows turn.2] ++
    (selected awk entries turn.1).zipIdx.map (fun row => Command.rowLink turn.2 row.2) ++ [Command.pageFooter turn.2]

/-- What the index is made from, once a release or none has been found. -/
def Published.release (published : Published) : Release := ⟨published.tag, published.sums.getD []⟩

def buildCommands (awk : Awk) (found : Option Published) : List Command :=
  let entries := entries (found.map Published.release)
  gatherCommands found ++ ([Command.awkColumn, .sortUnique] ++ (rootCommands (packages entries) ++
    ((packages entries).zipIdx.flatMap (pageCommands awk entries) ++ [Command.echoDone])))

def commands (awk : Awk) (found : Option Published) : List Command :=
  [Command.checkSlug, .echoStart, .rm, .mkdir, .mktemp] ++ (buildCommands awk found ++ [Command.cleanup])

/-- The files of a site. -/
def Page.file (page : Page) : HtmlFile :=
  ⟨page.directory ++ '/' :: indexHtml, .header page.directory :: page.anchors.map Part.link ++ [.footer]⟩

def Site.tree (site : Site) : Tree :=
  ⟨indexHtml, .header rootTitle :: site.root.map Part.link ++ [.footer]⟩ :: site.pages.map Page.file

section
variable {awk : Awk} {repository : Repository} {outcome : Command → Option Failure}

theorem run_tries (command : Command) : Block.Tries (failing (answer repository outcome))
    (run repository outcome command) [command] () id := Script.tries_command command

theorem collectLine_tries (number : Nat) (line : Text) : Block.Tries (failing (answer repository outcome))
    (collectLine repository outcome number line) (lineCommands number line)
    (((entryOf line).map (· ++ ['\n'])).getD []) id := by
  unfold collectLine lineCommands
  cases entryOf line with
  | none => exact Block.Tries.pure []
  | some row =>
    exact (Script.tries_pipeline [.printName number, .tr number, .sed number]).seq
      ((run_tries (.appendRow number)).seq (Block.Tries.pure _))

theorem collect_tries (number : Nat) (lines : List Text) : Block.Tries (failing (answer repository outcome))
    (collect repository outcome number lines) (collectCommands number lines)
    (Text.unlines (lines.filterMap entryOf)) id := by
  induction lines generalizing number with
  | nil => exact Block.Tries.pure []
  | cons line rest ih =>
    refine ((collectLine_tries number line).bind ((ih (number + 1)).map _)).congr rfl ?_ ?_
    · cases entry : entryOf line with
      | none => simp [entry]
      | some row => simp [entry, Text.unlines]
    · exact fun _ => rfl

theorem gather_tries (found : Option Published) : Block.Tries (failing (answer repository outcome))
    (gather repository outcome found) (gatherCommands found) (entries (found.map Published.release)) id := by
  cases found with
  | none => exact (run_tries .echoNone).seq ((run_tries .clearEntries).seq (Block.Tries.pure []))
  | some published =>
    exact (run_tries .clearEntries).seq ((run_tries .echoTag).seq ((run_tries .download).seq
      ((run_tries .openSums).seq (collect_tries 0 _))))

theorem openFile_tries (path : Text) : Block.Tries (failing (answer repository outcome)) (openFile path) [] ()
    (Tree.opening path) := Block.Tries.modify _

theorem write_tries (part : Part) : Block.Tries (failing (answer repository outcome)) (write part) [] ()
    (Tree.writing part) := Block.Tries.modify _

theorem writing_last (tree : Tree) (path : Text) (parts : List Part) (part : Part) :
    Tree.writing part (tree ++ [⟨path, parts⟩]) = tree ++ [⟨path, parts ++ [part]⟩] := by
  simp [Tree.writing]

theorem writing_all {κ : Type} (part : κ → Part) (items : List κ) (tree : Tree) (path : Text) (parts : List Part) :
    items.foldl (fun tree item => Tree.writing (part item) tree) (tree ++ [⟨path, parts⟩]) =
      tree ++ [⟨path, parts ++ items.map part⟩] := by
  induction items generalizing parts with
  | nil => simp
  | cons item rest ih =>
    rw [List.foldl_cons, writing_last, ih, List.append_assoc]
    rfl

theorem adding_all {κ : Type} (file : κ → HtmlFile) (items : List κ) (tree : Tree) :
    items.foldl (fun tree item => tree ++ [file item]) tree = tree ++ items.map file := by
  rw [List.foldl_append_eq_append, ← List.flatMap_def, ← List.map_eq_flatMap]

theorem map_turns {κ β : Type} (result : κ → β) (items : List κ) :
    items.zipIdx.map (fun turn => result turn.1) = items.map result := by
  have composed : (fun turn : κ × Nat => result turn.1) = result ∘ Prod.fst := rfl
  rw [composed, ← List.map_map, List.zipIdx_map_fst]

/-- A loop that writes one link each turn. -/
theorem links_tries {κ : Type} (command : κ → Command) (part : κ → Part) (items : List κ) :
    Block.Tries (failing (answer repository outcome))
      (forEach (fun item => run repository outcome (command item) >>= fun _ => write (part item)) items)
      (items.map command) () (fun tree => items.foldl (fun tree item => Tree.writing (part item) tree) tree) := by
  refine (Script.tries_forEach (fun item => (run_tries (command item)).seq (write_tries (part item))) items).congr ?_ rfl ?_
  · exact List.map_eq_flatMap.symm
  · exact fun _ => rfl

theorem emitRoot_tries (packages : List Text) : Block.Tries (failing (answer repository outcome))
    (emitRoot repository outcome packages) (rootCommands packages) ()
    (fun tree => tree ++ [⟨indexHtml, .header rootTitle :: (packages.map packageAnchor).map Part.link ++ [.footer]⟩]) := by
  have links : Block.Tries (failing (answer repository outcome)) _
      (packages.zipIdx.map fun turn => Command.rootLink turn.2) () _ :=
    links_tries (fun turn : Text × Nat => .rootLink turn.2) (fun turn => .link (packageAnchor turn.1)) packages.zipIdx
  refine ((run_tries .openRoot).seq ((openFile_tries indexHtml).seq ((run_tries .rootHeader).seq
    ((write_tries (.header rootTitle)).seq (links.seq ((run_tries .rootFooter).seq (write_tries .footer))))))).congr ?_ rfl ?_
  · rw [rootCommands, List.append_assoc]
    rfl
  · intro tree
    simp only [id, Tree.opening, writing_last, writing_all, map_turns fun package => Part.link (packageAnchor package)]
    rw [List.map_map]
    rfl

/-- A page's file holds the links of the rows selected for it. -/
theorem emitPage_tries (awk : Awk) (tag rows : Text) (turn : Text × Nat) : Block.Tries (failing (answer repository outcome))
    (emitPage awk repository outcome tag rows turn) (pageCommands awk rows turn) ()
    (fun tree => tree ++ [Page.file ⟨turn.1, (selected awk rows turn.1).map (rowAnchor repository.slug tag)⟩]) := by
  have links : Block.Tries (failing (answer repository outcome)) _
      ((selected awk rows turn.1).zipIdx.map fun row => Command.rowLink turn.2 row.2) () _ :=
    links_tries (fun row : Text × Nat => .rowLink turn.2 row.2)
      (fun row => .link (rowAnchor repository.slug tag row.1)) (selected awk rows turn.1).zipIdx
  have rowsShown := Script.tries_piped (.awkRows turn.2) links
  refine ((run_tries (.mkdirPage turn.2)).seq ((run_tries (.openPage turn.2)).seq
    ((openFile_tries (turn.1 ++ '/' :: indexHtml)).seq ((run_tries (.pageHeader turn.2)).seq
      ((write_tries (.header turn.1)).seq (rowsShown.seq
        ((run_tries (.pageFooter turn.2)).seq (write_tries .footer)))))))).congr ?_ rfl ?_
  · rw [pageCommands, List.append_assoc]
    rfl
  · intro tree
    simp only [id, Tree.opening, writing_last, writing_all,
      map_turns fun row => Part.link (rowAnchor repository.slug tag row)]
    rw [Page.file, List.map_map]
    rfl

/-- The lookup of the releases is not among the commands: its failure is not one of the script. -/
theorem build_tries : Block.Tries (failing (answer repository outcome)) (build awk repository outcome)
    (buildCommands awk (viewed repository outcome)) ()
    (fun tree => tree ++ (pagesIndex awk repository.slug ((viewed repository outcome).map Published.release)).tree) := by
  let found := viewed repository outcome
  let tag := (found.map Published.tag).getD []
  let rows := entries (found.map Published.release)
  have emitted : Block.Tries (failing (answer repository outcome)) _ _ () _ :=
    (Script.tries_pipeline [.awkColumn, .sortUnique]).seq ((emitRoot_tries (packages rows)).seq
      ((Script.tries_forEach (emitPage_tries awk tag rows) (packages rows).zipIdx).seq (run_tries .echoDone)))
  have body : Block.Tries (failing (answer repository outcome)) (build awk repository outcome) _ () _ :=
    (gather_tries found).bind emitted
  refine body.congr rfl rfl ?_
  intro tree
  have sameTag : tag = (((found.map Published.release).map Release.tag).getD [] : Text) := by
    rw [Option.map_map]
    rfl
  have pages : (packages rows).zipIdx.map (fun turn =>
        Page.file ⟨turn.1, (selected awk rows turn.1).map (rowAnchor repository.slug tag)⟩) =
      (pagesIndex awk repository.slug (found.map Published.release)).pages.map Page.file := by
    rw [map_turns fun package => Page.file ⟨package, (selected awk rows package).map (rowAnchor repository.slug tag)⟩,
      sameTag]
    simp only [pagesIndex, List.map_map]
    rfl
  simp only [id, adding_all, pages, List.append_assoc]
  rfl

theorem script_tries : Block.Tries (failing (answer repository outcome)) (script awk repository outcome)
    (commands awk (viewed repository outcome)) ()
    (fun _ => (pagesIndex awk repository.slug ((viewed repository outcome).map Published.release)).tree) := by
  have body : Block.Tries (failing (answer repository outcome)) (script awk repository outcome) _ () _ :=
    (run_tries .checkSlug).seq ((run_tries .echoStart).seq ((run_tries .rm).seq
      ((Block.Tries.modify fun _ => []).seq ((run_tries .mkdir).seq ((run_tries .mktemp).seq
        (Script.tries_trapExit .cleanup build_tries))))))
  exact body.congr rfl rfl fun _ => List.nil_append _

end

end WasiWheels.Index
