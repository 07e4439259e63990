import WasiWheels.Build.Staging

/-! Version bumps. Sources and wheels lie at paths that name the version; the build
directory, `out/` and `dist/` stay the same. Contents remember the versions they go back to. -/

namespace WasiWheels.Build

open Make

abbrev Origin := List String

/-- A file of the Makefile, and the version its path names. -/
abbrev Located := File × Option String

def Item.origins : Item Origin → Origin
  | .file origin => origin
  | .tree listing => listing.files.flatMap Prod.snd
  | .archive packed => packed.entries.flatMap Prod.snd

/-- The versions the Makefiles pin. -/
def Component.pinned : Component → String
  | .cffi => "2.0.0"
  | .cryptography => "48.0.0"
  | .pydanticCore => "2.47.0"
  | .regex => "2026.5.9"
  | .pyyaml => "6.0.3"
  | .duckdbPython => "1.5.3"
  | .numpy => "2.4.6"
  | .pandas => "3.0.3"

/-- Whether the path of a file names the package version. That of duckdb's core tarball names
`DUCKDB_VERSION`, which is kept equal to the version of the package. -/
def Component.versioned : Component → File → Bool
  | _, .tarball | _, .coreTarball | _, .setupPy | _, .pyproject | _, .srcDir | _, .wheel => true
  | .cffi, .patched => true
  | _, _ => false

def Component.locate (component : Component) (version : String) (file : File) : Located :=
  (file, if component.versioned file then some version else none)

/-- A rule head as make reads it with the version filled in. -/
def Component.nodeAt (component : Component) (version : String) (node : Node File) : Node Located where
  target := component.locate version node.target
  needs := node.needs.map (component.locate version)
  afters := node.afters.map (component.locate version)
  forced := node.forced
  drops := node.drops.map (component.locate version)

/-- The files whose upstream code goes into a target. -/
def Component.upstream : Component → File → List File
  | _, .setupPy | _, .pyproject => [.tarball]
  | .cffi, .extension => [.srcDir]
  | .regex, .regexObject | .regex, .regexUnicodeObject => [.srcDir]
  | .regex, .extension => [.regexObject, .regexUnicodeObject]
  | .pyyaml, .yamlC => [.srcDir]
  | .pyyaml, .extension => [.yamlC]
  | .duckdbPython, .cmakeCache => [.srcDir]
  | .duckdbPython, .extension => [.cmakeCache]
  | .cryptography, .wheel | .pydanticCore, .wheel | .numpy, .wheel | .pandas, .wheel => [.pyproject]
  | _, _ => []

def Component.originsAt (component : Component) (version : String) (disk : Disk Located (Item Origin))
    (files : List File) : Origin :=
  files.flatMap fun file => ((contentOf disk (component.locate version file)).map Item.origins).getD []

section Recipes

-- The paths of the source distribution of a version.
variable (shipped : HandZipped → String → List Path)

def HandZipped.inputsAt (wheel : HandZipped) (version : String) (disk : Disk Located (Item Origin)) : Inputs Origin where
  sources := (contentOf disk (wheel.component.locate version .srcDir)).bind Item.asTree
  extension := (contentOf disk (wheel.component.locate version .extension)).bind Item.asFile
  text := fun _ => [version]

/-- The `$(WHEEL)` recipe with the version filled in, when none of its commands fails by itself. -/
def HandZipped.packageAt (wheel : HandZipped) (version : String) (disk : Disk Located (Item Origin)) :
    Bool × List (Effect Located (Item Origin)) :=
  let staging := wheel.component.locate version .staging
  let staged := runStaging (wheel.inputsAt version disk) (fun _ => none) 0 (wheel.staging version) (treeAt disk staging)
  if staged.1 then
    match pack {} staged.2 with
    | (_, none) => (false, [.write staging (.tree staged.2)])
    | (packed, some archive) => (packed, [.write staging (.tree staged.2),
        .write (wheel.component.locate version .wheel) (.archive archive)])
  else (false, [.write staging (.tree staged.2)])

/-- The source directory, where unpacking the tarball is part of the rule. -/
def Component.unpack (component : Component) (version : String) (disk : Disk Located (Item Origin)) (target : File) :
    List (Effect Located (Item Origin)) :=
  match component.handZipped? with
  | none => []
  | some wheel =>
    if target = wheel.sourceTree then
      let origin := component.originsAt version disk [.tarball]
      [.write (component.locate version .srcDir)
        (.tree (Listing.empty.putAll ((shipped wheel version).map fun path => (path, origin))))]
    else []

/-- What a rule other than a hand-zipped wheel's writes into its target. -/
def Component.contents (component : Component) (version : String) (disk : Disk Located (Item Origin)) (target : File) :
    Item Origin :=
  if target = .tarball then .file [version] else .file (component.originsAt version disk (component.upstream target))

def Component.recipeAt (component : Component) (version : String) (node : Node File)
    (disk : Disk Located (Item Origin)) : Bool × List (Effect Located (Item Origin)) :=
  let target := component.locate version node.target
  match node.target, component.handZipped? with
  | .wheel, some wheel => wheel.packageAt version disk
  | .buildMode, _ => (true, if (disk.file target).isSome then [] else [.write target (.file [])])
  | file, _ => (true, (node.drops.map (component.locate version)).map .remove ++
      component.unpack shipped version disk file ++ [.write target (component.contents version disk file)])

def Component.ruleAt (component : Component) (version : String) (node : Node File) :
    Rule Unit Located (Item Origin) where
  toNode := component.nodeAt version node
  recipe := fun _ disk => component.recipeAt shipped version node disk

/-- `make -C <component>` under the version. -/
def Component.buildAt (component : Component) (version : String) (disk : Disk Located (Item Origin)) :
    Bool × Disk Located (Item Origin) :=
  make () (component.nodes.map (component.ruleAt shipped version)) disk

/-- Wheel files by component and version, which is what their names consist of. -/
abbrev Shelf := Component → String → Option (Item Origin)

/-- The component Makefiles' versions, their working trees, and what is in `dist/` and its SHA256SUMS. -/
structure Yard where
  version : Component → String
  disk : Component → Disk Located (Item Origin)
  dist : Shelf
  sums : Shelf

/-- `make wheels`, if it succeeds: every wheel in an `out/` replaces its namesake in `dist/`. -/
def Yard.wheels (yard : Yard) : Option Yard :=
  let built (component : Component) := component.buildAt shipped (yard.version component) (yard.disk component)
  if Component.all.all fun component => (built component).1 then
    let dist : Shelf := fun component version =>
      match contentOf (built component).2 (.wheel, some version) with
      | some item => some item
      | none => yard.dist component version
    some { yard with disk := fun component => (built component).2, dist, sums := dist }
  else none

/-- Edit the version in a component's Makefile, which only duckdb-python's rules look at. -/
def Yard.bump (yard : Yard) (component : Component) (version : String) : Yard :=
  { yard with
    version := Function.update yard.version component version
    disk := Function.update yard.disk component ((yard.disk component).write (.makefile, none) (.file [])) }

def Yard.checkout (version : Component → String) : Yard where
  version := version
  disk := fun component => Disk.checkout (component.sources.map (component.locate (version component))) fun _ => .file []
  dist := fun _ _ => none
  sums := fun _ _ => none

/-- Bumps, each followed by a `make wheels`, as long as these succeed. -/
def Yard.bumps : List (Component × String) → Yard → Option Yard
  | [], yard => some yard
  | bump :: rest, yard => ((yard.bump bump.1 bump.2).wheels shipped).bind (Yard.bumps rest)

/-- A first `make wheels` in a fresh clone, then the bumps. -/
def Yard.run (version : Component → String) (bumps : List (Component × String)) : Option Yard :=
  ((Yard.checkout version).wheels shipped).bind (Yard.bumps shipped bumps)

end Recipes

end WasiWheels.Build
