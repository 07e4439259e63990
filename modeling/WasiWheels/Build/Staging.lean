import WasiWheels.Build.Components
import WasiWheels.Build.ZipWheel

/-! The staging trees of the hand-assembled wheels: what each `$(WHEEL)` recipe puts
under `$(BUILD_DIR)/wheel` before zipping it. -/

namespace WasiWheels.Build

open Make (Disk)

/-- What a path holds: one file, a directory, or a wheel. -/
inductive Item (β : Type) where
  | file (bytes : β)
  | tree (listing : Listing Path β)
  | archive (archive : Archive β)

def Item.asTree : Item β → Option (Listing Path β)
  | .tree listing => some listing
  | _ => none

def Item.asFile : Item β → Option β
  | .file bytes => some bytes
  | _ => none

def contentOf (disk : Disk φ (Item β)) (path : φ) : Option (Item β) := (disk.file path).map Make.Entry.content

/-- A directory of the build, empty before the first `mkdir -p`. -/
def treeAt (disk : Disk φ (Item β)) (path : φ) : Listing Path β := ((contentOf disk path).bind Item.asTree).getD .empty

inductive HandZipped where
  | cffi | regex | pyyaml | duckdbPython
deriving DecidableEq, Repr

namespace HandZipped

def component : HandZipped → Component
  | .cffi => .cffi
  | .regex => .regex
  | .pyyaml => .pyyaml
  | .duckdbPython => .duckdbPython

/-- The distribution name, as the `.dist-info` directory has it. -/
def name : HandZipped → String
  | .cffi => "cffi"
  | .regex => "regex"
  | .pyyaml => "pyyaml"
  | .duckdbPython => "duckdb"

/-- The rule that unpacks the upstream sources. -/
def sourceTree : HandZipped → File
  | .duckdbPython => .patched
  | _ => .setupPy

end HandZipped

/-- The component's wheel is zipped by hand. -/
def Component.handZipped? : Component → Option HandZipped
  | .cffi => some .cffi
  | .regex => some .regex
  | .pyyaml => some .pyyaml
  | .duckdbPython => some .duckdbPython
  | _ => none

theorem Component.handZipped_iff {component : Component} {wheel : HandZipped} :
    component.handZipped? = some wheel ↔ component = wheel.component := by
  cases component <;> cases wheel <;> decide

@[simp] theorem HandZipped.handZipped_component (wheel : HandZipped) : wheel.component.handZipped? = some wheel := by
  cases wheel <;> rfl

/-- One line of a `$(WHEEL)` recipe before the zip. -/
inductive StagingLine where
  /-- `rm -rf $(BUILD_DIR)/wheel` -/
  | wipe
  | mkdir (path : Path)
  /-- `cp -r <sources>/<source>/. <into>/` -/
  | copyTree (source into : Path)
  | copySource (source as : Path)
  | copyExtension (as : Path)
  /-- `find <below> -name '__pycache__' -type d -exec rm -rf {} +` -/
  | dropBytecode (below : Path)
  | printf (text : String) (as : Path)
  /-- `mkdir -p $(OUT_DIR)` -/
  | mkdirOut

/-- `EXT_SUFFIX` -/
def extSuffix : String := ".cpython-314-wasm32-wasi.so"

def distInfo (name version : String) : String := name ++ "-" ++ version ++ ".dist-info"

/-- The minimal METADATA and WHEEL files, and the directory the wheel goes to. -/
def describe (name version metadata wheel : String) : List StagingLine :=
  [.printf metadata [distInfo name version, "METADATA"], .printf wheel [distInfo name version, "WHEEL"], .mkdirOut]

def wheelText (generator tag : String) : String :=
  "Wheel-Version: 1.0\nGenerator: " ++ generator ++ " 0.1\nRoot-Is-Purelib: false\nTag: " ++ tag ++ "\n"

def cffiStaging (version : String) : List StagingLine :=
  [.mkdir ["cffi"], .mkdir [distInfo "cffi" version],
   .copyTree ["src", "cffi"] ["cffi"],
   .copyExtension ["_cffi_backend.abi3.so"]] ++
  describe "cffi" version
    ("Metadata-Version: 2.1\nName: cffi\nVersion: " ++ version ++
      "\nSummary: cffi cross-built for wasm32-wasip2 (uses our libffi-wasi)\nRequires-Python: >=3.9\n" ++
      "License: MIT\nRequires-Dist: pycparser\n")
    (wheelText "particle-wheels-cffi" "cp314-abi3-wasi_wasm32")

def regexStaging (version : String) : List StagingLine :=
  [.wipe, .mkdir ["regex"], .mkdir [distInfo "regex" version],
   .copyTree ["regex"] ["regex"],
   .dropBytecode ["regex"],
   .copyExtension ["regex", "_regex" ++ extSuffix]] ++
  describe "regex" version
    ("Metadata-Version: 2.1\nName: regex\nVersion: " ++ version ++
      "\nSummary: regex cross-built for wasm32-wasip2 (CPython 3.14)\nRequires-Python: >=3.10\n" ++
      "License: Apache-2.0 AND CNRI-Python\n")
    (wheelText "particle-wheels-regex" "cp314-cp314-wasi_wasm32")

def pyyamlStaging (version : String) : List StagingLine :=
  [.wipe, .mkdir ["yaml"], .mkdir ["_yaml"], .mkdir [distInfo "pyyaml" version],
   .copyTree ["lib", "yaml"] ["yaml"],
   .copySource ["lib", "_yaml", "__init__.py"] ["_yaml", "__init__.py"],
   .copyExtension ["yaml", "_yaml" ++ extSuffix],
   .dropBytecode []] ++
  describe "pyyaml" version
    ("Metadata-Version: 2.1\nName: PyYAML\nVersion: " ++ version ++
      "\nSummary: YAML parser and emitter cross-built for wasm32-wasip2 (libyaml-backed)\n" ++
      "Requires-Python: >=3.10\nLicense: MIT\n")
    (wheelText "particle-wheels-pyyaml" "cp314-cp314-wasi_wasm32")

def duckdbPythonStaging (version : String) : List StagingLine :=
  [.wipe, .mkdir ["duckdb"], .mkdir [distInfo "duckdb" version],
   .copyTree ["duckdb"] ["duckdb"],
   .copyExtension ["_duckdb" ++ extSuffix],
   .dropBytecode []] ++
  describe "duckdb" version
    ("Metadata-Version: 2.1\nName: duckdb\nVersion: " ++ version ++
      "\nSummary: DuckDB analytical database, cross-built for wasm32-wasip2 (pybind11 binding; " ++
      "numpy/pandas/pyarrow optional at runtime)\nRequires-Python: >=3.10\nLicense: MIT\n")
    (wheelText "particle-wheels-duckdb" "cp314-cp314-wasi_wasm32")

def HandZipped.staging : HandZipped → String → List StagingLine
  | .cffi => cffiStaging
  | .regex => regexStaging
  | .pyyaml => pyyamlStaging
  | .duckdbPython => duckdbPythonStaging

/-- Where `cp -r` puts a file found under `source`. -/
def relocate (source into path : Path) : Option Path :=
  if source.isPrefixOf path then some (into ++ path.drop source.length) else none

def relocateAll (source into : Path) (files : List (Path × β)) : List (Path × β) :=
  files.filterMap fun file => (relocate source into file.1).map fun path => (path, file.2)

/-- Whether a file lies in a `__pycache__` directory below the given one. -/
def isBytecode (below path : Path) : Bool :=
  below.isPrefixOf path && (path.drop below.length).dropLast.contains "__pycache__"

/-- What the recipes of a component read: unpacked sources, the linked module, and the text `printf` prints. -/
structure Inputs (β : Type) where
  sources : Option (Listing Path β)
  extension : Option β
  text : String → β

/-- The staging tree after one line, unless what it copies is missing. -/
def StagingLine.run (inputs : Inputs β) (stage : Listing Path β) : StagingLine → Option (Listing Path β)
  | .wipe => some .empty
  | .mkdir _ => some stage
  | .copyTree source into => inputs.sources.map fun tree => stage.putAll (relocateAll source into tree.files)
  | .copySource source as => inputs.sources.bind fun tree =>
      (tree.files.find? fun file => file.1 = source).map fun file => stage.put (as, file.2)
  | .copyExtension as => inputs.extension.map fun bytes => stage.put (as, bytes)
  | .dropBytecode below => some (stage.keep fun path => !isBytecode below path)
  | .printf text as => some (stage.put (as, inputs.text text))
  | .mkdirOut => some stage

/-- The lines in order, up to the first that fails; `broken` tells what a failing command leaves behind. -/
def runStaging (inputs : Inputs β) (broken : Nat → Option (Listing Path β)) :
    Nat → List StagingLine → Listing Path β → Bool × Listing Path β
  | _, [], stage => (true, stage)
  | index, line :: rest, stage =>
    match broken index with
    | some left => (false, left)
    | none => match line.run inputs stage with
      | none => (false, stage)
      | some next => runStaging inputs broken (index + 1) rest next

end WasiWheels.Build
