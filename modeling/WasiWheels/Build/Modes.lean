import WasiWheels.Build.Components
import WasiWheels.Core.Rebuild

/-! What `DEBUG=1` changes. The content of a file is the list of modes its compile
steps ran in; upstream sources and tools have none. -/

namespace WasiWheels.Build

open Make

/-- `BUILD_MODE := $(if $(DEBUG),debug,release)` -/
inductive Mode where
  | release | debug
deriving DecidableEq, Repr

abbrev Steps := List Mode

/-- The steps behind a file, none when it is missing. -/
def held (disk : Disk File Steps) (path : File) : Steps :=
  match disk.file path with
  | none => []
  | some entry => entry.content

inductive Recipe where
  /-- Builds the target from some prerequisites, with the DEBUG flags or without. -/
  | build (flags : Bool) (parts : List File)
  /-- `[ "$$(cat $@)" = "$(BUILD_MODE)" ] || echo "$(BUILD_MODE)" > $@` -/
  | stamp
  /-- A cmake configure, which leaves a cache file that would not change alone. -/
  | configure
  /-- A meson-python build: meson reads the cross-file only at the first setup of its
  build directory, so a newer cross-file wipes that directory. -/
  | meson

/-- Whether meson has to set its build directory up: there is none, or it was wiped. -/
def mesonSetup (disk : Disk File Steps) : Bool :=
  match disk.file .mpBuildNinja with
  | none => true
  | some ninja => match disk.file .crossFile with
    | none => false
    | some cross => decide (ninja.mtime < cross.mtime)

/-- Writes the target unless it already says so. -/
def refresh (node : Node File) (mode : Mode) (disk : Disk File Steps) : List (Effect File Steps) :=
  if (disk.file node.target).map Entry.content = some [mode] then [] else [.write node.target [mode]]

def Recipe.run (node : Node File) (mode : Mode) (disk : Disk File Steps) : Recipe → List (Effect File Steps)
  | .build flags parts =>
    node.drops.map .remove ++ [.write node.target ((if flags then [mode] else []) ++ parts.flatMap (held disk))]
  | .stamp => refresh node mode disk
  | .configure => refresh node mode disk
  | .meson =>
    if mesonSetup disk then
      [.remove .mpBuildNinja, .write .mpBuildNinja (held disk .crossFile), .write node.target (held disk .crossFile)]
    else [.write node.target (held disk .mpBuildNinja)]

def cffiRecipe : File → Recipe
  | .buildMode => .stamp
  | .extension => .build true [.libffi]
  | .wheel => .build false [.extension]
  | _ => .build false []

def regexRecipe : File → Recipe
  | .buildMode => .stamp
  | .regexObject => .build true []
  | .regexUnicodeObject => .build true []
  | .extension => .build false [.regexObject, .regexUnicodeObject]
  | .wheel => .build false [.extension]
  | _ => .build false []

def pyyamlRecipe : File → Recipe
  | .buildMode => .stamp
  | .extension => .build true [.yamlC, .libyaml]
  | .wheel => .build false [.extension]
  | _ => .build false []

/-- The module's recipe reads DEBUG once more, for `wasm-metadce` and `wasm-opt`. -/
def duckdbPythonRecipe : File → Recipe
  | .buildMode => .stamp
  | .cmakeCache => .configure
  | .mmanStubObj => .build true []
  | .opnewObj => .build true []
  | .extension => .build true [.cmakeCache, .emulatedMmanObj, .mmanStubObj, .opnewObj, .libcxxabi]
  | .wheel => .build false [.extension]
  | _ => .build false []

def mesonRecipe : File → Recipe
  | .buildMode => .stamp
  | .crossFile => .build true []
  | .wheel => .meson
  | _ => .build false []

/-- maturin passes the flags on to cargo and the C shim. -/
def cargoRecipe : File → Recipe
  | .wheel => .build true []
  | _ => .build false []

def Component.recipe : Component → File → Recipe
  | .cffi => cffiRecipe
  | .cryptography => cargoRecipe
  | .pydanticCore => cargoRecipe
  | .regex => regexRecipe
  | .pyyaml => pyyamlRecipe
  | .duckdbPython => duckdbPythonRecipe
  | .numpy => mesonRecipe
  | .pandas => mesonRecipe

def Component.rule (component : Component) (node : Node File) : Rule Mode File Steps where
  toNode := node
  recipe := fun mode disk => (true, (component.recipe node.target).run node mode disk)

def Component.makefile (component : Component) : Makefile Mode File Steps where
  sources := component.sources
  scratch := scratch
  rules := component.nodes.map component.rule
  ordered := by
    rw [List.map_map, show Rule.toNode ∘ component.rule = id from rfl, List.map_id]
    exact component.ordered
  apart := by
    intro path hidden
    obtain ⟨source, targets⟩ := component.apart path hidden
    refine ⟨source, ?_⟩
    intro rule member
    obtain ⟨node, listed, same⟩ := List.mem_map.mp member
    exact same ▸ targets node listed

/-- `make -C <component>`, with `DEBUG=1` or without. -/
def Component.build (component : Component) (mode : Mode) (disk : Disk File Steps) : Bool × Disk File Steps :=
  make mode component.makefile.rules disk

def Component.checkout (component : Component) : Disk File Steps := Disk.checkout component.sources fun _ => []

/-- The wheel is there, and every compile step behind it ran in the mode. -/
def BuiltIn (mode : Mode) (wheel : Option Steps) : Prop :=
  ∃ steps, wheel = some steps ∧ steps ≠ [] ∧ ∀ step ∈ steps, step = mode

def wheelIn (disk : Disk File Steps) : Option Steps := (disk.file .wheel).map Entry.content

/-- Whether the wheel is left to cargo's own fingerprints. -/
def Component.cargo : Component → Bool
  | .cryptography | .pydanticCore => true
  | _ => false

end WasiWheels.Build
