import Mathlib.Data.List.Basic
import WasiWheels.Core.Make

/-! The wheel components and the rule heads of their Makefiles, each in the order
make visits them. Phony prerequisites are order-only there and decide nothing. -/

namespace WasiWheels.Build

open Make (Node)

inductive Component where
  | cffi | cryptography | pydanticCore | regex | pyyaml | duckdbPython | numpy | pandas
deriving DecidableEq, Repr

/-- The prerequisites of `$(DIST_DIR)/.collected`. -/
def Component.all : List Component :=
  [.cffi, .cryptography, .pydanticCore, .regex, .pyyaml, .duckdbPython, .numpy, .pandas]

theorem Component.mem_all (component : Component) : component ∈ Component.all := by
  cases component <;> decide

/-- The files a component's Makefile names. -/
inductive File where
  | makefile | tarball | setupPy | pyproject | srcDir | patches | patched | buildMode | extension | staging | wheel
  | fileEmulator | libffi
  | regexObject | regexUnicodeObject
  | cython | yamlC | libyamlTarball | libyamlConfigure | libyaml
  | hostPython | maturin | bindgen | pyo3Config | crossFile | mpBuildNinja
  | awsLcTarball | awsLcPatches | awsLcCMakeLists | awsLcLibcrypto
  | cmakeTarball | cmake | cmakeCache | binaryenTarball | wasmOpt | wasmExportsGraph
  | coreTarball | corePatches | inetTarball | inetCMakeLists | excelTarball | excelCMakeLists
  | expatTarball | expatCMakeLists | libexpat | minizipTarball | minizipCMakeLists | libminizip
  | httpfsTarball | httpfsPatches | httpfsWasiSrcs | httpfsPrepared
  | emulatedMmanArchive | emulatedMmanObj | mmanStubSrc | mmanStubObj | opnewSrc | opnewObj
  | cxxEhPicBuild | libcxxabi
deriving DecidableEq, Repr

/-- Files under version control or shipped with the SDK. -/
def Component.sources : Component → List File
  | .cffi => [.fileEmulator]
  | .cryptography => [.patches, .awsLcPatches, .pyo3Config]
  | .pydanticCore => [.pyo3Config]
  | .regex => []
  | .pyyaml => []
  | .duckdbPython => [.makefile, .corePatches, .httpfsPatches, .httpfsWasiSrcs, .emulatedMmanArchive, .mmanStubSrc,
      .opnewSrc, .cxxEhPicBuild, .wasmExportsGraph]
  | .numpy => [.patches]
  | .pandas => [.patches]

/-- `$(BUILD_MODE_STAMP): FORCE` -/
def stampNode : Node File := { target := .buildMode, needs := [], forced := true }

def cffiNodes : List (Node File) :=
  [{ target := .tarball, needs := [] },
   { target := .setupPy, needs := [], afters := [.tarball] },
   { target := .patched, needs := [.setupPy, .fileEmulator] },
   { target := .libffi, needs := [] },
   stampNode,
   { target := .extension, needs := [.patched, .libffi, .buildMode] },
   { target := .wheel, needs := [.extension, .setupPy] }]

def regexNodes : List (Node File) :=
  [{ target := .tarball, needs := [] },
   { target := .setupPy, needs := [], afters := [.tarball] },
   stampNode,
   { target := .regexObject, needs := [.setupPy, .buildMode] },
   { target := .regexUnicodeObject, needs := [.setupPy, .buildMode] },
   { target := .extension, needs := [.regexObject, .regexUnicodeObject] },
   { target := .wheel, needs := [.extension, .setupPy] }]

def pyyamlNodes : List (Node File) :=
  [{ target := .tarball, needs := [] },
   { target := .setupPy, needs := [], afters := [.tarball] },
   { target := .cython, needs := [] },
   { target := .yamlC, needs := [.setupPy, .cython] },
   { target := .libyamlTarball, needs := [] },
   { target := .libyamlConfigure, needs := [], afters := [.libyamlTarball] },
   { target := .libyaml, needs := [.libyamlConfigure] },
   stampNode,
   { target := .extension, needs := [.yamlC, .libyaml, .buildMode] },
   { target := .wheel, needs := [.extension] }]

def duckdbPythonNodes : List (Node File) :=
  [{ target := .tarball, needs := [] },
   { target := .coreTarball, needs := [] },
   { target := .patched, needs := [.tarball, .coreTarball, .corePatches], drops := [.cmakeCache] },
   { target := .inetTarball, needs := [] },
   { target := .inetCMakeLists, needs := [.inetTarball] },
   { target := .excelTarball, needs := [] },
   { target := .excelCMakeLists, needs := [.excelTarball] },
   { target := .expatTarball, needs := [] },
   { target := .expatCMakeLists, needs := [.expatTarball] },
   { target := .cmakeTarball, needs := [] },
   { target := .cmake, needs := [], afters := [.cmakeTarball] },
   { target := .libexpat, needs := [.expatCMakeLists], afters := [.cmake] },
   { target := .minizipTarball, needs := [] },
   { target := .minizipCMakeLists, needs := [.minizipTarball] },
   { target := .libminizip, needs := [.minizipCMakeLists], afters := [.cmake] },
   { target := .httpfsTarball, needs := [] },
   { target := .httpfsPrepared, needs := [.httpfsTarball, .httpfsPatches, .httpfsWasiSrcs] },
   { target := .hostPython, needs := [] },
   stampNode,
   { target := .cmakeCache
     needs := [.patched, .inetCMakeLists, .excelCMakeLists, .libexpat, .libminizip, .httpfsPrepared, .cmake,
       .hostPython, .buildMode, .makefile] },
   { target := .emulatedMmanObj, needs := [.emulatedMmanArchive] },
   { target := .mmanStubObj, needs := [.mmanStubSrc, .buildMode], afters := [.cmake] },
   { target := .opnewObj, needs := [.opnewSrc, .buildMode], afters := [.cmake] },
   { target := .libcxxabi, needs := [.cxxEhPicBuild], afters := [.cmake] },
   { target := .binaryenTarball, needs := [] },
   { target := .wasmOpt, needs := [], afters := [.binaryenTarball] },
   { target := .extension
     needs := [.cmakeCache, .emulatedMmanObj, .mmanStubObj, .opnewObj, .libcxxabi, .wasmOpt, .wasmExportsGraph] },
   { target := .wheel, needs := [.extension] }]

/-- numpy and pandas configure meson through a generated cross-file. -/
def mesonNodes : List (Node File) :=
  [{ target := .hostPython, needs := [] },
   stampNode,
   { target := .tarball, needs := [] },
   { target := .pyproject, needs := [.tarball] },
   { target := .patched, needs := [.pyproject, .patches] },
   { target := .crossFile, needs := [.hostPython, .buildMode], afters := [.patched] },
   { target := .wheel, needs := [.crossFile] }]

def cryptographyNodes : List (Node File) :=
  [{ target := .tarball, needs := [] },
   { target := .pyproject, needs := [.tarball] },
   { target := .patched, needs := [.pyproject, .patches] },
   { target := .awsLcTarball, needs := [] },
   { target := .awsLcCMakeLists, needs := [.awsLcTarball, .awsLcPatches] },
   { target := .cmakeTarball, needs := [] },
   { target := .cmake, needs := [], afters := [.cmakeTarball] },
   { target := .awsLcLibcrypto, needs := [], afters := [.awsLcCMakeLists, .cmake] },
   { target := .maturin, needs := [] },
   { target := .bindgen, needs := [] },
   { target := .hostPython, needs := [] },
   { target := .wheel, needs := [.patched, .awsLcLibcrypto, .maturin, .bindgen, .hostPython, .pyo3Config] }]

def pydanticCoreNodes : List (Node File) :=
  [{ target := .tarball, needs := [] },
   { target := .pyproject, needs := [.tarball] },
   { target := .maturin, needs := [] },
   { target := .hostPython, needs := [] },
   { target := .wheel, needs := [.pyproject, .maturin, .hostPython, .pyo3Config] }]

def Component.nodes : Component → List (Node File)
  | .cffi => cffiNodes
  | .cryptography => cryptographyNodes
  | .pydanticCore => pydanticCoreNodes
  | .regex => regexNodes
  | .pyyaml => pyyamlNodes
  | .duckdbPython => duckdbPythonNodes
  | .numpy => mesonNodes
  | .pandas => mesonNodes

/-- What recipes keep to themselves: unpacked sources, the staging tree, and meson's build directory. -/
def scratch : List File := [.srcDir, .staging, .mpBuildNinja]

theorem Component.ordered (component : Component) : Make.Ordered component.sources component.nodes := by
  cases component <;> decide

theorem Component.apart (component : Component) :
    ∀ path ∈ scratch, path ∉ component.sources ∧ ∀ node ∈ component.nodes, path ≠ node.target := by
  cases component <;> decide

theorem Component.wheel_last (component : Component) : ∃ before node, component.nodes = before ++ [node] ∧
    node.target = .wheel := by
  cases component <;> exact ⟨_, _, (List.dropLast_append_getLast (by decide)).symm, by decide⟩

theorem Component.wheel_mem (component : Component) : ∃ node ∈ component.nodes, node.target = .wheel := by
  obtain ⟨before, node, split, own⟩ := component.wheel_last
  exact ⟨node, by simp [split], own⟩

end WasiWheels.Build
