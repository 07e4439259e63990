import WasiWheels.Build.Modes
import Mathlib.Algebra.GroupWithZero.Nat
import Mathlib.Data.List.Induction

/-! Any sequence of release and debug invocations. The components with a mode stamp
always end in the mode asked for; the cargo components keep their first mode. -/

namespace WasiWheels.Build

open Make

/-- The number of compile steps behind a file. -/
def Component.steps : Component → File → Nat
  | .cffi, .extension | .cffi, .wheel => 1
  | .regex, .regexObject | .regex, .regexUnicodeObject => 1
  | .regex, .extension | .regex, .wheel => 2
  | .pyyaml, .extension | .pyyaml, .wheel => 1
  | .duckdbPython, .cmakeCache | .duckdbPython, .mmanStubObj | .duckdbPython, .opnewObj => 1
  | .duckdbPython, .extension | .duckdbPython, .wheel => 4
  | .numpy, .crossFile | .numpy, .wheel | .pandas, .crossFile | .pandas, .wheel => 1
  | .cryptography, .wheel | .pydanticCore, .wheel => 1
  | .cryptography, _ | .pydanticCore, _ => 0
  | _, .buildMode => 1
  | _, _ => 0

/-- What a clean build in the mode puts into the file. -/
def Component.value (component : Component) (mode : Mode) (path : File) : Steps :=
  List.replicate (component.steps path) mode

/-- A meson build directory no older than the cross-file was set up from it. -/
def MesonCurrent (disk : Disk File Steps) : Prop :=
  ∀ ninja cross, disk.file .mpBuildNinja = some ninja → disk.file .crossFile = some cross →
    cross.mtime ≤ ninja.mtime → ninja.content = cross.content

/-- A recipe that reads declared prerequisites only and accounts for every step of its target. -/
def Recipe.Fits (steps : File → Nat) (node : Node File) : Recipe → Prop
  | .build flags parts => (∀ part ∈ parts, part ∈ node.needs ++ node.afters) ∧
      steps node.target = (if flags then 1 else 0) + (parts.map steps).sum
  | .stamp => steps node.target = 1
  | .configure => steps node.target = 1
  | .meson => .crossFile ∈ node.needs ∧ node.target ≠ .crossFile ∧ steps node.target = steps .crossFile

instance (steps : File → Nat) (node : Node File) : (recipe : Recipe) → Decidable (recipe.Fits steps node)
  | .build _ _ => inferInstanceAs (Decidable (_ ∧ _))
  | .stamp => inferInstanceAs (Decidable (_ = _))
  | .configure => inferInstanceAs (Decidable (_ = _))
  | .meson => inferInstanceAs (Decidable (_ ∧ _ ∧ _))

theorem Component.fits (component : Component) :
    ∀ node ∈ component.nodes, node.target ∉ scratch ∧ (component.recipe node.target).Fits component.steps node := by
  cases component <;> decide

/-- Every rule whose target depends on the mode has the stamp, or something built under it, as a prerequisite. -/
theorem Component.stamped (component : Component) (stamped : component.cargo = false) :
    ∀ node ∈ component.nodes, node.forced = true ∨ component.steps node.target = 0 ∨
      ∃ need ∈ node.needs, component.steps need ≠ 0 := by
  cases component <;> revert stamped <;> decide

theorem held_of_holds {component : Component} {disk : Disk File Steps} {mode : Mode} {path : File}
    (holds : Holds component.value disk mode path) : held disk path = component.value mode path := by
  obtain ⟨entry, found, content⟩ := holds
  simp [held, found, content]

theorem flatMap_replicate (steps : File → Nat) (mode : Mode) (parts : List File) :
    parts.flatMap (fun part => List.replicate (steps part) mode) = List.replicate (parts.map steps).sum mode := by
  induction parts with
  | nil => rfl
  | cons part rest ih =>
    rw [List.flatMap_cons, ih, List.map_cons, List.sum_cons, List.replicate_append_replicate]

/-- A recipe that leaves meson's directory alone can only put the cross-file ahead of it. -/
theorem MesonCurrent.apply {disk : Disk File Steps} (current : MesonCurrent disk) (effects : List (Effect File Steps))
    (unwritten : ∀ content, Effect.write .mpBuildNinja content ∉ effects) : MesonCurrent (disk.apply effects) := by
  intro ninja cross foundNinja foundCross later
  rcases disk.apply_unwritten effects unwritten with kept | gone
  · rw [kept] at foundNinja
    rcases disk.apply_cases effects .crossFile with same | lost | ⟨content, mtime, _, ahead, rewritten⟩
    · exact current ninja cross foundNinja (same ▸ foundCross) later
    · simp [lost] at foundCross
    · have behind := disk.dated _ _ foundNinja
      rw [rewritten, Option.some.injEq] at foundCross
      subst foundCross
      exact absurd later (by simp only [Nat.not_le]; omega)
  · simp [gone] at foundNinja

theorem meson_contents {disk : Disk File Steps} (current : MesonCurrent disk) (steps : Steps)
    (cross : ∃ entry, disk.file .crossFile = some entry ∧ entry.content = steps)
    (kept : mesonSetup disk = false) : held disk .mpBuildNinja = steps := by
  obtain ⟨entry, found, content⟩ := cross
  unfold mesonSetup at kept
  cases read : disk.file .mpBuildNinja with
  | none => simp [read] at kept
  | some ninja =>
    simp only [read, found, decide_eq_false_iff_not, Nat.not_lt] at kept
    simp [held, read, current ninja entry read found kept, content]

theorem refresh_cases (node : Node File) (mode : Mode) (disk : Disk File Steps) :
    refresh node mode disk = [.write node.target [mode]] ∨
      (refresh node mode disk = [] ∧ ∃ entry, disk.file node.target = some entry ∧ entry.content = [mode]) := by
  unfold refresh
  split
  · rename_i same
    exact Or.inr ⟨rfl, by simpa using same⟩
  · exact Or.inl rfl

namespace Recipe

variable {node : Node File} {mode : Mode} {disk : Disk File Steps} {recipe : Recipe}

/-- A recipe writes its target; a meson recipe also writes its build directory, from the cross-file. -/
theorem run_writes {path : File} {content : Steps} (member : Effect.write path content ∈ recipe.run node mode disk) :
    path = node.target ∨ (recipe = .meson ∧ path = .mpBuildNinja) := by
  have refreshed : Effect.write path content ∈ refresh node mode disk → path = node.target := by
    intro among
    rcases refresh_cases node mode disk with writes | ⟨nothing, _⟩
    · rw [writes] at among
      simp only [List.mem_singleton, Effect.write.injEq] at among
      exact among.1
    · simp [nothing] at among
  cases recipe with
  | build flags parts =>
    simp only [run, List.mem_append, List.mem_map, reduceCtorEq, and_false, exists_false, List.mem_singleton,
      Effect.write.injEq, false_or] at member
    exact Or.inl member.1
  | stamp => exact Or.inl (refreshed member)
  | configure => exact Or.inl (refreshed member)
  | meson =>
    simp only [run] at member
    split at member
    · simp only [List.mem_cons, reduceCtorEq, Effect.write.injEq, List.not_mem_nil, or_false, false_or] at member
      rcases member with ⟨ninja, _⟩ | ⟨target, _⟩
      · exact Or.inr ⟨rfl, ninja⟩
      · exact Or.inl target
    · simp only [List.mem_singleton, Effect.write.injEq] at member
      exact Or.inl member.1

theorem run_removes {path : File} (member : Effect.remove path ∈ recipe.run node mode disk) :
    path ∈ node.drops ∨ path = .mpBuildNinja := by
  have refreshed : Effect.remove path ∉ refresh node mode disk := by
    rcases refresh_cases node mode disk with writes | ⟨nothing, _⟩
    · simp [writes]
    · simp [nothing]
  cases recipe with
  | build flags parts =>
    simp only [run, List.mem_append, List.mem_map, Effect.remove.injEq, exists_eq_right, List.mem_singleton,
      reduceCtorEq, or_false] at member
    exact Or.inl member
  | stamp => exact absurd member refreshed
  | configure => exact absurd member refreshed
  | meson =>
    simp only [run] at member
    split at member
    · simp only [List.mem_cons, Effect.remove.injEq, reduceCtorEq, List.not_mem_nil, or_false] at member
      exact Or.inr member
    · simp at member

/-- Only a meson recipe writes meson's directory, and then it sets it up from the cross-file. -/
theorem run_keeps {steps : File → Nat} (fits : recipe.Fits steps node) (open_ : node.target ∉ scratch)
    (current : MesonCurrent disk) : MesonCurrent (disk.apply (recipe.run node mode disk)) := by
  have private_ : node.target ≠ .mpBuildNinja := fun same => open_ (by simp [same, scratch])
  by_cases setsUp : recipe = .meson ∧ mesonSetup disk = true
  · obtain ⟨kind, wiped⟩ := setsUp
    subst kind
    rw [run, if_pos wiped]
    intro ninja cross foundNinja foundCross _
    simp only [Disk.apply_cons, Disk.apply_nil, Disk.perform] at foundNinja foundCross
    rw [Disk.write_other _ _ (Ne.symm private_), Disk.write_same, Option.some.injEq] at foundNinja
    rw [Disk.write_other _ _ (Ne.symm fits.2.1), Disk.write_other _ _ (by decide),
      Disk.remove_other _ (by decide)] at foundCross
    simp [← foundNinja, held, foundCross]
  · apply current.apply
    intro content member
    rcases run_writes member with same | ⟨kind, _⟩
    · exact private_ same.symm
    · have kept : ¬ mesonSetup disk = true := fun wiped => setsUp ⟨kind, wiped⟩
      subst kind
      rw [run, if_neg kept] at member
      simp only [List.mem_singleton, Effect.write.injEq] at member
      exact private_ member.1.symm

end Recipe

theorem apply_last (disk : Disk File Steps) (effects : List (Effect File Steps)) (path : File) (content : Steps) :
    ∃ entry, (disk.apply (effects ++ [.write path content])).file path = some entry ∧ entry.content = content := by
  rw [Disk.apply, List.foldl_append]
  exact ⟨⟨content, _⟩, Disk.write_same _ path content, rfl⟩

/-- With right prerequisites a recipe delivers what a clean build would. -/
theorem Component.makes (component : Component) {node : Node File} (member : node ∈ component.nodes) (mode : Mode)
    (disk : Disk File Steps) (current : MesonCurrent disk)
    (ready : ∀ path ∈ node.needs ++ node.afters, Holds component.value disk mode path) :
    Holds component.value (disk.apply ((component.recipe node.target).run node mode disk)) mode node.target := by
  obtain ⟨_, fits⟩ := component.fits node member
  have refreshed (one : component.steps node.target = 1) :
      Holds component.value (disk.apply (refresh node mode disk)) mode node.target := by
    have value : component.value mode node.target = [mode] := by simp [Component.value, one]
    rcases refresh_cases node mode disk with writes | ⟨nothing, entry, found, content⟩
    · rw [writes]
      exact ⟨_, Disk.write_same disk node.target [mode], value.symm⟩
    · rw [nothing]
      exact ⟨entry, found, content.trans value.symm⟩
  cases kind : component.recipe node.target with
  | build flags parts =>
    rw [kind] at fits
    obtain ⟨declared, total⟩ := fits
    have read : parts.flatMap (held disk) = List.replicate (parts.map component.steps).sum mode := by
      rw [← flatMap_replicate, List.flatMap, List.flatMap]
      congr 1
      apply List.map_congr_left
      intro part used
      exact held_of_holds (ready part (declared part used))
    obtain ⟨entry, found, content⟩ := apply_last disk (node.drops.map .remove) node.target
      ((if flags then [mode] else []) ++ parts.flatMap (held disk))
    refine ⟨entry, found, ?_⟩
    rw [content, read, Component.value, total]
    cases flags with
    | false => simp
    | true => simp [Nat.add_comm 1, List.replicate_succ]
  | stamp =>
    rw [kind] at fits
    exact refreshed fits
  | configure =>
    rw [kind] at fits
    exact refreshed fits
  | meson =>
    rw [kind] at fits
    obtain ⟨needed, apart, same⟩ := fits
    have cross := ready .crossFile (List.mem_append_left _ needed)
    have contents := held_of_holds cross
    simp only [Recipe.run]
    split
    · obtain ⟨entry, found, content⟩ := apply_last disk
        [.remove .mpBuildNinja, .write .mpBuildNinja (held disk .crossFile)] node.target (held disk .crossFile)
      exact ⟨entry, found, by rw [content, contents, Component.value, Component.value, same]⟩
    · rename_i kept
      have ninja := meson_contents current (component.value mode .crossFile) cross (by simpa using kept)
      obtain ⟨entry, found, content⟩ := apply_last disk [] node.target (held disk .mpBuildNinja)
      exact ⟨entry, found, by rw [content, ninja, Component.value, Component.value, same]⟩

theorem Component.sound (component : Component) {scope : Mode → Prop}
    (tracked : component.cargo = false ∨ ∀ mode mode', scope mode → scope mode' → mode = mode') :
    ∀ rule ∈ component.makefile.rules, rule.Sound component.value scope MesonCurrent component.makefile.scratch := by
  intro rule member
  obtain ⟨node, listed, same⟩ := List.mem_map.mp member
  subst same
  obtain ⟨open_, fits⟩ := component.fits node listed
  have hidden : File.mpBuildNinja ∈ scratch := by decide
  refine { succeeds := fun _ _ => rfl, keeps := ?_, makes := ?_, writes := ?_, removes := ?_, tracks := ?_ }
  · exact fun mode disk _ current => Recipe.run_keeps fits open_ current
  · exact fun mode disk _ current ready => component.makes listed mode disk current ready
  · intro mode disk path content written
    rcases Recipe.run_writes written with target | ⟨_, ninja⟩
    · exact Or.inl target
    · exact Or.inr (ninja ▸ hidden)
  · intro mode disk path removed
    rcases Recipe.run_removes removed with dropped | ninja
    · exact Or.inl dropped
    · exact Or.inr (ninja ▸ hidden)
  · rcases tracked with stamped | alone
    · rcases component.stamped stamped node listed with forced | free | ⟨need, used, marked⟩
      · exact Or.inl forced
      · right
        intro mode mode' _ _ _
        simp [Component.rule, Component.value, free]
      · right
        intro mode mode' _ _ agree
        have same := agree need used
        rw [Component.value, Component.value, List.replicate_inj] at same
        rcases same.2 with none | equal
        · exact absurd none marked
        · rw [equal]
    · right
      intro mode mode' inScope inScope' _
      rw [alone mode mode' inScope inScope']

/-- A checkout is a steady state: nothing is built, so nothing is up to date. -/
theorem Component.checkout_steady (component : Component) (scope : Mode → Prop) :
    Steady component.value scope MesonCurrent component.makefile component.checkout := by
  have sourceless : ∀ path ∈ component.sources, component.steps path = 0 := by cases component <;> decide
  refine { kept := ?_, grounded := ?_, consistent := ?_ }
  · intro ninja cross foundNinja
    have absent := (component.apart .mpBuildNinja (by decide)).1
    simp [Component.checkout, Disk.checkout, absent] at foundNinja
  · intro mode _ path source
    have source : path ∈ component.sources := source
    exact ⟨⟨[], 0⟩, by simp [Component.checkout, Disk.checkout, source],
      by simp [Component.value, sourceless path source]⟩
  · intro rule member current
    obtain ⟨_, made, found, _⟩ := (Node.current_iff _ _).mp current
    have target : rule.target ∉ component.sources :=
      component.makefile.ordered.fresh rule.toNode (List.mem_map_of_mem member)
    simp [Component.checkout, Disk.checkout, target] at found

/-- The disk after a sequence of invocations, whatever their modes. -/
def Component.builds (component : Component) (modes : List Mode) : Disk File Steps :=
  modes.foldl (fun disk mode => (component.build mode disk).2) component.checkout

theorem Component.builds_append (component : Component) (modes : List Mode) (mode : Mode) :
    component.builds (modes ++ [mode]) = (component.build mode (component.builds modes)).2 := by
  rw [builds, List.foldl_append]
  rfl

theorem Component.wheel_held {component : Component} {mode : Mode} {disk : Disk File Steps}
    (targets : ∀ rule ∈ component.makefile.rules, Holds component.value disk mode rule.target) :
    Holds component.value disk mode .wheel := by
  obtain ⟨node, member, same⟩ := component.wheel_mem
  exact same ▸ targets (component.rule node) (List.mem_map_of_mem member)

/-- A component with a mode stamp stays steady under every mode, and follows each. -/
theorem Component.build_stamped (component : Component) (stamped : component.cargo = false) (modes : List Mode) :
    Steady component.value (fun _ => True) MesonCurrent component.makefile (component.builds modes) ∧
      ∀ last, (component.build last (component.builds modes)).1 = true ∧
        Holds component.value (component.builds (modes ++ [last])) last .wheel := by
  have step (disk : Disk File Steps) (mode : Mode)
      (steady : Steady component.value (fun _ => True) MesonCurrent component.makefile disk) :=
    @Makefile.make_steady _ _ _ _ _ _ _ _ (component.sound (Or.inl stamped)) mode trivial _ steady
  have kept : Steady component.value (fun _ => True) MesonCurrent component.makefile (component.builds modes) := by
    induction modes using List.reverseRecOn with
    | nil => exact component.checkout_steady _
    | append_singleton before mode ih =>
      rw [component.builds_append]
      exact (step _ mode ih).2.1
  refine ⟨kept, ?_⟩
  intro last
  obtain ⟨success, _, targets⟩ := step _ last kept
  rw [component.builds_append]
  exact ⟨success, wheel_held targets⟩

theorem cargoRecipe_eq (path : File) : cargoRecipe path = .build (decide (path = .wheel)) [] := by
  cases path <;> rfl

/-- Nothing in a cargo component's Makefile is forced, and every recipe just makes its target. -/
theorem Component.cargo_plain (component : Component) (cargo : component.cargo = true) :
    ∀ rule ∈ component.makefile.rules, rule.Plain := by
  intro rule member
  obtain ⟨node, listed, same⟩ := List.mem_map.mp member
  subst same
  have head : ∀ node ∈ component.nodes, node.forced = false ∧ node.drops = [] := by
    cases component <;> revert cargo <;> decide
  have recipe : component.recipe node.target = cargoRecipe node.target := by
    cases component <;> first | rfl | cases cargo
  obtain ⟨unforced, clears⟩ := head node listed
  refine ⟨unforced, ?_⟩
  intro mode disk
  simp [Component.rule, recipe, cargoRecipe_eq, Recipe.run, clears]

/-- A cargo component is built once; no later invocation runs a recipe again. -/
theorem Component.build_cargo (component : Component) (cargo : component.cargo = true) (first : Mode)
    (rest : List Mode) :
    (∀ mode, component.build mode (component.builds (first :: rest)) = (true, component.builds (first :: rest))) ∧
      Holds component.value (component.builds (first :: rest)) first .wheel := by
  have alone : ∀ mode mode', mode = first → mode' = first → mode = mode' := fun _ _ same same' => same.trans same'.symm
  have built := Makefile.make_steady (component.sound (Or.inr alone)) rfl (component.checkout_steady (· = first))
  have settled := make_settles first component.makefile.rules component.sources component.checkout
    (component.cargo_plain cargo) component.makefile.ordered
    (fun path source => by simp [Component.checkout, Disk.checkout, source])
  have idle (mode : Mode) : component.build mode (component.build first component.checkout).2 =
      (true, (component.build first component.checkout).2) := make_current mode _ _ settled.2.1
  have same : component.builds (first :: rest) = (component.build first component.checkout).2 := by
    induction rest using List.reverseRecOn with
    | nil => rfl
    | append_singleton before mode ih =>
      rw [← List.cons_append, component.builds_append, ih, idle]
  rw [same]
  exact ⟨idle, wheel_held built.2.2⟩

/-- A wheel that holds the value of one mode is built in that mode and no other. -/
theorem Component.builtIn_iff {component : Component} {disk : Disk File Steps} {mode : Mode}
    (holds : Holds component.value disk mode .wheel) (asked : Mode) :
    BuiltIn asked (wheelIn disk) ↔ mode = asked := by
  obtain ⟨entry, found, content⟩ := holds
  have some_ : component.steps .wheel ≠ 0 := by cases component <;> decide
  have wheel : wheelIn disk = some (List.replicate (component.steps .wheel) mode) := by
    simp [wheelIn, found, content, Component.value]
  constructor
  · rintro ⟨steps, read, _, all⟩
    rw [wheel, Option.some.injEq] at read
    exact all mode (read ▸ List.mem_replicate.mpr ⟨some_, rfl⟩)
  · intro same
    subst same
    refine ⟨_, wheel, ?_, fun step member => List.eq_of_mem_replicate member⟩
    simpa using some_

end WasiWheels.Build
