import WasiWheels.Build.Toggling

/-! Invocations of the component Makefiles and of the root Makefile, in any order. -/

namespace WasiWheels.Build

open Make

inductive Invocation where
  /-- `make -C <component>` -/
  | subdir (component : Component) (mode : Mode)
  /-- `make <component>` at the root -/
  | target (component : Component) (mode : Mode)
  /-- `make wheels` at the root -/
  | wheels (mode : Mode)
deriving DecidableEq, Repr

namespace Invocation

/-- `DEBUG` reaches every component an invocation recurses into. -/
def mode : Invocation → Mode
  | .subdir _ mode => mode
  | .target _ mode => mode
  | .wheels mode => mode

/-- The components an invocation recurses into. -/
def builds : Invocation → List Component
  | .subdir component _ => [component]
  | .target component _ => if component = .pandas then [.numpy, .pandas] else [component]
  | .wheels _ => Component.all

def collects : Invocation → Bool
  | .wheels _ => true
  | _ => false

end Invocation

/-- The working trees of the components, and the wheels copied into `dist/`. -/
structure Tree where
  disk : Component → Disk File Steps
  dist : Component → Option Steps

def Tree.checkout : Tree where
  disk := Component.checkout
  dist := fun _ => none

/-- The components share no file, so the order among them is of no account. -/
def Tree.invoke (tree : Tree) (invocation : Invocation) : Tree :=
  let disk component :=
    if component ∈ invocation.builds then (component.build invocation.mode (tree.disk component)).2
    else tree.disk component
  { disk, dist := fun component => if invocation.collects then wheelIn (disk component) else tree.dist component }

def Tree.run (history : List Invocation) : Tree := history.foldl Tree.invoke Tree.checkout

/-- What an invocation built or collected is in the mode it asked for. -/
def Tree.Right (tree : Tree) (invocation : Invocation) : Prop :=
  (∀ component ∈ invocation.builds, BuiltIn invocation.mode (wheelIn (tree.disk component))) ∧
    (invocation.collects = true → ∀ component, BuiltIn invocation.mode (tree.dist component))

/-- Every invocation of the history leaves what it asked for. -/
def Honoured (history : List Invocation) : Prop :=
  ∀ before invocation after, history = before ++ invocation :: after →
    (Tree.run (before ++ [invocation])).Right invocation

/-- The modes in which a component was invoked, in order. -/
def modesOf (component : Component) (history : List Invocation) : List Mode :=
  (history.filter fun invocation => decide (component ∈ invocation.builds)).map Invocation.mode

theorem modesOf_append (component : Component) (before : List Invocation) (invocation : Invocation)
    (built : component ∈ invocation.builds) :
    modesOf component (before ++ [invocation]) = modesOf component before ++ [invocation.mode] := by
  simp [modesOf, built]

theorem mem_modesOf {component : Component} {history : List Invocation} {mode : Mode} :
    mode ∈ modesOf component history ↔
      ∃ invocation ∈ history, component ∈ invocation.builds ∧ invocation.mode = mode := by
  simp [modesOf, and_assoc]

theorem Tree.run_append (history : List Invocation) (invocation : Invocation) :
    Tree.run (history ++ [invocation]) = (Tree.run history).invoke invocation := by
  simp [Tree.run]

/-- Each component only sees its own invocations. -/
theorem Tree.disk_run (history : List Invocation) (component : Component) :
    (Tree.run history).disk component = component.builds (modesOf component history) := by
  induction history using List.reverseRecOn with
  | nil => rfl
  | append_singleton before invocation ih =>
    rw [Tree.run_append]
    by_cases built : component ∈ invocation.builds
    · rw [modesOf_append component before invocation built, component.builds_append, ← ih]
      simp [Tree.invoke, built]
    · have unseen : modesOf component (before ++ [invocation]) = modesOf component before := by
        simp [modesOf, built]
      rw [unseen, ← ih]
      simp [Tree.invoke, built]

/-- What an invocation collected is what it has just built. -/
theorem Tree.right_iff (before : List Invocation) (invocation : Invocation) :
    (Tree.run (before ++ [invocation])).Right invocation ↔ ∀ component ∈ invocation.builds,
      BuiltIn invocation.mode (wheelIn ((Tree.run (before ++ [invocation])).disk component)) := by
  constructor
  · exact fun right => right.1
  · intro built
    refine ⟨built, ?_⟩
    intro collects component
    have everything : component ∈ invocation.builds := by
      cases invocation with
      | wheels mode => exact component.mem_all
      | subdir component mode => cases collects
      | target component mode => cases collects
    have copied : (Tree.run (before ++ [invocation])).dist component =
        wheelIn ((Tree.run (before ++ [invocation])).disk component) := by
      simp [Tree.run_append, Tree.invoke, collects]
    rw [copied]
    exact built component everything

/-- After an invocation the wheel is in the mode of the component's first one, for cargo
components, and in the mode asked for otherwise. -/
theorem Tree.builtIn_iff (before : List Invocation) (invocation : Invocation) {component : Component}
    (built : component ∈ invocation.builds) :
    BuiltIn invocation.mode (wheelIn ((Tree.run (before ++ [invocation])).disk component)) ↔
      (component.cargo = true → (modesOf component (before ++ [invocation])).head? = some invocation.mode) := by
  rw [Tree.disk_run, modesOf_append component before invocation built]
  cases cargo : component.cargo with
  | false =>
    have holds := ((component.build_stamped cargo (modesOf component before)).2 invocation.mode).2
    simp [Component.builtIn_iff holds invocation.mode]
  | true =>
    cases modes : modesOf component before with
    | nil =>
      have holds := (component.build_cargo cargo invocation.mode []).2
      simp [Component.builtIn_iff holds invocation.mode]
    | cons first rest =>
      have holds := (component.build_cargo cargo first (rest ++ [invocation.mode])).2
      rw [List.cons_append, Component.builtIn_iff holds invocation.mode]
      simp

/-- A history is honoured exactly if each cargo component is only ever invoked in one mode. -/
theorem honoured_iff (history : List Invocation) :
    Honoured history ↔ ∀ component, component.cargo = true → ∀ invocation ∈ history, ∀ other ∈ history,
      component ∈ invocation.builds → component ∈ other.builds → invocation.mode = other.mode := by
  constructor
  · intro honoured component cargo
    have first : ∀ invocation ∈ history, component ∈ invocation.builds →
        (modesOf component history).head? = some invocation.mode := by
      intro invocation member built
      obtain ⟨before, after, split⟩ := List.append_of_mem member
      have right := ((Tree.right_iff before invocation).mp (honoured before invocation after split)) component built
      have head := (Tree.builtIn_iff before invocation built).mp right cargo
      have longer : modesOf component history =
          modesOf component (before ++ [invocation]) ++ modesOf component after := by
        rw [split, List.append_cons]
        simp only [modesOf, List.filter_append, List.map_append]
      rw [longer, List.head?_append, head]
      rfl
    intro invocation member other member' built built'
    have same := (first invocation member built).symm.trans (first other member' built')
    exact Option.some.inj same
  · intro constant before invocation after split
    apply (Tree.right_iff before invocation).mpr
    intro component built
    apply (Tree.builtIn_iff before invocation built).mpr
    intro cargo
    rw [modesOf_append component before invocation built]
    cases modes : modesOf component before with
    | nil => rfl
    | cons first rest =>
      obtain ⟨earlier, member, built', mode⟩ :=
        mem_modesOf.mp (show first ∈ modesOf component before by rw [modes]; exact List.mem_cons_self)
      have same := constant component cargo earlier (by rw [split]; exact List.mem_append_left _ member)
        invocation (by rw [split]; simp) built' built
      simp [← mode, same]

/-- A debug build of pydantic-core, then `make wheels` without DEBUG. -/
theorem debug_collected : ¬ Honoured [.subdir .pydanticCore .debug, .wheels .release] := by
  intro honoured
  have right := honoured [.subdir .pydanticCore .debug] (.wheels .release) [] rfl
  have member : Component.pydanticCore ∈ (Invocation.wheels .release).builds := Component.mem_all _
  have built := (Tree.right_iff _ _).mp right .pydanticCore member
  have first := (Tree.builtIn_iff _ _ member).mp built rfl
  revert first
  decide

end WasiWheels.Build
