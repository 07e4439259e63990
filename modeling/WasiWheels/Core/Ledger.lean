import Mathlib.Data.Finset.Basic
import Mathlib.Data.Finset.Insert

/-! A table of owned handles, as the side that hands them out keeps it. A trace
is lawful when no step of it makes that side refuse. -/

namespace WasiWheels

/-- What one step of a trace does with a handle. -/
inductive HandleAction (η : Type) where
  | acquire (handle : η)
  | use (handle : η)
  | release (handle : η)
  deriving DecidableEq

namespace Ledger

variable {η : Type} [DecidableEq η] {parent : η → Option η}

/-- A handle is used or released only while owned, and released only when none
of its children is owned any more. -/
def step (parent : η → Option η) (alive : Finset η) : HandleAction η → Option (Finset η)
  | .acquire handle => if handle ∈ alive then none else some (insert handle alive)
  | .use handle => if handle ∈ alive then some alive else none
  | .release handle =>
    if handle ∈ alive ∧ ∀ child ∈ alive, parent child ≠ some handle then some (alive.erase handle) else none

def run (parent : η → Option η) (alive : Finset η) : List (HandleAction η) → Option (Finset η)
  | [] => some alive
  | action :: rest => (step parent alive action).bind fun after => run parent after rest

theorem run_eq_foldlM (alive : Finset η) (actions : List (HandleAction η)) :
    run parent alive actions = actions.foldlM (step parent) alive := by
  induction actions generalizing alive with
  | nil => rfl
  | cons action rest ih =>
    rw [run, List.foldlM_cons]
    exact congrArg (step parent alive action).bind (funext ih)

theorem run_append (first second : List (HandleAction η)) (alive : Finset η) :
    run parent alive (first ++ second) = (run parent alive first).bind fun after => run parent after second := by
  induction first generalizing alive with
  | nil => rfl
  | cons action rest ih =>
    simp only [List.cons_append, run]
    cases step parent alive action with
    | none => rfl
    | some after => exact ih after

theorem run_extend {first second : List (HandleAction η)} {alive after : Finset η}
    (reached : run parent alive first = some after) :
    run parent alive (first ++ second) = run parent after second := by
  rw [run_append, reached, Option.bind_some]

/-- Every handle taken and not given back is still owned, and only those. -/
theorem run_count {actions : List (HandleAction η)} {alive after : Finset η}
    (lawful : run parent alive actions = some after) (handle : η) :
    actions.count (.release handle) + (if handle ∈ after then 1 else 0) =
      actions.count (.acquire handle) + (if handle ∈ alive then 1 else 0) := by
  induction actions generalizing alive with
  | nil =>
    obtain rfl : alive = after := Option.some.inj lawful
    rfl
  | cons action rest ih =>
    simp only [run] at lawful
    obtain ⟨next, stepped, continued⟩ := Option.bind_eq_some_iff.mp lawful
    have later := ih continued
    cases action with
    | acquire taken =>
      simp only [step] at stepped
      split at stepped
      · cases stepped
      · rename_i fresh
        obtain rfl := Option.some.inj stepped
        by_cases same : taken = handle
        · subst same
          simp_all
        · simp_all [Ne.symm same]
    | use used =>
      simp only [step] at stepped
      split at stepped
      · obtain rfl := Option.some.inj stepped
        simpa [List.count_cons] using later
      · cases stepped
    | release given =>
      simp only [step] at stepped
      split at stepped
      · rename_i owned
        obtain rfl := Option.some.inj stepped
        by_cases same : given = handle
        · subst same
          simp_all
          omega
        · simp_all [Ne.symm same]
      · cases stepped

/-- In a lawful trace a handle that is used or given back is owned at that point. -/
theorem lawful_owned {before later : List (HandleAction η)} {action : HandleAction η} {after : Finset η} {handle : η}
    (lawful : run parent ∅ (before ++ action :: later) = some after)
    (given : action = .use handle ∨ action = .release handle) :
    before.count (.acquire handle) = before.count (.release handle) + 1 := by
  rw [run_append] at lawful
  obtain ⟨alive, reached, continued⟩ := Option.bind_eq_some_iff.mp lawful
  have owned : handle ∈ alive := by
    obtain ⟨next, stepped, -⟩ := Option.bind_eq_some_iff.mp continued
    by_contra missing
    rcases given with rfl | rfl <;> simp [step, missing] at stepped
  have counted := run_count reached handle
  simpa [owned] using counted.symm

/-- In a lawful trace the children of a handle were all given back before it. -/
theorem lawful_children {before later : List (HandleAction η)} {after : Finset η} {handle child : η}
    (lawful : run parent ∅ (before ++ .release handle :: later) = some after)
    (inside : parent child = some handle) :
    before.count (.release child) = before.count (.acquire child) := by
  rw [run_append] at lawful
  obtain ⟨alive, reached, continued⟩ := Option.bind_eq_some_iff.mp lawful
  have gone : child ∉ alive := by
    intro present
    obtain ⟨next, stepped, -⟩ := Option.bind_eq_some_iff.mp continued
    simp only [step] at stepped
    split at stepped
    · rename_i free
      exact free.2 child present inside
    · cases stepped
  have counted := run_count reached child
  simpa [gone] using counted

end Ledger

end WasiWheels
