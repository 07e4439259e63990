import WasiWheels.Core.Block

/-! Shell scripts under `set -e` and `pipefail`: a command or pipeline that fails ends the
script with its status, unless something tests that status. -/

namespace WasiWheels

/-- The status of a command that failed. -/
abbrev Failure := { status : Nat // status ≠ 0 }

/-- A script over the files it changes; what it throws is the status it exits with. -/
abbrev Script (σ α : Type) := Block σ Empty Failure α

namespace Script

variable {σ κ τ α : Type}

/-- `set -e`, at a command whose status is not tested. -/
def errexit : Option Failure → Script σ Unit
  | none => pure ()
  | some failure => Block.throw failure

/-- The status of a pipeline is that of the last of its commands to fail. -/
def pipefail (statuses : List (Option Failure)) : Option Failure := statuses.foldl (fun last status => status.or last) none

def forEach (body : κ → Script σ Unit) : List κ → Script σ Unit
  | [] => pure ()
  | item :: rest => do
    body item
    forEach body rest

/-- A subshell exits alone: the shell sees its status, and the files it wrote. -/
def subshell (body : Script σ Unit) : Script σ (Option Failure) := fun state =>
  match body state with
  | (.fall _, after) => (.fall none, after)
  | (.ret result, after) => (.ret result, after)
  | (.throw failure, after) => (.fall (some failure), after)

/-- `command | while .. done`: the loop is a subshell. -/
def piped (command : Option Failure) (loop : Script σ Unit) : Script σ Unit := do
  let status ← subshell loop
  errexit (pipefail [command, status])

/-- `trap cleanup EXIT`; a cleanup that fails has the last word. -/
def trapExit : Option Failure → Script σ α → Script σ α
  | none, body => body
  | some failure, body => fun state => (.throw failure, (body state).2)

/-- The commands that fail. -/
def failing (outcome : τ → Option Failure) (command : τ) : Bool := (outcome command).isSome

variable {outcome : τ → Option Failure}

theorem failing_eq_false {command : τ} : failing outcome command = false ↔ outcome command = none :=
  Option.isSome_eq_false_iff.trans Option.isNone_iff_eq_none

theorem pipefail_from (last : Option Failure) (statuses : List (Option Failure)) :
    statuses.foldl (fun last status => status.or last) last = none ↔ last = none ∧ ∀ status ∈ statuses, status = none := by
  induction statuses generalizing last with
  | nil => simp
  | cons status rest ih =>
    rw [List.foldl_cons, ih, Option.or_eq_none_iff, List.forall_mem_cons, and_comm (a := status = none), and_assoc]

/-- A pipeline succeeds when all of its commands do. -/
theorem pipefail_none (statuses : List (Option Failure)) : pipefail statuses = none ↔ ∀ status ∈ statuses, status = none :=
  (pipefail_from none statuses).trans (and_iff_right rfl)

theorem tries_errexit {status : Option Failure} {steps : List τ}
    (decided : status = none ↔ ∀ step ∈ steps, failing outcome step = false) :
    Block.Tries (failing outcome) (errexit status : Script σ Unit) steps () id := by
  constructor
  · intro quiet state
    rw [decided.mpr quiet]
    rfl
  · rintro ⟨step, member, failed⟩ state
    cases status with
    | none =>
      rw [decided.mp rfl step member] at failed
      cases failed
    | some failure => exact ⟨failure, rfl⟩

theorem tries_command (command : τ) :
    Block.Tries (failing outcome) (errexit (outcome command) : Script σ Unit) [command] () id := by
  apply tries_errexit
  rw [List.forall_mem_singleton, failing_eq_false]

theorem tries_pipeline (commands : List τ) :
    Block.Tries (failing outcome) (errexit (pipefail (commands.map outcome)) : Script σ Unit) commands () id := by
  apply tries_errexit
  rw [pipefail_none, List.forall_mem_map]
  simp only [failing_eq_false]

/-- Under `set -e` of its own, the loop passes on its first failure as its status. -/
theorem tries_piped (command : τ) {body : Script σ Unit} {steps : List τ} {change : σ → σ}
    (tries : Block.Tries (failing outcome) body steps () change) :
    Block.Tries (failing outcome) (piped (outcome command) body) (command :: steps) () change := by
  have unfolded : ∀ state, piped (outcome command) body state =
      Block.bind (subshell body) (fun status => errexit (pipefail [outcome command, status])) state := fun _ => rfl
  constructor
  · intro quiet state
    have first := failing_eq_false.mp (quiet command List.mem_cons_self)
    have done := tries.1 (fun step member => quiet step (List.mem_cons_of_mem _ member)) state
    rw [unfolded, Block.bind, subshell, done, first]
    rfl
  · rintro ⟨step, member, failed⟩ state
    by_cases quiet : ∀ step ∈ steps, failing outcome step = false
    · have done := tries.1 quiet state
      have first : outcome command ≠ none := by
        intro succeeds
        rcases List.mem_cons.mp member with head | tail
        · rw [head, failing_eq_false.mpr succeeds] at failed
          cases failed
        · rw [quiet step tail] at failed
          cases failed
      obtain ⟨failure, fault⟩ := Option.ne_none_iff_exists'.mp first
      rw [unfolded, Block.bind, subshell, done, fault]
      exact ⟨failure, rfl⟩
    · obtain ⟨early, inside, fault⟩ : ∃ step ∈ steps, failing outcome step = true := by simpa using quiet
      obtain ⟨failure, thrown⟩ := tries.2 ⟨early, inside, fault⟩ state
      rw [unfolded, Block.bind, subshell]
      cases left : body state with
      | mk exit after =>
        rw [left] at thrown
        subst thrown
        exact ⟨failure, rfl⟩

theorem tries_forEach {body : κ → Script σ Unit} {steps : κ → List τ} {change : κ → σ → σ}
    (each : ∀ item, Block.Tries (failing outcome) (body item) (steps item) () (change item)) (items : List κ) :
    Block.Tries (failing outcome) (forEach body items) (items.flatMap steps) ()
      (fun state => items.foldl (fun state item => change item state) state) := by
  induction items with
  | nil => exact Block.Tries.pure ()
  | cons item rest ih =>
    rw [forEach]
    exact ((each item).seq ih).congr List.flatMap_cons.symm rfl fun _ => rfl

theorem tries_trapExit (command : τ) {body : Script σ α} {steps : List τ} {value : α} {change : σ → σ}
    (tries : Block.Tries (failing outcome) body steps value change) :
    Block.Tries (failing outcome) (trapExit (outcome command) body) (steps ++ [command]) value change := by
  constructor
  · intro quiet state
    have last := failing_eq_false.mp (quiet command (List.mem_append_right _ (List.mem_singleton_self command)))
    rw [last]
    exact tries.1 (fun step member => quiet step (List.mem_append_left _ member)) state
  · rintro ⟨step, member, failed⟩ state
    cases cleanup : outcome command with
    | some failure => exact ⟨failure, rfl⟩
    | none =>
      rcases List.mem_append.mp member with early | late
      · exact tries.2 ⟨step, early, failed⟩ state
      · rw [List.mem_singleton.mp late, failing_eq_false.mpr cleanup] at failed
        cases failed

end Script

end WasiWheels
