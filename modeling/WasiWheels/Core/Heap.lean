import Mathlib.Data.Multiset.AddSub

/-! A heap of buffers, as the allocator keeps it. A trace is refused at the first free of
something that is not allocated. -/

namespace WasiWheels

/-- What one step of a trace does with the heap. -/
inductive HeapAction (β : Type) where
  | alloc (buffer : β)
  | free (buffer : β)
  /-- A free through a pointer nobody set. -/
  | freeWild

namespace Heap

variable {β : Type} [DecidableEq β]

def step (live : Multiset β) : HeapAction β → Option (Multiset β)
  | .alloc buffer => some (buffer ::ₘ live)
  | .free buffer => if buffer ∈ live then some (live.erase buffer) else none
  | .freeWild => none

def run (live : Multiset β) : List (HeapAction β) → Option (Multiset β)
  | [] => some live
  | action :: rest => (step live action).bind fun after => run after rest

theorem run_eq_foldlM (live : Multiset β) (actions : List (HeapAction β)) :
    run live actions = actions.foldlM step live := by
  induction actions generalizing live with
  | nil => rfl
  | cons action rest ih =>
    rw [run, List.foldlM_cons]
    exact congrArg (step live action).bind (funext ih)

theorem run_append (first second : List (HeapAction β)) (live : Multiset β) :
    run live (first ++ second) = (run live first).bind fun after => run after second := by
  induction first generalizing live with
  | nil => rfl
  | cons action rest ih =>
    simp only [List.cons_append, run]
    cases step live action with
    | none => rfl
    | some after => exact ih after

theorem run_allocs (live : Multiset β) (buffers : List β) : run live (buffers.map .alloc) = some (↑buffers + live) := by
  induction buffers generalizing live with
  | nil => simp [run]
  | cons buffer rest ih =>
    rw [List.map_cons, run, step, Option.bind_some, ih, ← Multiset.cons_coe, Multiset.add_cons, Multiset.cons_add]

theorem run_frees (live : Multiset β) (buffers : List β) :
    run ((buffers : Multiset β) + live) (buffers.map .free) = some live := by
  induction buffers with
  | nil => simp [run]
  | cons buffer rest ih =>
    rw [← Multiset.cons_coe, Multiset.cons_add, List.map_cons, run, step, if_pos (Multiset.mem_cons_self _ _),
      Multiset.erase_cons_head, Option.bind_some, ih]

/-- The steps leave every heap as they find it. -/
def Neutral (actions : List (HeapAction β)) : Prop := ∀ live, run live actions = some live

/-- The steps leave one buffer behind. -/
def Leaves (buffer : β) (actions : List (HeapAction β)) : Prop := ∀ live, run live actions = some (buffer ::ₘ live)

theorem Neutral.nil : Neutral ([] : List (HeapAction β)) := fun _ => rfl

theorem Neutral.append {first second : List (HeapAction β)} (before : Neutral first) (after : Neutral second) :
    Neutral (first ++ second) := by
  intro live
  rw [run_append, before, Option.bind_some, after]

theorem Neutral.leaves {buffer : β} {first second : List (HeapAction β)} (before : Neutral first)
    (after : Leaves buffer second) : Leaves buffer (first ++ second) := by
  intro live
  rw [run_append, before, Option.bind_some, after]

/-- Whatever is allocated first is freed at last. -/
theorem Neutral.enclosed (buffers : List β) {inner : List (HeapAction β)} (neutral : Neutral inner) :
    Neutral (buffers.map .alloc ++ inner ++ buffers.map .free) := by
  intro live
  rw [run_append, run_append, run_allocs, Option.bind_some, neutral, Option.bind_some, run_frees]

end Heap

end WasiWheels
