import WasiWheels.Transport.Transcript
import WasiWheels.Core.Heap

/-! What the host allocates for each call of a run, and which stretches of a transcript
free all of it. -/

namespace WasiWheels.Transport

variable {H : Type}

/-- What the host allocates to answer a call. -/
def Call.allocates : Call → List Buffer
  | .outgoingHandlerHandle (some code) | .outgoingBodyFinish (some code) => code.buffers
  | .futureGet (some (.ok (.error code))) => code.buffers
  | .fieldsEntries entries => entriesBuffers entries
  | .blockingRead _ (.ok chunk) => chunkBuffers chunk
  | .errorToDebugString debug => textBuffers debug
  | _ => []

def Call.heapActions : Call → List (HeapAction Buffer)
  | .free buffer => [.free buffer]
  | .freeUnfilled => [.freeWild]
  | call => call.allocates.map .alloc

def heapActions (made : List Call) : List (HeapAction Buffer) := made.flatMap Call.heapActions

/-- Everything allocated during these calls is freed during them, and nothing else is. -/
def Neat (made : List Call) : Prop := Heap.Neutral (heapActions made)

theorem heapActions_append (first second : List Call) :
    heapActions (first ++ second) = heapActions first ++ heapActions second := List.flatMap_append

theorem heapActions_frees (buffers : List Buffer) : heapActions (buffers.map .free) = buffers.map .free := by
  induction buffers with
  | nil => rfl
  | cons buffer rest ih =>
    rw [List.map_cons, heapActions, List.flatMap_cons, ← heapActions, ih]
    rfl

theorem Neat.nil : Neat [] := Heap.Neutral.nil

theorem Neat.append {first second : List Call} (before : Neat first) (after : Neat second) : Neat (first ++ second) := by
  unfold Neat
  rw [heapActions_append]
  exact Heap.Neutral.append before after

theorem Neat.leaves {buffer : Buffer} {first second : List Call} (before : Neat first)
    (after : Heap.Leaves buffer (heapActions second)) : Heap.Leaves buffer (heapActions (first ++ second)) := by
  rw [heapActions_append]
  exact Heap.Neutral.leaves before after

/-- A call without memory of its own. -/
theorem Neat.single {call : Call} (silent : call.heapActions = []) : Neat [call] := by
  unfold Neat
  rw [heapActions, List.flatMap_singleton, silent]
  exact Heap.Neutral.nil

/-- A call whose memory is freed after some other calls. -/
theorem Neat.freed {call : Call} (inner : List Call) (buffers : List Buffer)
    (allocates : call.heapActions = buffers.map .alloc) (neat : Neat inner) :
    Neat ([call] ++ inner ++ buffers.map .free) := by
  unfold Neat
  rw [heapActions_append, heapActions_append, heapActions_frees, heapActions, List.flatMap_singleton, allocates]
  exact Heap.Neutral.enclosed buffers neat

theorem building_neat {made : List Call} (building : made.all Call.building = true) : Neat made := by
  induction made with
  | nil => exact Neat.nil
  | cons call rest ih =>
    rw [List.all_cons, Bool.and_eq_true] at building
    refine Neat.append (Neat.single ?_) (ih building.2)
    have built := building.1
    cases call with
    | _ => first | rfl | cases built

theorem descriptions_neat (serr : StreamError) : Neat (descriptions serr) := by
  cases serr with
  | closed => exact Neat.nil
  | lastOperationFailed debug =>
    rw [descriptions, stringFree_eq]
    exact @Neat.freed (.errorToDebugString debug) [] _ rfl Neat.nil

end WasiWheels.Transport
