import WasiWheels.Transport.Outcome

/-! Which requests free exactly the memory their answers came in: all but those whose
content handler throws and those answered nothing. -/

namespace WasiWheels.Transport

variable {H : Type}

/-- Every buffer is freed once for each time it was allocated, and no free is wild. -/
def Freed (made : List Call) : Prop := Heap.run 0 (heapActions made) = some 0

instance (made : List Call) : Decidable (Freed made) := inferInstanceAs (Decidable (_ = _))

theorem Neat.freed_all {made : List Call} (neat : Neat made) : Freed made := neat 0

theorem not_freed_of_leaves {buffer : Buffer} {made : List Call} (leaves : Heap.Leaves buffer (heapActions made)) :
    ¬ Freed made := by
  intro freed
  have left : some (buffer ::ₘ 0) = some (0 : Multiset Buffer) := (leaves 0).symm.trans freed
  exact Multiset.cons_ne_zero (Option.some_inj.mp left)

namespace Exchange

variable (exchange : Exchange H)

/-- A request frees what it was handed unless it is left unanswered or interrupted. -/
theorem freed_iff : Freed exchange.calls ↔ ¬ exchange.Unanswered ∧ ¬ exchange.Interrupted := by
  have settles := exchange.settles
  generalize exchange.calls = made at settles ⊢
  cases settles with
  | neat answered uninterrupted neat => exact iff_of_true neat.freed_all ⟨answered, uninterrupted⟩
  | wild unanswered refused =>
    refine iff_of_false (fun freed => ?_) fun fine => fine.1 unanswered
    rw [Freed, refused] at freed
    cases freed
  | leaky chunk interrupted leaves => exact iff_of_false (not_freed_of_leaves leaves) fun fine => fine.2 interrupted

/-- A GET of two bytes whose content handler throws at them. -/
def refusing : Exchange (List (String × String)) where
  db := DuckDB.association
  bearerToken := ""
  script := { HostScript.willing with reads := [[104, 105]] }
  url := "https://example.org/data"
  method := .get
  headers := []
  bodyData := none
  contentHandler := some fun _ _ => .threw "cancelled"
  responseHandler := none

/-- The same request with a host that answers `get` with none. -/
def unanswered : Exchange (List (String × String)) := { refusing with script := { HostScript.willing with get := none } }

/-- The chunk the handler refused is never freed, and `got` is freed without having been filled. -/
theorem refusing_and_unanswered_unfreed : ¬ Freed refusing.calls ∧ ¬ Freed unanswered.calls := by
  constructor
  · decide +kernel
  · decide +kernel

end Exchange

end WasiWheels.Transport
