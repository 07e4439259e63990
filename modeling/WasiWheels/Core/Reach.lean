/-! Systems that move by events, where some moves may be ruled out: the states they reach. -/

namespace WasiWheels

variable {σ ε : Type} {move : σ → ε → Option σ} {allowed : σ → ε → Prop} {start : σ}

inductive Reachable (move : σ → ε → Option σ) (allowed : σ → ε → Prop) (start : σ) : σ → Prop where
  | start : Reachable move allowed start start
  | step {state next : σ} (event : ε) (reached : Reachable move allowed start state) (may : allowed state event)
      (moved : move state event = some next) : Reachable move allowed start next

/-- What holds at the start and is kept by every allowed event holds wherever the system gets. -/
theorem Reachable.invariant {kept : σ → Prop} {state : σ} (reached : Reachable move allowed start state)
    (initially : kept start)
    (preserved : ∀ {state next : σ} (event : ε), kept state → allowed state event → move state event = some next →
      kept next) : kept state := by
  induction reached with
  | start => exact initially
  | step event _ may moved ih => exact preserved event ih may moved

end WasiWheels
