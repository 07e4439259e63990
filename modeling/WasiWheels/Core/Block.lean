/-! Blocks of imperative code with early returns and exceptions. A block leaves
its scope in one of three ways, and every scope it opened is closed on each. -/

namespace WasiWheels

/-- How control leaves a block. -/
inductive Exit (ρ ε α : Type) where
  | fall (value : α)
  | ret (result : ρ)
  | throw (error : ε)

def Block (σ ρ ε α : Type) : Type := σ → Exit ρ ε α × σ

namespace Block

variable {σ ρ ρ' ε τ α β : Type}

protected def pure (value : α) : Block σ ρ ε α := fun state => (.fall value, state)

protected def bind (block : Block σ ρ ε α) (next : α → Block σ ρ ε β) : Block σ ρ ε β := fun state =>
  match block state with
  | (.fall value, after) => next value after
  | (.ret result, after) => (.ret result, after)
  | (.throw error, after) => (.throw error, after)

instance : Monad (Block σ ρ ε) where
  pure := Block.pure
  bind := Block.bind

/-- Leave every enclosing scope with a result. -/
def ret (result : ρ) : Block σ ρ ε α := fun state => (.ret result, state)

/-- Unwind every enclosing scope with an exception. -/
def throw (error : ε) : Block σ ρ ε α := fun state => (.throw error, state)

def modify (change : σ → σ) : Block σ ρ ε Unit := fun state => (.fall (), change state)

def read (view : σ → α) : Block σ ρ ε α := fun state => (.fall (view state), state)

/-- A scope: `leave` runs on every way out of the body, as a destructor does. -/
def scope (enter leave : σ → σ) (body : Block σ ρ ε α) : Block σ ρ ε α := fun state =>
  ((body (enter state)).1, leave (body (enter state)).2)

/-- `try body catch handler`; a return passes through unhandled. -/
def tryCatch (body : Block σ ρ ε α) (handler : ε → Block σ ρ ε α) : Block σ ρ ε α := fun state =>
  match body state with
  | (.throw error, after) => handler error after
  | (.fall value, after) => (.fall value, after)
  | (.ret result, after) => (.ret result, after)

/-- Call a function whose own returns end only its own body. -/
def call (function : Block σ ρ ε Unit) : Block σ ρ' ε (Option ρ) := fun state =>
  match function state with
  | (.ret result, after) => (.fall (some result), after)
  | (.fall _, after) => (.fall none, after)
  | (.throw error, after) => (.throw error, after)

/-- From every state satisfying `pre`, the way out and the final state satisfy `post`. -/
def Spec (pre : σ → Prop) (block : Block σ ρ ε α) (post : Exit ρ ε α → σ → Prop) : Prop :=
  ∀ state, pre state → post (block state).1 (block state).2

theorem Spec.pure {pre : σ → Prop} {post : Exit ρ ε α → σ → Prop} (value : α)
    (holds : ∀ state, pre state → post (.fall value) state) :
    Spec pre (Pure.pure value : Block σ ρ ε α) post := holds

theorem Spec.ret {pre : σ → Prop} {post : Exit ρ ε α → σ → Prop} (result : ρ)
    (holds : ∀ state, pre state → post (.ret result) state) : Spec pre (Block.ret result) post := holds

theorem Spec.weaken {pre pre' : σ → Prop} {block : Block σ ρ ε α} {post post' : Exit ρ ε α → σ → Prop}
    (spec : Spec pre block post) (stronger : ∀ state, pre' state → pre state)
    (weaker : ∀ exit state, post exit state → post' exit state) : Spec pre' block post' :=
  fun state holds => weaker _ _ (spec state (stronger state holds))

/-- Sequencing: the rest of the block runs only when control falls through. -/
theorem Spec.bind {pre : σ → Prop} {block : Block σ ρ ε α} {next : α → Block σ ρ ε β}
    {mid : Exit ρ ε α → σ → Prop} {post : Exit ρ ε β → σ → Prop} (first : Spec pre block mid)
    (rest : ∀ value, Spec (mid (.fall value)) (next value) post)
    (returned : ∀ result state, mid (.ret result) state → post (.ret result) state)
    (thrown : ∀ error state, mid (.throw error) state → post (.throw error) state) :
    Spec pre (block >>= next) post := by
  intro state holds
  have reached := first state holds
  change post (Block.bind block next state).1 (Block.bind block next state).2
  unfold Block.bind
  cases outcome : block state with
  | mk exit after =>
    rw [outcome] at reached
    cases exit with
    | fall value => exact rest value after reached
    | ret result => exact returned result after reached
    | throw error => exact thrown error after reached

/-- A scope may forget what its destructor restores, on every way out alike. -/
theorem Spec.scope {pre : σ → Prop} (inner : σ → Prop) {enter leave : σ → σ} {body : Block σ ρ ε α}
    {post : Exit ρ ε α → σ → Prop} (entered : ∀ state, pre state → inner (enter state))
    (spec : Spec inner body (fun exit state => post exit (leave state))) :
    Spec pre (Block.scope enter leave body) post :=
  fun state holds => spec (enter state) (entered state holds)

theorem Spec.read {pre : σ → Prop} {view : σ → α} {next : α → Block σ ρ ε β}
    {post : Exit ρ ε β → σ → Prop}
    (rest : ∀ value, Spec (fun state => pre state ∧ view state = value) (next value) post) :
    Spec pre (Block.read view >>= next) post :=
  fun state holds => rest (view state) state ⟨holds, rfl⟩

/-- An exception is handled from wherever the body left off. -/
theorem Spec.tryCatch {pre : σ → Prop} {body : Block σ ρ ε α} {handler : ε → Block σ ρ ε α}
    {mid post : Exit ρ ε α → σ → Prop} (first : Spec pre body mid)
    (handled : ∀ error, Spec (mid (.throw error)) (handler error) post)
    (fell : ∀ value state, mid (.fall value) state → post (.fall value) state)
    (returned : ∀ result state, mid (.ret result) state → post (.ret result) state) :
    Spec pre (Block.tryCatch body handler) post := by
  intro state holds
  have reached := first state holds
  unfold Block.tryCatch
  cases outcome : body state with
  | mk exit after =>
    rw [outcome] at reached
    cases exit with
    | fall value => exact fell value after reached
    | ret result => exact returned result after reached
    | throw error => exact handled error after reached

/-- From any state, the block leaves by `exit` having made exactly the `calls`. -/
def Runs (seen : σ → List τ) (block : Block σ ρ ε α) (exit : Exit ρ ε α) (calls : List τ) : Prop :=
  ∀ state, (block state).1 = exit ∧ seen (block state).2 = seen state ++ calls

variable {seen : σ → List τ}

theorem Runs.congr {block : Block σ ρ ε α} {exit : Exit ρ ε α} {calls calls' : List τ}
    (runs : Runs seen block exit calls) (same : calls = calls') : Runs seen block exit calls' := same ▸ runs

theorem Runs.pure (value : α) :
    Runs seen (Pure.pure value : Block σ ρ ε α) (.fall value) [] :=
  fun state => ⟨rfl, (List.append_nil (seen state)).symm⟩

theorem Runs.ret (result : ρ) : Runs seen (Block.ret result : Block σ ρ ε α) (.ret result) [] :=
  fun state => ⟨rfl, (List.append_nil (seen state)).symm⟩

theorem Runs.throw (error : ε) : Runs seen (Block.throw error : Block σ ρ ε α) (.throw error) [] :=
  fun state => ⟨rfl, (List.append_nil (seen state)).symm⟩

theorem Runs.modify {change : σ → σ} {calls : List τ}
    (adds : ∀ state, seen (change state) = seen state ++ calls) :
    Runs seen (Block.modify change : Block σ ρ ε Unit) (.fall ()) calls :=
  fun state => ⟨rfl, adds state⟩

theorem Runs.bind {block : Block σ ρ ε α} {next : α → Block σ ρ ε β} {value : α} {exit : Exit ρ ε β}
    {calls rest : List τ} (first : Runs seen block (.fall value) calls)
    (second : Runs seen (next value) exit rest) : Runs seen (block >>= next) exit (calls ++ rest) := by
  intro state
  obtain ⟨fell, made⟩ := first state
  change (Block.bind block next state).1 = _ ∧ seen (Block.bind block next state).2 = _
  unfold Block.bind
  cases outcome : block state with
  | mk way after =>
    rw [outcome] at fell made
    subst fell
    obtain ⟨left, added⟩ := second after
    exact ⟨left, by rw [added, made, List.append_assoc]⟩

theorem Runs.bind_silent {block : Block σ ρ ε α} {next : α → Block σ ρ ε β} {value : α} {exit : Exit ρ ε β}
    {calls : List τ} (first : Runs seen block (.fall value) calls) (second : Runs seen (next value) exit []) :
    Runs seen (block >>= next) exit calls := (first.bind second).congr (List.append_nil calls)

theorem Runs.bind_ret {block : Block σ ρ ε α} {next : α → Block σ ρ ε β} {result : ρ}
    {calls : List τ} (first : Runs seen block (.ret result) calls) :
    Runs seen (block >>= next) (.ret result) calls := by
  intro state
  obtain ⟨left, made⟩ := first state
  change (Block.bind block next state).1 = _ ∧ seen (Block.bind block next state).2 = _
  unfold Block.bind
  cases outcome : block state with
  | mk way after =>
    rw [outcome] at left made
    subst left
    exact ⟨rfl, made⟩

theorem Runs.bind_throw {block : Block σ ρ ε α} {next : α → Block σ ρ ε β} {error : ε}
    {calls : List τ} (first : Runs seen block (.throw error) calls) :
    Runs seen (block >>= next) (.throw error) calls := by
  intro state
  obtain ⟨left, made⟩ := first state
  change (Block.bind block next state).1 = _ ∧ seen (Block.bind block next state).2 = _
  unfold Block.bind
  cases outcome : block state with
  | mk way after =>
    rw [outcome] at left made
    subst left
    exact ⟨rfl, made⟩

theorem Runs.scope {enter leave : σ → σ} {body : Block σ ρ ε α} {exit : Exit ρ ε α} {calls closing : List τ}
    (entering : ∀ state, seen (enter state) = seen state)
    (leaving : ∀ state, seen (leave state) = seen state ++ closing) (inner : Runs seen body exit calls) :
    Runs seen (Block.scope enter leave body) exit (calls ++ closing) := by
  intro state
  obtain ⟨left, made⟩ := inner (enter state)
  exact ⟨left, by rw [← List.append_assoc, ← entering state, ← made]; exact leaving _⟩

theorem Runs.read {view : σ → α} {next : α → Block σ ρ ε β} {exit : Exit ρ ε β} {calls : List τ}
    (rest : ∀ value, Runs seen (next value) exit calls) :
    Runs seen (Block.read view >>= next) exit calls :=
  fun state => rest (view state) state

theorem Runs.tryCatch_pass {body : Block σ ρ ε α} {handler : ε → Block σ ρ ε α} {exit : Exit ρ ε α}
    {calls : List τ} (passes : ∀ error, exit ≠ .throw error) (inner : Runs seen body exit calls) :
    Runs seen (Block.tryCatch body handler) exit calls := by
  intro state
  obtain ⟨left, made⟩ := inner state
  unfold Block.tryCatch
  cases outcome : body state with
  | mk way after =>
    rw [outcome] at left made
    subst left
    cases way with
    | fall value => exact ⟨rfl, made⟩
    | ret result => exact ⟨rfl, made⟩
    | throw error => exact absurd rfl (passes error)

theorem Runs.tryCatch_caught {body : Block σ ρ ε α} {handler : ε → Block σ ρ ε α} {error : ε}
    {exit : Exit ρ ε α} {calls rest : List τ} (inner : Runs seen body (.throw error) calls)
    (caught : Runs seen (handler error) exit rest) :
    Runs seen (Block.tryCatch body handler) exit (calls ++ rest) := by
  intro state
  obtain ⟨left, made⟩ := inner state
  unfold Block.tryCatch
  cases outcome : body state with
  | mk way after =>
    rw [outcome] at left made
    subst left
    obtain ⟨handled, added⟩ := caught after
    exact ⟨handled, by rw [added, made, List.append_assoc]⟩

/-- The block tries the `steps`: it throws if one of them fails, and otherwise falls
through with the value, the state changed. -/
def Tries (fails : τ → Bool) (block : Block σ ρ ε α) (steps : List τ) (value : α) (change : σ → σ) : Prop :=
  ((∀ step ∈ steps, fails step = false) → ∀ state, block state = (.fall value, change state)) ∧
    ((∃ step ∈ steps, fails step = true) → ∀ state, ∃ error, (block state).1 = .throw error)

variable {fails : τ → Bool}

theorem Tries.congr {block : Block σ ρ ε α} {steps steps' : List τ} {value value' : α} {change change' : σ → σ}
    (tries : Tries fails block steps value change) (sameSteps : steps = steps') (sameValue : value = value')
    (same : ∀ state, change state = change' state) : Tries fails block steps' value' change' := by
  subst sameSteps sameValue
  exact funext same ▸ tries

theorem Tries.silent {block : Block σ ρ ε α} {value : α} {change : σ → σ}
    (falls : ∀ state, block state = (.fall value, change state)) : Tries fails block [] value change := by
  refine ⟨fun _ => falls, ?_⟩
  rintro ⟨step, member, _⟩
  cases member

theorem Tries.pure (value : α) : Tries fails (Pure.pure value : Block σ ρ ε α) [] value id := silent fun _ => rfl

theorem Tries.modify (change : σ → σ) : Tries fails (Block.modify change : Block σ ρ ε Unit) [] () change :=
  silent fun _ => rfl

theorem Tries.bind {block : Block σ ρ ε α} {next : α → Block σ ρ ε β} {steps steps' : List τ} {value : α}
    {value' : β} {change change' : σ → σ} (first : Tries fails block steps value change)
    (second : Tries fails (next value) steps' value' change') :
    Tries fails (block >>= next) (steps ++ steps') value' (fun state => change' (change state)) := by
  constructor
  · intro quiet state
    have done := first.1 (fun step member => quiet step (List.mem_append_left _ member)) state
    have rest := second.1 (fun step member => quiet step (List.mem_append_right _ member)) (change state)
    change Block.bind block next state = _
    unfold Block.bind
    rw [done]
    exact rest
  · rintro ⟨step, member, failed⟩ state
    change ∃ error, (Block.bind block next state).1 = _
    unfold Block.bind
    by_cases quiet : ∀ step ∈ steps, fails step = false
    · rw [first.1 quiet state]
      rcases List.mem_append.mp member with early | late
      · exact absurd (quiet step early) (by rw [failed]; decide)
      · exact second.2 ⟨step, late, failed⟩ (change state)
    · obtain ⟨early, inside, fault⟩ : ∃ step ∈ steps, fails step = true := by simpa using quiet
      obtain ⟨error, thrown⟩ := first.2 ⟨early, inside, fault⟩ state
      cases outcome : block state with
      | mk exit after =>
        rw [outcome] at thrown
        subst thrown
        exact ⟨error, rfl⟩

theorem Tries.map {block : Block σ ρ ε α} {steps : List τ} {value : α} {change : σ → σ}
    (tries : Tries fails block steps value change) (result : α → β) :
    Tries fails (block >>= fun value => Pure.pure (result value)) steps (result value) change := by
  have mapped : Tries fails (block >>= fun value => Pure.pure (result value)) (steps ++ []) (result value) _ :=
    tries.bind (Tries.pure (result value))
  exact mapped.congr (List.append_nil steps) rfl fun _ => rfl

theorem Tries.seq {block : Block σ ρ ε Unit} {next : Block σ ρ ε β} {steps steps' : List τ} {value : β}
    {change change' : σ → σ} (first : Tries fails block steps () change)
    (second : Tries fails next steps' value change') :
    Tries fails (block >>= fun _ => next) (steps ++ steps') value (fun state => change' (change state)) :=
  first.bind second

/-- What a destructor does happens on both ways out. -/
theorem Tries.scope {body : Block σ ρ ε α} {steps : List τ} {value : α} {change enter leave : σ → σ}
    (tries : Tries fails body steps value change) :
    Tries fails (Block.scope enter leave body) steps value (fun state => leave (change (enter state))) := by
  constructor
  · intro quiet state
    unfold Block.scope
    rw [tries.1 quiet (enter state)]
  · exact fun failed state => tries.2 failed (enter state)

end Block

end WasiWheels
