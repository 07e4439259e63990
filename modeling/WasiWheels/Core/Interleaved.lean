import Mathlib.Algebra.BigOperators.Group.Finset.Piecewise
import WasiWheels.Core.Heap
import WasiWheels.Core.Ledger

/-! Traces of several parties, interleaved in any way: what each of them does to a table or a
heap of its own, they do together to the shared one. -/

namespace WasiWheels

/-- What one party contributes. -/
def project {ι α : Type} [DecidableEq ι] (party : ι) (trace : List (ι × α)) : List α :=
  (trace.filter fun entry => entry.1 = party).map Prod.snd

section Project

variable {ι α β : Type} [DecidableEq ι]

theorem project_cons_self (party : ι) (entry : α) (rest : List (ι × α)) :
    project party ((party, entry) :: rest) = entry :: project party rest := by
  simp [project]

theorem project_cons_other {party other : ι} (apart : other ≠ party) (entry : α) (rest : List (ι × α)) :
    project party ((other, entry) :: rest) = project party rest := by
  simp [project, apart]

theorem project_append (party : ι) (first second : List (ι × α)) :
    project party (first ++ second) = project party first ++ project party second := by
  simp [project]

theorem project_map_self (party : ι) (own : List α) : project party (own.map (Prod.mk party)) = own := by
  induction own with
  | nil => rfl
  | cons entry rest ih => rw [List.map_cons, project_cons_self, ih]

theorem project_map_other {party other : ι} (apart : other ≠ party) (own : List α) :
    project party (own.map (Prod.mk other)) = [] := by
  induction own with
  | nil => rfl
  | cons entry rest ih => rw [List.map_cons, project_cons_other apart, ih]

/-- Every entry replaced by several of the same party. -/
def spread (effect : α → List β) (trace : List (ι × α)) : List (ι × β) :=
  trace.flatMap fun entry => (effect entry.2).map (Prod.mk entry.1)

theorem project_spread (effect : α → List β) (party : ι) (trace : List (ι × α)) :
    project party (spread effect trace) = (project party trace).flatMap effect := by
  induction trace with
  | nil => rfl
  | cons entry rest ih =>
    obtain ⟨other, entry⟩ := entry
    rw [spread, List.flatMap_cons, ← spread, project_append, ih]
    by_cases same : other = party
    · subst same
      rw [project_map_self, project_cons_self, List.flatMap_cons]
    · rw [project_map_other same, project_cons_other same, List.nil_append]

end Project

section Steps

variable {ι α β σ τ : Type} [DecidableEq ι] {step : σ → α → Option σ} {whole : τ → β → Option τ}

/-- If the whole can do every step of a party, it can do their runs in any order between one another. -/
theorem foldlM_interleaved (of : ι → α → β) (Related : (ι → σ) → τ → Prop)
    (moves : ∀ {states total party action own}, Related states total → step (states party) action = some own →
      ∃ total', whole total (of party action) = some total' ∧ Related (Function.update states party own) total')
    {states after : ι → σ} {total : τ} (related : Related states total) {trace : List (ι × α)}
    (each : ∀ party, (project party trace).foldlM step (states party) = some (after party)) :
    ∃ total', (trace.map fun entry => of entry.1 entry.2).foldlM whole total = some total' ∧ Related after total' := by
  induction trace generalizing states total with
  | nil =>
    obtain rfl : states = after := funext fun party => Option.some.inj (each party)
    exact ⟨total, rfl, related⟩
  | cons entry rest ih =>
    obtain ⟨party, action⟩ := entry
    have first := each party
    rw [project_cons_self, List.foldlM_cons] at first
    obtain ⟨own, stepped, later⟩ := Option.bind_eq_some_iff.mp first
    obtain ⟨between, moved, still⟩ := moves related stepped
    obtain ⟨total', reached, ends⟩ := ih still fun other => by
      by_cases same : other = party
      · subst same
        rw [Function.update_self]
        exact later
      · have others := each other
        rw [project_cons_other (Ne.symm same)] at others
        rw [Function.update_of_ne same]
        exact others
    refine ⟨total', ?_, ends⟩
    rw [List.map_cons, List.foldlM_cons, moved]
    exact reached

end Steps

section Tables

variable {ι η : Type} [DecidableEq ι] [DecidableEq η] {parent : η → Option η}

/-- A party's action on its own part of a shared table. -/
def HandleAction.of (party : ι) : HandleAction η → HandleAction (ι × η)
  | .acquire handle => .acquire (party, handle)
  | .use handle => .use (party, handle)
  | .release handle => .release (party, handle)

/-- Children stay with the party of their parent. -/
def parentOf (parent : η → Option η) (handle : ι × η) : Option (ι × η) :=
  (parent handle.2).map fun above => (handle.1, above)

/-- A shared table holds what the parties' own tables hold. -/
def Shares (table : Finset (ι × η)) (tables : ι → Finset η) : Prop :=
  ∀ party handle, (party, handle) ∈ table ↔ handle ∈ tables party

omit [DecidableEq η] in
theorem Shares.update {table table' : Finset (ι × η)} {tables : ι → Finset η} (shares : Shares table tables) {party : ι}
    {own : Finset η} (here : ∀ handle, (party, handle) ∈ table' ↔ handle ∈ own)
    (elsewhere : ∀ other handle, other ≠ party → ((other, handle) ∈ table' ↔ (other, handle) ∈ table)) :
    Shares table' (Function.update tables party own) := by
  intro other handle
  by_cases same : other = party
  · subst same
    rw [Function.update_self]
    exact here handle
  · rw [Function.update_of_ne same, elsewhere other handle same]
    exact shares other handle

theorem Shares.step {table : Finset (ι × η)} {tables : ι → Finset η} (shares : Shares table tables) {party : ι}
    {action : HandleAction η} {own : Finset η} (stepped : Ledger.step parent (tables party) action = some own) :
    ∃ table', Ledger.step (parentOf parent) table (action.of party) = some table' ∧
      Shares table' (Function.update tables party own) := by
  cases action with
  | acquire handle =>
    simp only [Ledger.step] at stepped
    split at stepped
    · cases stepped
    · rename_i fresh
      cases stepped
      refine ⟨_, if_neg fun taken => fresh ((shares party handle).mp taken), shares.update ?_ ?_⟩
      · intro others
        simp [shares party others]
      · intro other others apart
        simp [apart]
  | use handle =>
    simp only [Ledger.step] at stepped
    split at stepped
    · rename_i owned
      cases stepped
      exact ⟨_, if_pos ((shares party handle).mpr owned), shares.update (shares party) fun _ _ _ => Iff.rfl⟩
    · cases stepped
  | release handle =>
    simp only [Ledger.step] at stepped
    split at stepped
    · rename_i owned
      cases stepped
      have childless : ∀ child ∈ table, parentOf parent child ≠ some (party, handle) := by
        rintro ⟨other, child⟩ alive inside
        obtain ⟨above, within, same⟩ := Option.map_eq_some_iff.mp inside
        obtain ⟨rfl, rfl⟩ := Prod.mk.inj same
        exact owned.2 child ((shares other child).mp alive) within
      refine ⟨_, if_pos ⟨(shares party handle).mpr owned.1, childless⟩, shares.update ?_ ?_⟩
      · intro others
        simp [shares party others]
      · intro other others apart
        simp [apart]
    · cases stepped

/-- Runs that are lawful each on its own are lawful together. -/
theorem run_interleaved {table : Finset (ι × η)} {tables after : ι → Finset η} (shares : Shares table tables)
    {trace : List (ι × HandleAction η)} (each : ∀ party, Ledger.run parent (tables party) (project party trace) = some (after party)) :
    ∃ table', Ledger.run (parentOf parent) table (trace.map fun entry => entry.2.of entry.1) = some table' ∧
      Shares table' after := by
  simp only [Ledger.run_eq_foldlM] at each ⊢
  exact foldlM_interleaved (fun party action => action.of party) (fun tables table => Shares table tables)
    (fun shares stepped => shares.step stepped) shares each

end Tables

section Heaps

variable {ι β : Type} [DecidableEq ι] [Fintype ι] [DecidableEq β]

theorem step_frame {live own : Multiset β} {action : HeapAction β} (stepped : Heap.step live action = some own)
    (frame : Multiset β) : Heap.step (live + frame) action = some (own + frame) := by
  cases action with
  | alloc buffer =>
    cases stepped
    rw [Heap.step, Multiset.cons_add]
  | free buffer =>
    rw [Heap.step] at stepped ⊢
    split at stepped
    · rename_i allocated
      cases stepped
      rw [if_pos (Multiset.mem_add.mpr (.inl allocated)), Multiset.erase_add_left_pos frame allocated]
    · cases stepped
  | freeWild => cases stepped

/-- A step of one party changes its share of the sum. -/
theorem step_summed {lives : ι → Multiset β} {party : ι} {action : HeapAction β} {own : Multiset β}
    (stepped : Heap.step (lives party) action = some own) :
    Heap.step (∑ other, lives other) action = some (∑ other, Function.update lives party own other) := by
  rw [Finset.sum_update_of_mem (Finset.mem_univ party), ← Finset.add_sum_erase _ lives (Finset.mem_univ party),
    Finset.sdiff_singleton_eq_erase]
  exact step_frame stepped _

/-- What the parties have allocated, together. -/
theorem heap_interleaved {lives after : ι → Multiset β} {trace : List (ι × HeapAction β)}
    (each : ∀ party, Heap.run (lives party) (project party trace) = some (after party)) :
    Heap.run (∑ party, lives party) (trace.map Prod.snd) = some (∑ party, after party) := by
  simp only [Heap.run_eq_foldlM] at each ⊢
  obtain ⟨total, reached, rfl⟩ := foldlM_interleaved (fun _ action => action)
    (fun lives total => total = ∑ party, lives party)
    (fun total stepped => ⟨_, total ▸ step_summed stepped, rfl⟩) rfl each
  exact reached

end Heaps

end WasiWheels
