/-! GNU make over modification times. A recipe runs when its target is missing or
older than a prerequisite; whatever a failed recipe wrote stays where it is. -/

namespace WasiWheels.Make

/-- A file as the last recipe to touch it left it. -/
structure Entry (α : Type) where
  content : α
  mtime : Nat
deriving DecidableEq, Repr

/-- The files of a tree, with a clock ahead of all of them. -/
structure Disk (φ α : Type) where
  file : φ → Option (Entry α)
  clock : Nat
  dated : ∀ path entry, file path = some entry → entry.mtime < clock

inductive Effect (φ α : Type) where
  | write (path : φ) (content : α)
  | remove (path : φ)

def Effect.path : Effect φ α → φ
  | .write path _ => path
  | .remove path => path

variable {φ ε α : Type}

/-- The head of a rule: what it makes, from what, and what its recipe clears away. -/
structure Node (φ : Type) where
  target : φ
  needs : List φ
  afters : List φ := []
  forced : Bool := false
  drops : List φ := []

/-- Whether make has to run the recipe; order-only prerequisites have no say. -/
def Node.outdated (node : Node φ) (disk : Disk φ α) : Bool :=
  node.forced || match disk.file node.target with
    | none => true
    | some made => node.needs.any fun need => match disk.file need with
        | none => true
        | some entry => decide (made.mtime < entry.mtime)

theorem Node.current_iff (node : Node φ) (disk : Disk φ α) :
    node.outdated disk = false ↔ node.forced = false ∧ ∃ made, disk.file node.target = some made ∧
      ∀ need ∈ node.needs, ∃ entry, disk.file need = some entry ∧ entry.mtime ≤ made.mtime := by
  unfold Node.outdated
  cases found : disk.file node.target with
  | none => simp
  | some made =>
    simp only [Bool.or_eq_false_iff, List.any_eq_false, Option.some.injEq, exists_eq_left']
    apply and_congr_right
    intro _
    apply forall_congr'
    intro need
    apply imp_congr_right
    intro _
    cases read : disk.file need with
    | none => simp
    | some entry => simp

/-- Whether a rule is outdated is decided by its own files. -/
theorem Node.outdated_congr (node : Node φ) {disk disk' : Disk φ α}
    (target : disk'.file node.target = disk.file node.target)
    (needs : ∀ need ∈ node.needs, disk'.file need = disk.file need) :
    node.outdated disk' = node.outdated disk := by
  unfold Node.outdated
  rw [target]
  cases disk.file node.target with
  | none => rfl
  | some made =>
    congr 1
    rw [Bool.eq_iff_iff, List.any_eq_true, List.any_eq_true]
    constructor
    · rintro ⟨need, member, older⟩
      exact ⟨need, member, needs need member ▸ older⟩
    · rintro ⟨need, member, older⟩
      exact ⟨need, member, (needs need member).symm ▸ older⟩

/-- Every prerequisite is a source or made by an earlier rule, and nothing made is overwritten. -/
def Ordered : List φ → List (Node φ) → Prop
  | _, [] => True
  | done, node :: nodes =>
    (∀ path ∈ node.needs ++ node.afters, path ∈ done) ∧ node.target ∉ done ∧ (∀ path ∈ node.drops, path ∉ done) ∧
      Ordered (node.target :: done) nodes

theorem Ordered.fresh {done : List φ} {nodes : List (Node φ)} (ordered : Ordered done nodes) :
    ∀ node ∈ nodes, node.target ∉ done := by
  induction nodes generalizing done with
  | nil => simp
  | cons first rest ih =>
    obtain ⟨_, unmade, _, later⟩ := ordered
    intro node member
    rcases List.mem_cons.mp member with same | tail
    · exact same ▸ unmade
    · exact fun early => ih later node tail (List.mem_cons_of_mem _ early)

/-- No two rules make the same file. -/
theorem Ordered.unique {done : List φ} {nodes : List (Node φ)} (ordered : Ordered done nodes) :
    ∀ node ∈ nodes, ∀ other ∈ nodes, other.target = node.target → other = node := by
  induction nodes generalizing done with
  | nil => simp
  | cons first rest ih =>
    obtain ⟨_, _, _, later⟩ := ordered
    intro node member other member' same
    rcases List.mem_cons.mp member with head | tail <;> rcases List.mem_cons.mp member' with head' | tail'
    · rw [head, head']
    · exact absurd (by rw [same, head]; exact List.mem_cons_self) (later.fresh other tail')
    · exact absurd (by rw [← same, head']; exact List.mem_cons_self) (later.fresh node tail)
    · exact ih later node tail other tail' same

variable [DecidableEq φ]

namespace Disk

/-- A tree holding the sources and nothing else. -/
def checkout (sources : List φ) (content : φ → α) : Disk φ α where
  file := fun path => if path ∈ sources then some ⟨content path, 0⟩ else none
  clock := 1
  dated := by
    intro path entry found
    split at found
    · simp only [Option.some.injEq] at found
      simp [← found]
    · cases found

def write (disk : Disk φ α) (path : φ) (content : α) : Disk φ α where
  file := fun other => if other = path then some ⟨content, disk.clock⟩ else disk.file other
  clock := disk.clock + 1
  dated := by
    intro other entry found
    by_cases same : other = path
    · simp only [same, if_true, Option.some.injEq] at found
      simp [← found]
    · simp only [same, if_false] at found
      exact Nat.lt_succ_of_lt (disk.dated other entry found)

def remove (disk : Disk φ α) (path : φ) : Disk φ α where
  file := fun other => if other = path then none else disk.file other
  clock := disk.clock
  dated := by
    intro other entry found
    by_cases same : other = path
    · simp [same] at found
    · simp only [same, if_false] at found
      exact disk.dated other entry found

def perform (disk : Disk φ α) : Effect φ α → Disk φ α
  | .write path content => disk.write path content
  | .remove path => disk.remove path

/-- Every write is dated by the clock, so no effect can backdate a file. -/
def apply (disk : Disk φ α) (effects : List (Effect φ α)) : Disk φ α := effects.foldl perform disk

@[simp] theorem apply_nil (disk : Disk φ α) : disk.apply [] = disk := rfl

@[simp] theorem apply_cons (disk : Disk φ α) (effect : Effect φ α) (rest : List (Effect φ α)) :
    disk.apply (effect :: rest) = (disk.perform effect).apply rest := rfl

theorem apply_append (disk : Disk φ α) (effects others : List (Effect φ α)) :
    disk.apply (effects ++ others) = (disk.apply effects).apply others := List.foldl_append

@[simp] theorem write_same (disk : Disk φ α) (path : φ) (content : α) :
    (disk.write path content).file path = some ⟨content, disk.clock⟩ := if_pos rfl

theorem write_other (disk : Disk φ α) {path other : φ} (content : α) (differs : other ≠ path) :
    (disk.write path content).file other = disk.file other := if_neg differs

@[simp] theorem remove_same (disk : Disk φ α) (path : φ) : (disk.remove path).file path = none := if_pos rfl

theorem remove_other (disk : Disk φ α) {path other : φ} (differs : other ≠ path) :
    (disk.remove path).file other = disk.file other := if_neg differs

theorem perform_other (disk : Disk φ α) (effect : Effect φ α) {path : φ} (differs : path ≠ effect.path) :
    (disk.perform effect).file path = disk.file path := by
  cases effect with
  | write written content => exact disk.write_other content differs
  | remove removed => exact disk.remove_other differs

theorem clock_perform (disk : Disk φ α) (effect : Effect φ α) : disk.clock ≤ (disk.perform effect).clock := by
  cases effect with
  | write path content => exact Nat.le_succ disk.clock
  | remove path => exact Nat.le_refl disk.clock

theorem apply_untouched (disk : Disk φ α) (effects : List (Effect φ α)) {path : φ}
    (untouched : ∀ effect ∈ effects, effect.path ≠ path) :
    (disk.apply effects).file path = disk.file path := by
  induction effects generalizing disk with
  | nil => rfl
  | cons effect rest ih =>
    have later := ih (disk.perform effect) (fun other member => untouched other (List.mem_cons_of_mem _ member))
    rw [apply_cons, later]
    exact disk.perform_other effect (Ne.symm (untouched effect List.mem_cons_self))

/-- A file is as it was, or gone, or written no earlier than the recipe started. -/
theorem apply_cases (disk : Disk φ α) (effects : List (Effect φ α)) (path : φ) :
    (disk.apply effects).file path = disk.file path ∨ (disk.apply effects).file path = none ∨
      ∃ content mtime, Effect.write path content ∈ effects ∧ disk.clock ≤ mtime ∧
        (disk.apply effects).file path = some ⟨content, mtime⟩ := by
  induction effects generalizing disk with
  | nil => exact Or.inl rfl
  | cons effect rest ih =>
    rw [apply_cons]
    rcases ih (disk.perform effect) with kept | gone | ⟨content, mtime, member, later, found⟩
    · by_cases same : path = effect.path
      · cases effect with
        | write written content =>
          subst same
          right; right
          exact ⟨content, disk.clock, List.mem_cons_self, Nat.le_refl _, by rw [kept]; exact disk.write_same _ content⟩
        | remove removed =>
          subst same
          right; left
          rw [kept]
          exact disk.remove_same _
      · left
        rw [kept, disk.perform_other effect same]
    · exact Or.inr (Or.inl gone)
    · right; right
      exact ⟨content, mtime, List.mem_cons_of_mem _ member, Nat.le_trans (disk.clock_perform effect) later, found⟩

/-- A file no effect writes is as it was, or gone. -/
theorem apply_unwritten (disk : Disk φ α) (effects : List (Effect φ α)) {path : φ}
    (unwritten : ∀ content, Effect.write path content ∉ effects) :
    (disk.apply effects).file path = disk.file path ∨ (disk.apply effects).file path = none := by
  rcases disk.apply_cases effects path with kept | gone | ⟨content, _, member, _⟩
  · exact Or.inl kept
  · exact Or.inr gone
  · exact absurd member (unwritten content)

end Disk

/-- A rule up to date after some effects that left its target alone had no prerequisite touched. -/
theorem Node.current_of_apply (node : Node φ) (disk : Disk φ α) (effects : List (Effect φ α))
    (unwritten : ∀ content, Effect.write node.target content ∉ effects)
    (current : node.outdated (disk.apply effects) = false) :
    node.outdated disk = false ∧ (disk.apply effects).file node.target = disk.file node.target ∧
      ∀ need ∈ node.needs, (disk.apply effects).file need = disk.file need := by
  obtain ⟨_, made, found, older⟩ := (node.current_iff _).mp current
  have target : (disk.apply effects).file node.target = disk.file node.target := by
    rcases disk.apply_unwritten effects unwritten with kept | gone
    · exact kept
    · simp [found] at gone
  have needs : ∀ need ∈ node.needs, (disk.apply effects).file need = disk.file need := by
    intro need member
    obtain ⟨entry, read, bound⟩ := older need member
    rcases disk.apply_cases effects need with kept | gone | ⟨content, mtime, _, later, rewritten⟩
    · exact kept
    · simp [read] at gone
    · have ahead := disk.dated node.target made (target ▸ found)
      simp only [read, Option.some.injEq] at rewritten
      rw [rewritten] at bound
      exact absurd bound (by simp only [Nat.not_le]; omega)
  exact ⟨(node.outdated_congr target needs).symm.trans current, target, needs⟩

structure Rule (ε φ α : Type) extends Node φ where
  recipe : ε → Disk φ α → Bool × List (Effect φ α)

/-- Consider one rule: run its recipe if need be, and tell whether that went well. -/
def Rule.update (rule : Rule ε φ α) (env : ε) (disk : Disk φ α) : Bool × Disk φ α :=
  if rule.outdated disk then ((rule.recipe env disk).1, disk.apply (rule.recipe env disk).2) else (true, disk)

/-- Consider the rules in order and give up at the first failed recipe. -/
def make (env : ε) : List (Rule ε φ α) → Disk φ α → Bool × Disk φ α
  | [], disk => (true, disk)
  | rule :: rules, disk =>
    if (rule.update env disk).1 then make env rules (rule.update env disk).2 else (false, (rule.update env disk).2)

theorem Rule.update_current {rule : Rule ε φ α} {disk : Disk φ α} (env : ε)
    (current : rule.outdated disk = false) : rule.update env disk = (true, disk) := by
  simp [Rule.update, current]

theorem Rule.update_outdated {rule : Rule ε φ α} {disk : Disk φ α} (env : ε)
    (outdated : rule.outdated disk = true) :
    rule.update env disk = ((rule.recipe env disk).1, disk.apply (rule.recipe env disk).2) := by
  simp [Rule.update, outdated]

theorem make_singleton (env : ε) (rule : Rule ε φ α) (disk : Disk φ α) : make env [rule] disk = rule.update env disk := by
  simp only [make]
  split
  · rename_i success
    exact Prod.ext success.symm rfl
  · rename_i failure
    exact Prod.ext (Bool.eq_false_iff.mpr failure).symm rfl

theorem make_append (env : ε) (first second : List (Rule ε φ α)) (disk : Disk φ α) :
    make env (first ++ second) disk =
      if (make env first disk).1 then make env second (make env first disk).2 else (false, (make env first disk).2) := by
  induction first generalizing disk with
  | nil => simp [make]
  | cons rule rest ih =>
    simp only [List.cons_append, make]
    split
    · exact ih _
    · simp

/-- What every recipe keeps, make keeps, whether or not it succeeds. -/
theorem make_keeps {env : ε} {rules : List (Rule ε φ α)} (kept : Disk φ α → Prop)
    (step : ∀ rule ∈ rules, ∀ disk, kept disk → kept (rule.update env disk).2)
    (disk : Disk φ α) (holds : kept disk) : kept (make env rules disk).2 := by
  induction rules generalizing disk with
  | nil => exact holds
  | cons rule rest ih =>
    have next := step rule List.mem_cons_self disk holds
    rw [make]
    split
    · exact ih (fun other member => step other (List.mem_cons_of_mem _ member)) _ next
    · exact next

/-- Once nothing is outdated, make does nothing in any environment. -/
theorem make_current (env : ε) (rules : List (Rule ε φ α)) (disk : Disk φ α)
    (current : ∀ rule ∈ rules, rule.outdated disk = false) : make env rules disk = (true, disk) := by
  induction rules with
  | nil => rfl
  | cons rule rest ih =>
    rw [make, Rule.update_current env (current rule List.mem_cons_self)]
    exact ih (fun other member => current other (List.mem_cons_of_mem _ member))

instance decidableOrdered : (done : List φ) → (nodes : List (Node φ)) → Decidable (Ordered done nodes)
  | _, [] => inferInstanceAs (Decidable True)
  | done, node :: nodes =>
    have := decidableOrdered (node.target :: done) nodes
    inferInstanceAs (Decidable (_ ∧ _ ∧ _ ∧ _))

/-- A makefile: its sources, the files its recipes keep to themselves, and its rules in the order make visits them. -/
structure Makefile (ε φ α : Type) [DecidableEq φ] where
  sources : List φ
  scratch : List φ
  rules : List (Rule ε φ α)
  ordered : Ordered sources (rules.map Rule.toNode)
  apart : ∀ path ∈ scratch, path ∉ sources ∧ ∀ rule ∈ rules, path ≠ rule.target

end WasiWheels.Make
