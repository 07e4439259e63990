import WasiWheels.Transport.Client
import Mathlib.Data.Finset.Lattice.Lemmas

/-! Which owners hold a handle at each point of a request. An assertion names
the live owners, the borrowed ones, and the handles that no owner holds. -/

namespace WasiWheels.Transport

variable {H α β : Type}

/-- The host's table holds exactly the live owners' handles and the `loose`
ones, and the borrow counters agree with the borrows in scope. -/
structure Owns (live borrowed loose : Finset Handle) (world : World) : Prop where
  table : Ledger.run Handle.parent ∅ (handleActions world.trace) = some (live ∪ loose)
  alive : ∀ name, (world.owners name).live = decide (name ∈ live)
  handle : ∀ name ∈ live, (world.owners name).handle = name
  borrows : ∀ name, (world.owners name).outstandingBorrows = if name ∈ borrowed then 1 else 0
  asserted : ∀ event ∈ world.trace, event ≠ .dAssert false
  kept : HandleAction.release .error ∉ handleActions world.trace

theorem Owns.initial : Owns ∅ ∅ ∅ {} where
  table := rfl
  alive _ := rfl
  handle _ member := absurd member (Finset.notMem_empty _)
  borrows _ := rfl
  asserted _ member := absurd member List.not_mem_nil
  kept := List.not_mem_nil

theorem Owns.congr {live live' borrowed loose loose' : Finset Handle} {world : World}
    (owns : Owns live borrowed loose world) (sameLive : live = live') (sameLoose : loose = loose') :
    Owns live' borrowed loose' world := by
  subst sameLive sameLoose
  exact owns

theorem handleActions_snoc (trace : List Event) (event : Event) :
    handleActions (trace ++ [event]) = handleActions trace ++ event.actions := by
  simp [handleActions]

section Record

variable {live borrowed loose loose' : Finset Handle} {world : World}

/-- Recording an event moves the table as the event's own actions do. -/
theorem Owns.record (owns : Owns live borrowed loose world) {event : Event}
    (moved : Ledger.run Handle.parent (live ∪ loose) event.actions = some (live ∪ loose'))
    (holds : event ≠ .dAssert false) (keeps : HandleAction.release .error ∉ event.actions) :
    Owns live borrowed loose' (world.record event) where
  table := by
    change Ledger.run Handle.parent ∅ (handleActions (world.trace ++ [event])) = _
    rw [handleActions_snoc, Ledger.run_extend owns.table, moved]
  alive := owns.alive
  handle := owns.handle
  borrows := owns.borrows
  asserted := by
    intro other member
    rcases List.mem_append.mp member with old | new
    · exact owns.asserted other old
    · rw [List.mem_singleton.mp new]
      exact holds
  kept := by
    change _ ∉ handleActions (world.trace ++ [event])
    rw [handleActions_snoc, List.mem_append]
    exact fun member => member.elim owns.kept keeps

theorem Owns.setOwner (owns : Owns live borrowed loose world) {name : Handle} {owner : OwnHandle}
    {live' borrowed' loose' : Finset Handle}
    (table : live' ∪ loose' = live ∪ loose)
    (others : ∀ other, other ≠ name → (other ∈ live' ↔ other ∈ live) ∧ (other ∈ borrowed' ↔ other ∈ borrowed))
    (alive : owner.live = decide (name ∈ live')) (handle : name ∈ live' → owner.handle = name)
    (borrows : owner.outstandingBorrows = if name ∈ borrowed' then 1 else 0) :
    Owns live' borrowed' loose' (world.setOwner name owner) where
  table := by rw [table]; exact owns.table
  alive := by
    intro other
    by_cases same : other = name
    · subst same; simpa [World.setOwner] using alive
    · simp [World.setOwner, same, owns.alive, (others other same).1]
  handle := by
    intro other member
    by_cases same : other = name
    · subst same; simpa [World.setOwner] using handle member
    · simpa [World.setOwner, same] using owns.handle other ((others other same).1.mp member)
  borrows := by
    intro other
    by_cases same : other = name
    · subst same; simpa [World.setOwner] using borrows
    · simp [World.setOwner, same, owns.borrows, (others other same).2]
  asserted := owns.asserted
  kept := owns.kept

/-- Calls that neither take nor hand out a handle leave the table as it is. -/
theorem Owns.make (owns : Owns live borrowed loose world) {made : List Call}
    (plain : ∀ call ∈ made, call.produces = none) : Owns live borrowed loose (world.make made) := by
  induction made generalizing world with
  | nil => simpa [World.make] using owns
  | cons call rest ih =>
    have first : Owns live borrowed loose (world.record (.call call none)) := by
      have silent : (Event.call call none).actions = [] := by
        simp [Event.actions, plain call (List.mem_cons_self ..)]
      exact owns.record (by rw [silent]; rfl) (by simp) (by simp [silent])
    have later := ih first fun other member => plain other (List.mem_cons_of_mem _ member)
    simpa [World.make, World.record] using later

end Record

/-- Some way of holding the handles, allowed by `may`, is in force on leaving. -/
def Leaves (may : Exit (HTTPResponse H) String α → Finset Handle → Finset Handle → Prop)
    (borrowed : Finset Handle) : Exit (HTTPResponse H) String α → World → Prop :=
  fun exit world => ∃ live loose, may exit live loose ∧ Owns live borrowed loose world

/-- However control leaves, only owners of `upper` hold a handle, and at most the
error resource is loose. -/
def within (upper : Finset Handle) (_ : Exit (HTTPResponse H) String α) (live loose : Finset Handle) : Prop :=
  live ⊆ upper ∧ loose ⊆ {.error}

/-- Control falls through with exactly the owners `after`, or leaves with at most
those of `upper` and the error resource loose. -/
def through (after upper : Finset Handle) :
    Exit (HTTPResponse H) String α → Finset Handle → Finset Handle → Prop
  | .fall _, live, loose => live = after ∧ loose = ∅
  | _, live, loose => live ⊆ upper ∧ loose ⊆ {.error}

/-- The block always falls through with `value`, turning one assertion into another. -/
def Falls (before after : World → Prop) (block : Cpp H α) (value : α) : Prop :=
  Block.Spec before block fun exit world => exit = .fall value ∧ after world

/-- The block keeps the assertion on every way out. -/
def Keeps (live borrowed loose : Finset Handle) (block : Cpp H α) : Prop :=
  Block.Spec (Owns live borrowed loose) block fun _ world => Owns live borrowed loose world

section Rules

variable {live borrowed loose : Finset Handle}

theorem Falls.bind {before after : World → Prop} {block : Cpp H α} {value : α} {next : α → Cpp H β}
    {post : Exit (HTTPResponse H) String β → World → Prop} (first : Falls before after block value)
    (rest : Block.Spec after (next value) post) : Block.Spec before (block >>= next) post := by
  refine Block.Spec.bind first ?_ ?_ ?_
  · rintro reached world ⟨same, holds⟩
    cases same
    exact rest world holds
  · rintro result world ⟨same, -⟩
    cases same
  · rintro error world ⟨same, -⟩
    cases same

theorem Keeps.andThen {block : Cpp H α} {next : α → Cpp H β} (first : Keeps live borrowed loose block)
    (rest : ∀ value, Keeps live borrowed loose (next value)) : Keeps live borrowed loose (block >>= next) :=
  Block.Spec.bind first rest (fun _ _ owns => owns) (fun _ _ owns => owns)

theorem Keeps.pure (value : α) : Keeps live borrowed loose (Pure.pure value : Cpp H α) := fun _ owns => owns

theorem Keeps.ret (result : HTTPResponse H) : Keeps live borrowed loose (Block.ret result : Cpp H α) :=
  fun _ owns => owns

theorem Keeps.throw (error : String) : Keeps live borrowed loose (Block.throw error : Cpp H α) :=
  fun _ owns => owns

theorem Falls.keeps {block : Cpp H α} {value : α}
    (falls : Falls (Owns live borrowed loose) (Owns live borrowed loose) block value) :
    Keeps live borrowed loose block := falls.weaken (fun _ owns => owns) fun _ _ fell => fell.2

theorem perform_falls {made : List Call} (plain : ∀ call ∈ made, call.produces = none) :
    Falls (Owns live borrowed loose) (Owns live borrowed loose) (perform made : Cpp H Unit) () :=
  fun _ owns => ⟨rfl, owns.make plain⟩

theorem Keeps.leaves {block : Cpp H α} {upper : Finset Handle} (keeps : Keeps live borrowed ∅ block)
    (below : live ⊆ upper) : Block.Spec (Owns live borrowed ∅) block (Leaves (through live upper) borrowed) := by
  refine keeps.weaken (fun _ owns => owns) fun exit _ owns => ⟨live, ∅, ?_, owns⟩
  cases exit with
  | fall value => exact ⟨rfl, rfl⟩
  | ret result => exact ⟨below, Finset.empty_subset _⟩
  | throw error => exact ⟨below, Finset.empty_subset _⟩

theorem ret_through (result : HTTPResponse H) {after upper : Finset Handle} (below : live ⊆ upper)
    (atMost : loose ⊆ {.error}) :
    Block.Spec (Owns live borrowed loose) (Block.ret result : Cpp H α)
      (Leaves (through after upper) borrowed) :=
  Block.Spec.ret result fun _ owns => ⟨live, loose, ⟨below, atMost⟩, owns⟩

theorem pure_within (value : α) {upper : Finset Handle} (below : live ⊆ upper) (atMost : loose ⊆ {.error}) :
    Block.Spec (Owns live borrowed loose) (Pure.pure value : Cpp H α) (Leaves (within upper) borrowed) :=
  Block.Spec.pure value fun _ owns => ⟨live, loose, ⟨below, atMost⟩, owns⟩

theorem ret_within (result : HTTPResponse H) {upper : Finset Handle} (below : live ⊆ upper) (atMost : loose ⊆ {.error}) :
    Block.Spec (Owns live borrowed loose) (Block.ret result : Cpp H α) (Leaves (within upper) borrowed) :=
  Block.Spec.ret result fun _ owns => ⟨live, loose, ⟨below, atMost⟩, owns⟩

/-- Sequencing after a block that falls through with known owners. -/
theorem Leaves.bind {before : World → Prop} {block : Cpp H α} {next : α → Cpp H β} {after upper : Finset Handle}
    {may : Exit (HTTPResponse H) String β → Finset Handle → Finset Handle → Prop}
    (first : Block.Spec before block (Leaves (through after upper) borrowed))
    (rest : ∀ value, Block.Spec (Owns after borrowed ∅) (next value) (Leaves may borrowed))
    (returned : ∀ result live loose, live ⊆ upper → loose ⊆ {.error} → may (.ret result) live loose)
    (thrown : ∀ error live loose, live ⊆ upper → loose ⊆ {.error} → may (.throw error) live loose) :
    Block.Spec before (block >>= next) (Leaves may borrowed) := by
  refine Block.Spec.bind first ?_ ?_ ?_
  · rintro value world ⟨live, loose, ⟨rfl, rfl⟩, owns⟩
    exact rest value world owns
  · rintro result world ⟨live, loose, ⟨below, atMost⟩, owns⟩
    exact ⟨live, loose, returned result live loose below atMost, owns⟩
  · rintro error world ⟨live, loose, ⟨below, atMost⟩, owns⟩
    exact ⟨live, loose, thrown error live loose below atMost, owns⟩

/-- Sequencing after a block of which only an upper bound is known. -/
theorem Leaves.andThen {before : World → Prop} {block : Cpp H α} {next : α → Cpp H β} {upper : Finset Handle}
    (first : Block.Spec before block (Leaves (within upper) borrowed))
    (rest : ∀ value live loose, live ⊆ upper → loose ⊆ {.error} →
      Block.Spec (Owns live borrowed loose) (next value) (Leaves (within upper) borrowed)) :
    Block.Spec before (block >>= next) (Leaves (within upper) borrowed) := by
  refine Block.Spec.bind first ?_ (fun _ _ leaves => leaves) (fun _ _ leaves => leaves)
  rintro value world ⟨live, loose, ⟨below, atMost⟩, owns⟩
  exact rest value live loose below atMost world owns

/-- A call that borrows a handle of the table and hands none out. -/
theorem host_falls {self : Handle} {made : Call} (owned : self ∈ live ∪ loose)
    (borrows : made.consumes = false) (plain : made.produces = none) :
    Falls (Owns live borrowed loose) (Owns live borrowed loose) (host self made : Cpp H Unit) () := by
  intro world owns
  have acts : (Event.call made (some self)).actions = [.use self] := by
    simp [Event.actions, borrows, plain]
  refine ⟨rfl, owns.record ?_ (by simp) (by simp [acts])⟩
  rw [acts]
  simp only [Ledger.run, Ledger.step, if_pos owned, Option.bind_some]

/-- A call that borrows a handle and hands out a new one. -/
theorem host_produces {self : Handle} (given : Handle) {made : Call} (owned : self ∈ live ∪ loose)
    (borrows : made.consumes = false) (produced : made.produces = some given) (fresh : given ∉ live ∪ loose) :
    Falls (Owns live borrowed loose) (Owns live borrowed (insert given loose)) (host self made : Cpp H Unit) () := by
  intro world owns
  have acts : (Event.call made (some self)).actions = [.use self, .acquire given] := by
    simp [Event.actions, borrows, produced]
  refine ⟨rfl, owns.record ?_ (by simp) (by simp [acts])⟩
  rw [acts, Finset.union_insert]
  simp only [Ledger.run, Ledger.step, if_pos owned, if_neg fresh, Option.bind_some]

/-- A call that consumes a released handle and hands out no other. -/
theorem host_consumes {self : Handle} {made : Call} (out : self ∉ live) (owned : self ∈ loose)
    (free : ∀ child ∈ live ∪ loose, child.parent ≠ some self) (named : self ≠ .error)
    (takes : made.consumes = true) (plain : made.produces = none) :
    Falls (Owns live borrowed loose) (Owns live borrowed (loose.erase self)) (host self made : Cpp H Unit) () := by
  intro world owns
  have acts : (Event.call made (some self)).actions = [.release self] := by
    simp [Event.actions, takes, plain]
  refine ⟨rfl, owns.record ?_ (by simp) (by simp [acts, Ne.symm named])⟩
  rw [acts]
  simp only [Ledger.run, Ledger.step, if_pos (And.intro (Finset.mem_union_right live owned) free), Option.bind_some,
    Finset.erase_union_distrib, Finset.erase_eq_of_notMem out]

/-- A call that consumes a released handle and hands out a new one. -/
theorem host_exchanges {self : Handle} (given : Handle) {made : Call} (out : self ∉ live) (owned : self ∈ loose)
    (free : ∀ child ∈ live ∪ loose, child.parent ≠ some self) (named : self ≠ .error)
    (takes : made.consumes = true) (produced : made.produces = some given) (fresh : given ∉ live ∪ loose) :
    Falls (Owns live borrowed loose) (Owns live borrowed (insert given (loose.erase self)))
      (host self made : Cpp H Unit) () := by
  intro world owns
  have acts : (Event.call made (some self)).actions = [.release self, .acquire given] := by
    simp [Event.actions, takes, produced]
  refine ⟨rfl, owns.record ?_ (by simp) (by simp [acts, Ne.symm named])⟩
  have left : (live ∪ loose).erase self = live ∪ loose.erase self := by
    rw [Finset.erase_union_distrib, Finset.erase_eq_of_notMem out]
  have gone : given ∉ live ∪ loose.erase self := fun member => fresh (Finset.mem_of_mem_erase (left ▸ member))
  rw [acts, Finset.union_insert]
  simp only [Ledger.run, Ledger.step, if_pos (And.intro (Finset.mem_union_right live owned) free), left, if_neg gone,
    Option.bind_some]

theorem release_falls {name : Handle} (member : name ∈ live) :
    Falls (Owns live borrowed loose) (Owns (live.erase name) borrowed (insert name loose))
      (release name : Cpp H Handle) name := by
  intro world owns
  refine ⟨congrArg Exit.fall (owns.handle name member), ?_⟩
  refine owns.setOwner ?_ ?_ ?_ ?_ ?_
  · rw [Finset.union_insert, ← Finset.insert_union, Finset.insert_erase member]
  · exact fun other different => ⟨by simp [different], Iff.rfl⟩
  · simp
  · simp
  · exact owns.borrows name

/-- A borrow counts while its scope lasts and is gone on every way out. -/
theorem borrow_leaves {name : Handle} {body : Handle → Cpp H α}
    {may : Exit (HTTPResponse H) String α → Finset Handle → Finset Handle → Prop}
    (member : name ∈ live) (free : name ∉ borrowed)
    (inner : Block.Spec (Owns live (insert name borrowed) loose) (body name) (Leaves may (insert name borrowed))) :
    Block.Spec (Owns live borrowed loose) (borrow name body) (Leaves may borrowed) := by
  refine Block.Spec.read ?_
  intro handle
  rintro world ⟨owns, same⟩
  obtain rfl : name = handle := (owns.handle name member).symm.trans same
  refine Block.Spec.scope (Owns live (insert name borrowed) loose) ?_ ?_ world owns
  · intro entered owns
    refine owns.setOwner rfl (fun other different => ⟨Iff.rfl, by simp [different]⟩) (owns.alive name)
      (owns.handle name) ?_
    simp [owns.borrows, free]
  · refine inner.weaken (fun _ owns => owns) ?_
    rintro exit left ⟨live', loose', allowed, owns⟩
    refine ⟨live', loose', allowed, owns.setOwner rfl (fun other different => ⟨Iff.rfl, by simp [different]⟩)
      (owns.alive name) (owns.handle name) ?_⟩
    simp [owns.borrows, free]

theorem borrow_falls {name : Handle} {body : Handle → Cpp H α} {value : α} {loose' : Finset Handle}
    (member : name ∈ live) (free : name ∉ borrowed)
    (inner : Falls (Owns live (insert name borrowed) loose) (Owns live (insert name borrowed) loose')
      (body name) value) :
    Falls (Owns live borrowed loose) (Owns live borrowed loose') (borrow name body) value := by
  have fallen : Block.Spec (Owns live (insert name borrowed) loose) (body name)
      (Leaves (fun exit live' left => exit = .fall value ∧ live' = live ∧ left = loose') (insert name borrowed)) :=
    inner.weaken (fun _ owns => owns) fun _ _ fell => ⟨live, loose', ⟨fell.1, rfl, rfl⟩, fell.2⟩
  refine (borrow_leaves member free fallen).weaken (fun _ owns => owns) ?_
  rintro exit world ⟨live', left, ⟨fell, rfl, rfl⟩, owns⟩
  exact ⟨fell, owns⟩

theorem borrow_keeps {name : Handle} {body : Handle → Cpp H α} (member : name ∈ live) (free : name ∉ borrowed)
    (inner : Keeps live (insert name borrowed) loose (body name)) :
    Keeps live borrowed loose (borrow name body) := by
  have kept : Block.Spec (Owns live (insert name borrowed) loose) (body name)
      (Leaves (fun _ live' left => live' = live ∧ left = loose) (insert name borrowed)) :=
    inner.weaken (fun _ owns => owns) fun _ _ owns => ⟨live, loose, ⟨rfl, rfl⟩, owns⟩
  refine (borrow_leaves member free kept).weaken (fun _ owns => owns) ?_
  rintro exit world ⟨live', left, ⟨rfl, rfl⟩, owns⟩
  exact owns

/-- The destructor drops a handle still owned, unless a child or borrow lives on. -/
theorem Owns.reset {name : Handle} {world : World} (owns : Owns live borrowed loose world) (free : name ∉ borrowed)
    (childless : ∀ child ∈ live ∪ loose, child.parent ≠ some name) (named : name ≠ .error) (out : name ∉ loose) :
    Owns (live.erase name) borrowed loose (world.reset name) := by
  by_cases member : name ∈ live
  · have held : (world.owners name).live = true := by simp [owns.alive, member]
    have counted : (world.owners name).outstandingBorrows = 0 := by simp [owns.borrows, free]
    have asserted : Owns live borrowed loose
        (world.record (.dAssert ((world.owners name).outstandingBorrows == 0))) :=
      owns.record rfl (by simp [counted]) (by simp [Event.actions])
    simp only [World.reset, held, if_true]
    rw [owns.handle name member]
    refine ⟨?_, ?_, ?_, ?_, ?_, ?_⟩
    · change Ledger.run Handle.parent ∅ (handleActions (_ ++ [Event.drop name])) = _
      rw [handleActions_snoc, Ledger.run_extend asserted.table]
      simp only [Event.actions, Ledger.run, Ledger.step,
        if_pos (And.intro (Finset.mem_union_left loose member) childless), Option.bind_some,
        Finset.erase_union_distrib, Finset.erase_eq_of_notMem out]
    · intro other
      by_cases same : other = name <;> simp [World.setOwner, World.record, same, owns.alive]
    · intro other present
      have kept := Finset.mem_erase.mp present
      simpa [World.setOwner, World.record, kept.1] using owns.handle other kept.2
    · intro other
      by_cases same : other = name
      · subst same; simp [World.setOwner, owns.borrows, free]
      · simp [World.setOwner, World.record, same, owns.borrows]
    · intro event present
      rcases List.mem_append.mp present with old | new
      · exact asserted.asserted event old
      · simp [List.mem_singleton.mp new]
    · change _ ∉ handleActions (_ ++ [Event.drop name])
      rw [handleActions_snoc, List.mem_append]
      exact fun present => present.elim asserted.kept (by simp [Event.actions, Ne.symm named])
  · have dead : (world.owners name).live = false := by simp [owns.alive, member]
    simpa [World.reset, dead, Finset.erase_eq_of_notMem member] using owns

/-- Whatever a scope leaves, its owner's destructor takes the handle off the table. -/
theorem reset_leaves {pre : World → Prop} {name : Handle} {body : Cpp H α}
    (may : Exit (HTTPResponse H) String α → Finset Handle → Finset Handle → Prop)
    {may' : Exit (HTTPResponse H) String α → Finset Handle → Finset Handle → Prop}
    (free : name ∉ borrowed) (named : name ≠ .error) (inner : Block.Spec pre body (Leaves may borrowed))
    (childless : ∀ exit live' loose', may exit live' loose' →
      name ∉ loose' ∧ ∀ child ∈ live' ∪ loose', child.parent ≠ some name)
    (left : ∀ exit live' loose', may exit live' loose' → may' exit (live'.erase name) loose') :
    Block.Spec pre body fun exit world => Leaves may' borrowed exit (world.reset name) := by
  refine inner.weaken (fun _ holds => holds) ?_
  rintro exit world ⟨inside, loose', allowed, owns⟩
  obtain ⟨notLoose, children⟩ := childless exit inside loose' allowed
  exact ⟨inside.erase name, loose', left exit inside loose' allowed, owns.reset free children named notLoose⟩

/-- An owner declared for a fresh handle: whatever its scope leaves, the
destructor takes its handle off the table. -/
theorem declare_leaves {name : Handle} {body : Cpp H α}
    (may : Exit (HTTPResponse H) String α → Finset Handle → Finset Handle → Prop)
    {may' : Exit (HTTPResponse H) String α → Finset Handle → Finset Handle → Prop} (fresh : name ∈ loose)
    (free : name ∉ borrowed) (named : name ≠ .error)
    (inner : Block.Spec (Owns (insert name live) borrowed (loose.erase name)) body (Leaves may borrowed))
    (childless : ∀ exit live' loose', may exit live' loose' →
      name ∉ loose' ∧ ∀ child ∈ live' ∪ loose', child.parent ≠ some name)
    (left : ∀ exit live' loose', may exit live' loose' → may' exit (live'.erase name) loose') :
    Block.Spec (Owns live borrowed loose) (declare name (.owning name) body) (Leaves may' borrowed) := by
  refine Block.Spec.scope (Owns (insert name live) borrowed (loose.erase name)) ?_ ?_
  · intro world owns
    refine owns.setOwner ?_ (fun other different => ⟨by simp [different], Iff.rfl⟩) (by simp [OwnHandle.owning])
      (fun _ => rfl) (by simp [OwnHandle.owning, free])
    rw [Finset.insert_union, ← Finset.union_insert, Finset.insert_erase fresh]
  · exact reset_leaves may free named inner childless left

theorem declare_falls {name : Handle} {body : Cpp H α} {value : α} (free : name ∉ borrowed) (named : name ≠ .error)
    (out : name ∉ live) (childless : ∀ child ∈ insert name live, child.parent ≠ some name)
    (inner : Falls (Owns (insert name live) borrowed ∅) (Owns (insert name live) borrowed ∅) body value) :
    Falls (Owns live borrowed {name}) (Owns live borrowed ∅) (declare name (.owning name) body) value := by
  have fallen : Block.Spec (Owns live borrowed {name}) (declare name (.owning name) body)
      (Leaves (fun exit live' loose' => exit = .fall value ∧ live' = live ∧ loose' = ∅) borrowed) := by
    refine declare_leaves (fun exit live' loose' => exit = .fall value ∧ live' = insert name live ∧ loose' = ∅)
      (Finset.mem_singleton_self name) free named ?_ ?_ ?_
    · rw [Finset.erase_singleton]
      exact inner.weaken (fun _ owns => owns) fun exit world fell => ⟨_, _, ⟨fell.1, rfl, rfl⟩, fell.2⟩
    · rintro exit live' loose' ⟨-, rfl, rfl⟩
      exact ⟨Finset.notMem_empty name, by simpa using childless⟩
    · rintro exit live' loose' ⟨fell, rfl, rfl⟩
      exact ⟨fell, Finset.erase_insert out, rfl⟩
  refine fallen.weaken (fun _ owns => owns) ?_
  rintro exit world ⟨live', loose', ⟨fell, rfl, rfl⟩, owns⟩
  exact ⟨fell, owns⟩

theorem declare_through {name : Handle} {body : Cpp H α} {after upper : Finset Handle} (free : name ∉ borrowed)
    (named : name ≠ .error) (out : name ∉ after)
    (childless : ∀ child ∈ insert name after ∪ insert name upper ∪ {.error}, child.parent ≠ some name)
    (inner : Block.Spec (Owns (insert name live) borrowed ∅) body
      (Leaves (through (insert name after) (insert name upper)) borrowed)) :
    Block.Spec (Owns live borrowed {name}) (declare name (.owning name) body)
      (Leaves (through after upper) borrowed) := by
  have known : ∀ (exit : Exit (HTTPResponse H) String α) live' loose',
      through (insert name after) (insert name upper) exit live' loose' →
        live' ∪ loose' ⊆ insert name after ∪ insert name upper ∪ {.error} ∧ loose' ⊆ {.error} := by
    intro exit live' loose' allowed
    cases exit with
    | fall value =>
      obtain ⟨rfl, rfl⟩ := allowed
      refine ⟨?_, Finset.empty_subset _⟩
      rw [Finset.union_empty, Finset.union_assoc]
      exact Finset.subset_union_left
    | ret result => exact ⟨Finset.union_subset_union (allowed.1.trans Finset.subset_union_right) allowed.2, allowed.2⟩
    | throw error => exact ⟨Finset.union_subset_union (allowed.1.trans Finset.subset_union_right) allowed.2, allowed.2⟩
  refine declare_leaves (through (insert name after) (insert name upper)) (Finset.mem_singleton_self name) free named
    ?_ ?_ ?_
  · simpa using inner
  · intro exit live' loose' allowed
    obtain ⟨below, atMost⟩ := known exit live' loose' allowed
    exact ⟨fun member => named (Finset.mem_singleton.mp (atMost member)),
      fun child member => childless child (below member)⟩
  · intro exit live' loose' allowed
    cases exit with
    | fall value =>
      obtain ⟨rfl, rfl⟩ := allowed
      exact ⟨Finset.erase_insert out, rfl⟩
    | ret result => exact ⟨Finset.subset_insert_iff.mp allowed.1, allowed.2⟩
    | throw error => exact ⟨Finset.subset_insert_iff.mp allowed.1, allowed.2⟩

theorem declare_within {name : Handle} {body : Cpp H α} {upper : Finset Handle} (free : name ∉ borrowed)
    (named : name ≠ .error) (childless : ∀ child ∈ insert name upper ∪ {.error}, child.parent ≠ some name)
    (inner : Block.Spec (Owns (insert name live) borrowed ∅) body (Leaves (within (insert name upper)) borrowed)) :
    Block.Spec (Owns live borrowed {name}) (declare name (.owning name) body) (Leaves (within upper) borrowed) := by
  refine declare_leaves (within (insert name upper)) (Finset.mem_singleton_self name) free named ?_ ?_ ?_
  · simpa using inner
  · rintro exit live' loose' ⟨below, atMost⟩
    refine ⟨fun member => named (Finset.mem_singleton.mp (atMost member)), fun child member => ?_⟩
    exact childless child (Finset.union_subset_union below atMost member)
  · rintro exit live' loose' ⟨below, atMost⟩
    exact ⟨Finset.subset_insert_iff.mp below, atMost⟩

theorem Falls.andThen {before mid after : World → Prop} {block : Cpp H α} {value : α} {next : α → Cpp H β} {result : β}
    (first : Falls before mid block value) (rest : Falls mid after (next value) result) :
    Falls before after (block >>= next) result := first.bind rest

/-- A question whose positive answer carries a new handle. -/
theorem ask_falls {self given : Handle} {made : Bool → Call} {answer : Bool} (owned : self ∈ live ∪ loose)
    (borrows : (made answer).consumes = false) (produced : (made true).produces = some given)
    (plain : (made false).produces = none) (fresh : given ∉ live ∪ loose) :
    Falls (Owns live borrowed loose) (Owns live borrowed (if answer then insert given loose else loose))
      (ask self made answer : Cpp H Bool) answer := by
  cases answer with
  | true => exact (host_produces given owned borrows produced fresh).andThen fun _ owns => ⟨rfl, owns⟩
  | false => exact (host_falls owned borrows plain).andThen fun _ owns => ⟨rfl, owns⟩

/-- An owner declared empty, which the body may fill. -/
theorem declareEmpty_leaves {name : Handle} {body : Cpp H α}
    (may : Exit (HTTPResponse H) String α → Finset Handle → Finset Handle → Prop)
    {may' : Exit (HTTPResponse H) String α → Finset Handle → Finset Handle → Prop} (out : name ∉ live)
    (free : name ∉ borrowed) (named : name ≠ .error)
    (inner : Block.Spec (Owns live borrowed loose) body (Leaves may borrowed))
    (childless : ∀ exit live' loose', may exit live' loose' →
      name ∉ loose' ∧ ∀ child ∈ live' ∪ loose', child.parent ≠ some name)
    (left : ∀ exit live' loose', may exit live' loose' → may' exit (live'.erase name) loose') :
    Block.Spec (Owns live borrowed loose) (declare name (.empty name) body) (Leaves may' borrowed) := by
  refine Block.Spec.scope (Owns live borrowed loose) ?_ ?_
  · intro world owns
    exact owns.setOwner rfl (fun _ _ => ⟨Iff.rfl, Iff.rfl⟩) (by simp [OwnHandle.empty, out]) (fun _ => rfl)
      (by simp [OwnHandle.empty, free])
  · exact reset_leaves may free named inner childless left

/-- Filling an empty owner from a temporary takes the handle into its care. -/
theorem moveAssign_falls {name : Handle} (fresh : name ∈ loose) (out : name ∉ live) :
    Falls (Owns live borrowed loose) (Owns (insert name live) borrowed (loose.erase name))
      (Block.modify (World.moveAssign name (.owning name)) : Cpp H Unit) () := by
  intro world owns
  refine ⟨rfl, ?_⟩
  have asserted : Owns live borrowed loose (world.record (.dAssert true)) :=
    owns.record rfl (by simp) (by simp [Event.actions])
  have dead : ((world.record (.dAssert true)).owners name).live = false := by simp [asserted.alive, out]
  change Owns _ _ _ (world.moveAssign name (.owning name))
  simp only [World.moveAssign, World.reset, OwnHandle.owning, beq_self_eq_true, dead]
  refine asserted.setOwner ?_ (fun other different => ⟨by simp [different], Iff.rfl⟩) (by simp) (fun _ => rfl)
    (asserted.borrows name)
  rw [Finset.insert_union, ← Finset.union_insert, Finset.insert_erase fresh]

end Rules

end WasiWheels.Transport
