import WasiWheels.Build.Packing

/-! Whole histories of invocations with failures: of a component's Makefile, or of the
root's, which recurses into every component and copies the wheels into `dist/`. -/

namespace WasiWheels.Build

open Make

/-- The working trees of the hand-zipped components, and the wheels in `dist/`. -/
structure Workshop (β : Type) where
  disk : HandZipped → Disk File (Item β)
  dist : HandZipped → Option (Item β)

/-- One invocation, with everything that goes wrong in it. -/
inductive Event (β : Type) where
  /-- `make -C <component>` -/
  | subdir (wheel : HandZipped) (incident : Incident β)
  /-- `make wheels`: the other components may fail, and so may every `cp` and the `sha256sum`. -/
  | wheels (incident : HandZipped → Incident β) (others : Component → Bool)
      (spoiled : Component → Option (Option (Item β))) (sums : Bool)

section Runs

variable (text : String → β) (version : HandZipped → String)

/-- The phony prerequisites of `.collected`, up to the first that fails. -/
def buildAll (incident : HandZipped → Incident β) (others : Component → Bool) :
    List Component → (HandZipped → Disk File (Item β)) → Bool × (HandZipped → Disk File (Item β))
  | [], disk => (true, disk)
  | component :: rest, disk =>
    match component.handZipped? with
    | some wheel =>
      let built := wheel.build text (version wheel) (incident wheel) (disk wheel)
      if built.1 then buildAll incident others rest (Function.update disk wheel built.2)
      else (false, Function.update disk wheel built.2)
    | none => if others component then buildAll incident others rest disk else (false, disk)

/-- The `cp` lines of `.collected`; a spoiled one leaves what it says in `dist/`. -/
def copyAll (spoiled : Component → Option (Option (Item β))) (disk : HandZipped → Disk File (Item β)) :
    List Component → (HandZipped → Option (Item β)) → Bool × (HandZipped → Option (Item β))
  | [], dist => (true, dist)
  | component :: rest, dist =>
    match component.handZipped?, spoiled component with
    | some wheel, none => copyAll spoiled disk rest (Function.update dist wheel (contentOf (disk wheel) .wheel))
    | some wheel, some left => (false, Function.update dist wheel left)
    | none, none => copyAll spoiled disk rest dist
    | none, some _ => (false, dist)

def Workshop.step (workshop : Workshop β) : Event β → Bool × Workshop β
  | .subdir wheel incident =>
    let built := wheel.build text (version wheel) incident (workshop.disk wheel)
    (built.1, { workshop with disk := Function.update workshop.disk wheel built.2 })
  | .wheels incident others spoiled sums =>
    let built := buildAll text version incident others Component.all workshop.disk
    if built.1 then
      let copied := copyAll spoiled built.2 Component.all workshop.dist
      (copied.1 && sums, ⟨built.2, copied.2⟩)
    else (false, { workshop with disk := built.2 })

/-- A fresh clone: the files under version control, nothing built or collected. -/
def Workshop.checkout (sources : File → Item β) : Workshop β where
  disk := fun wheel => Disk.checkout wheel.component.sources sources
  dist := fun _ => none

def Workshop.run (sources : File → Item β) (history : List (Event β)) : Workshop β :=
  history.foldl (fun workshop event => (workshop.step text version event).2) (Workshop.checkout sources)

end Runs

/-- Nothing goes wrong in any packaging run once it has truncated its output. -/
def Event.Contained : Event β → Prop
  | .subdir _ incident => incident.pack.Contained
  | .wheels incident _ _ _ => ∀ wheel, (incident wheel).pack.Contained

/-- Make trusts complete wheels only, a success leaves the wheels it was for complete,
and those in `dist/` are copies of them. -/
def Event.Sealed (outcome : Bool × Workshop β) : Event β → Prop
  | .subdir wheel _ => (∀ other : HandZipped, other.Trusted (outcome.2.disk other)) ∧
      (outcome.1 = true → Packed (outcome.2.disk wheel))
  | .wheels _ _ _ _ => (∀ other : HandZipped, other.Trusted (outcome.2.disk other)) ∧
      (outcome.1 = true → ∀ wheel, Packed (outcome.2.disk wheel) ∧
        outcome.2.dist wheel = contentOf (outcome.2.disk wheel) .wheel)

/-- Every invocation of the history is sealed. -/
def Reliable (text : String → β) (version : HandZipped → String) (sources : File → Item β)
    (history : List (Event β)) : Prop :=
  ∀ before event after, history = before ++ event :: after →
    event.Sealed ((Workshop.run text version sources before).step text version event)

section Proofs

variable {text : String → β} {version : HandZipped → String}

theorem buildAll_trusted {incident : HandZipped → Incident β} (contained : ∀ wheel, (incident wheel).pack.Contained)
    (others : Component → Bool) (components : List Component) (disk : HandZipped → Disk File (Item β))
    (trusted : ∀ wheel : HandZipped, wheel.Trusted (disk wheel)) :
    (∀ wheel : HandZipped, wheel.Trusted ((buildAll text version incident others components disk).2 wheel)) ∧
      ((buildAll text version incident others components disk).1 = true →
        ∀ wheel : HandZipped, wheel.component ∈ components ∨ Packed (disk wheel) →
          Packed ((buildAll text version incident others components disk).2 wheel)) := by
  induction components generalizing disk with
  | nil => exact ⟨trusted, by simp [buildAll]⟩
  | cons component rest ih =>
    rw [buildAll]
    cases hand : component.handZipped? with
    | none =>
      cases others component with
      | false => exact ⟨trusted, by simp⟩
      | true =>
        obtain ⟨kept, packed⟩ := ih disk trusted
        refine ⟨kept, ?_⟩
        intro success wheel ready
        apply packed success wheel
        rcases ready with member | already
        · rcases List.mem_cons.mp member with same | tail
          · rw [Component.handZipped_iff.mpr same.symm] at hand
            cases hand
          · exact Or.inl tail
        · exact Or.inr already
    | some wheel =>
      obtain ⟨kept, packed⟩ := @HandZipped.build_trusted _ text (version wheel) _ wheel (contained wheel) _
        (trusted wheel)
      have kept' : ∀ other : HandZipped, other.Trusted (Function.update disk wheel
          (wheel.build text (version wheel) (incident wheel) (disk wheel)).2 other) := by
        intro other
        by_cases same : other = wheel
        · subst same
          rw [Function.update_self]
          exact kept
        · rw [Function.update_of_ne same]
          exact trusted other
      dsimp only
      split
      · rename_i success
        obtain ⟨final, rest_⟩ := ih _ kept'
        refine ⟨final, ?_⟩
        intro through other ready
        apply rest_ through other
        by_cases same : other = wheel
        · subst same
          right
          rw [Function.update_self]
          exact packed success
        · rcases ready with member | already
          · rcases List.mem_cons.mp member with first | tail
            · rw [Component.handZipped_iff.mpr first.symm, Option.some.injEq] at hand
              exact absurd hand same
            · exact Or.inl tail
          · right
            rw [Function.update_of_ne same]
            exact already
      · exact ⟨kept', by simp⟩

/-- When every `cp` succeeds, `dist/` has a copy of each wheel. -/
theorem copyAll_copies (spoiled : Component → Option (Option (Item β))) (disk : HandZipped → Disk File (Item β))
    (components : List Component) (dist : HandZipped → Option (Item β))
    (success : (copyAll spoiled disk components dist).1 = true) (wheel : HandZipped)
    (ready : wheel.component ∈ components ∨ dist wheel = contentOf (disk wheel) .wheel) :
    (copyAll spoiled disk components dist).2 wheel = contentOf (disk wheel) .wheel := by
  induction components generalizing dist with
  | nil => simpa [copyAll] using ready
  | cons component rest ih =>
    rw [copyAll] at success ⊢
    cases hand : component.handZipped? with
    | none =>
      cases spoils : spoiled component with
      | some left => simp [hand, spoils] at success
      | none =>
        simp only [hand, spoils] at success ⊢
        apply ih dist success
        rcases ready with member | already
        · rcases List.mem_cons.mp member with first | tail
          · rw [Component.handZipped_iff.mpr first.symm] at hand
            cases hand
          · exact Or.inl tail
        · exact Or.inr already
    | some copied =>
      cases spoils : spoiled component with
      | some left => simp [hand, spoils] at success
      | none =>
        simp only [hand, spoils] at success ⊢
        apply ih _ success
        by_cases same : wheel = copied
        · subst same
          exact Or.inr (Function.update_self ..)
        · rcases ready with member | already
          · rcases List.mem_cons.mp member with first | tail
            · rw [Component.handZipped_iff.mpr first.symm, Option.some.injEq] at hand
              exact absurd hand.symm (Ne.symm same)
            · exact Or.inl tail
          · exact Or.inr ((Function.update_of_ne same _ _).trans already)

theorem Workshop.step_sealed {event : Event β} (contained : event.Contained) {workshop : Workshop β}
    (trusted : ∀ wheel : HandZipped, wheel.Trusted (workshop.disk wheel)) :
    event.Sealed (workshop.step text version event) := by
  cases event with
  | subdir wheel incident =>
    obtain ⟨kept, packed⟩ := @HandZipped.build_trusted _ text (version wheel) _ wheel contained _ (trusted wheel)
    constructor
    · intro other
      by_cases same : other = wheel
      · subst same
        simpa [step] using kept
      · simpa [step, Function.update_of_ne same] using trusted other
    · intro success
      simpa [step] using packed success
  | wheels incident others spoiled sums =>
    obtain ⟨kept, packed⟩ := @buildAll_trusted _ text version _ contained others Component.all
      workshop.disk trusted
    unfold Event.Sealed step
    dsimp only
    split
    · rename_i built
      refine ⟨kept, ?_⟩
      intro success wheel
      have copied := copyAll_copies spoiled _ Component.all workshop.dist (Bool.and_eq_true_iff.mp success).1 wheel
        (Or.inl (Component.mem_all _))
      exact ⟨packed built wheel (Or.inl (Component.mem_all _)), copied⟩
    · exact ⟨kept, by simp⟩

theorem Event.Sealed.trusted {event : Event β} {outcome : Bool × Workshop β} (sealed_ : event.Sealed outcome) :
    ∀ wheel : HandZipped, wheel.Trusted (outcome.2.disk wheel) := by
  cases event with
  | subdir wheel incident => exact sealed_.1
  | wheels incident others spoiled sums => exact sealed_.1

theorem Workshop.run_trusted (sources : File → Item β) (history : List (Event β))
    (contained : ∀ event ∈ history, event.Contained) :
    ∀ wheel : HandZipped, wheel.Trusted ((Workshop.run text version sources history).disk wheel) := by
  induction history using List.reverseRecOn with
  | nil =>
    intro wheel node member own current
    obtain ⟨_, made, found, _⟩ := (Node.current_iff _ _).mp current
    have fresh := wheel.component.ordered.fresh node member
    simp [Workshop.run, Workshop.checkout, Disk.checkout, fresh] at found
  | append_singleton before event ih =>
    rw [Workshop.run, List.foldl_append]
    have trusted := ih fun other member => contained other (List.mem_append_left _ member)
    exact (Workshop.step_sealed (contained event (by simp)) trusted).trusted

/-- If no packaging run fails after truncating its output, every invocation of any history is sealed. -/
theorem reliable_of_contained (text : String → β) (version : HandZipped → String) (sources : File → Item β)
    (history : List (Event β)) (contained : ∀ event ∈ history, event.Contained) :
    Reliable text version sources history := by
  intro before event after split
  apply Workshop.step_sealed
  · exact contained event (by simp [split])
  · apply Workshop.run_trusted
    exact fun other member => contained other (by rw [split]; exact List.mem_append_left _ member)

end Proofs

/-- Recipes that go well: unpacked sources, a linked module, and a mode stamp written the first time. -/
def uneventful (first : Bool) : File → Upshot String
  | .setupPy => .made (.tree (Listing.empty.put (["src", "cffi", "__init__.py"], "import _cffi_backend")))
  | .extension => .made (.file "_cffi_backend")
  | .buildMode => if first then .made (.file "release") else .kept
  | _ => .made (.file "")

def cffiVersion : HandZipped → String := fun _ => "2.0.0"

/-- The module cannot be opened while packing. -/
def interrupted : Event String :=
  .subdir .cffi { upshot := uneventful true, pack := { walk := fun index => if index = 0 then some (.read "") else none } }

def retried : Event String := .subdir .cffi { upshot := uneventful false }

def entriesOf (disk : Disk File (Item β)) : List (Path × β) :=
  match contentOf disk .wheel with
  | some (.archive archive) => archive.entries
  | _ => []

/-- The second run succeeds and leaves the half-packed wheel where it is. -/
theorem interrupted_wheel_accepted : ¬ Reliable id cffiVersion (fun _ => .file "") [interrupted, retried] := by
  intro reliable
  have sealed_ := reliable [interrupted] retried [] rfl
  have success : ((Workshop.run id cffiVersion (fun _ => .file "") [interrupted]).step id cffiVersion retried).1 =
      true := by decide +kernel
  obtain ⟨archive, found, complete⟩ := sealed_.2 success
  have staged := complete.2 (["cffi", "__init__.py"], "import _cffi_backend") (by decide +kernel)
  have entries : entriesOf (((Workshop.run id cffiVersion (fun _ => .file "") [interrupted]).step id cffiVersion
      retried).2.disk .cffi) = [(["_cffi_backend.abi3.so"], "")] := by decide +kernel
  simp only [entriesOf, found] at entries
  rw [entries] at staged
  exact absurd staged (by decide)

/-- A build, and a later one whose packaging cannot create its output. -/
theorem reliable_uncreated : Reliable id cffiVersion (fun _ => .file "")
    [.subdir .cffi { upshot := uneventful true },
      .subdir .cffi { upshot := uneventful true, pack := { create := true } }] := by
  apply reliable_of_contained
  intro event member
  rcases List.mem_cons.mp member with first | second
  · subst first
    exact Or.inr ⟨fun _ => rfl, rfl⟩
  · rw [List.mem_singleton.mp second]
    exact Or.inl rfl

end WasiWheels.Build
