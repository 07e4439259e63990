import WasiWheels.Core.Guest

/-! A host places a value in a guest: every list takes a room of its own, and the value
itself shrinks to spans. The guest reads the value back by following the spans, and the
rooms it has to free are exactly those the host took. -/

namespace WasiWheels

namespace Wit

open Memory (bytes bytes_subset bytes_before)
open Guest (Realloc Serves Grown)

/-- One step for every item, each on the guest the step before it left. -/
def thread {α β : Type} (step : α → Guest → Option (β × Guest)) : List α → Guest → Option (List β × Guest)
  | [], guest => some ([], guest)
  | item :: rest, guest => do
    let (first, guest) ← step item guest
    let (others, guest) ← thread step rest guest
    return (first :: others, guest)

/-- Items side by side. -/
def putAll (memory : Memory) (type : Ty) (base : Nat) : List (Data .spans type) → Memory
  | [] => memory
  | item :: rest => putAll (put memory type base item) type (base + type.size) rest

def getAll (memory : Memory) (type : Ty) (base : Nat) : Nat → Option (List (Data .spans type))
  | 0 => some []
  | count + 1 => do
    let first ← get memory type base
    let others ← getAll memory type (base + type.size) count
    return first :: others

/-- The room of a list: none when it does not fit a guest, or when the guest answers with a
misaligned one. -/
def roomFor (realloc : Realloc) (element : Ty) (count : Nat) (guest : Guest) : Option (Nat × Guest) := do
  guard (count * element.size < 2 ^ 32)
  let (base, guest) ← realloc guest element.align (count * element.size)
  guard (base % element.align = 0)
  return (base, guest)

mutual

def place (realloc : Realloc) : (type : Ty) → Data .lists type → Guest → Option (Data .spans type × Guest)
  | .word _, value, guest => some (value, guest)
  | .list element, items, guest => do
    let items : List (Data .lists element) := items
    let (base, guest) ← roomFor realloc element items.length guest
    let (spans, guest) ← thread (place realloc element) items guest
    return (⟨BitVec.ofNat 32 base, BitVec.ofNat 32 items.length⟩, guest.write (putAll guest.memory element base spans))
  | .record fields, values, guest => placeFields realloc fields values guest
  | .variant cases, value, guest => placeCase realloc cases value guest

def placeFields (realloc : Realloc) : (fields : Tys) → Fields .lists fields → Guest →
    Option (Fields .spans fields × Guest)
  | .nil, _, guest => some ((), guest)
  | .cons head tail, (first, rest), guest => do
    let (first, guest) ← place realloc head first guest
    let (rest, guest) ← placeFields realloc tail rest guest
    return ((first, rest), guest)

def placeCase (realloc : Realloc) : (cases : Tys) → Case .lists cases → Guest → Option (Case .spans cases × Guest)
  | .cons head _, .inl value, guest => do
    let (value, guest) ← place realloc head value guest
    return (.inl value, guest)
  | .cons _ tail, .inr other, guest => do
    let (other, guest) ← placeCase realloc tail other guest
    return (.inr other, guest)

end

mutual

/-- The value behind the spans. -/
def read (memory : Memory) : (type : Ty) → Data .spans type → Option (Data .lists type)
  | .word _, value => some value
  | .list element, ⟨ptr, len⟩ => do
    let spans ← getAll memory element ptr.toNat len.toNat
    let items ← spans.mapM (read memory element)
    return items
  | .record fields, values => readFields memory fields values
  | .variant cases, value => readCase memory cases value

def readFields (memory : Memory) : (fields : Tys) → Fields .spans fields → Option (Fields .lists fields)
  | .nil, _ => some ()
  | .cons head tail, (first, rest) => do
    let first ← read memory head first
    let rest ← readFields memory tail rest
    return (first, rest)

def readCase (memory : Memory) : (cases : Tys) → Case .spans cases → Option (Case .lists cases)
  | .cons head _, .inl value => (read memory head value).map .inl
  | .cons _ tail, .inr other => (readCase memory tail other).map .inr

end

mutual

/-- Where the lists of a value lie, each after the lists inside it. An empty one has no room. -/
def owned (memory : Memory) : (type : Ty) → Data .spans type → Option (List Nat)
  | .word _, _ => some []
  | .list element, ⟨ptr, len⟩ =>
    if len.toNat = 0 then some []
    else do
      let spans ← getAll memory element ptr.toNat len.toNat
      let inner ← spans.mapM (owned memory element)
      return inner.flatten ++ [ptr.toNat]
  | .record fields, values => ownedFields memory fields values
  | .variant cases, value => ownedCase memory cases value

def ownedFields (memory : Memory) : (fields : Tys) → Fields .spans fields → Option (List Nat)
  | .nil, _ => some []
  | .cons head tail, (first, rest) => do
    let first ← owned memory head first
    let rest ← ownedFields memory tail rest
    return first ++ rest

def ownedCase (memory : Memory) : (cases : Tys) → Case .spans cases → Option (List Nat)
  | .cons head _, .inl value => owned memory head value
  | .cons _ tail, .inr other => ownedCase memory tail other

end

private theorem item_subset (base count : Nat) (type : Ty) : bytes base type.size ⊆ bytes base ((count + 1) * type.size) := by
  rw [Nat.add_mul, Nat.one_mul]
  exact bytes_subset (Nat.le_refl base) (by omega)

private theorem items_subset (base count : Nat) (type : Ty) :
    bytes (base + type.size) (count * type.size) ⊆ bytes base ((count + 1) * type.size) := by
  rw [Nat.add_mul, Nat.one_mul]
  exact bytes_subset (Nat.le_add_right base _) (by omega)

theorem putAll_outside (memory : Memory) (type : Ty) (base : Nat) (items : List (Data .spans type)) :
    Set.EqOn (putAll memory type base items) memory (bytes base (items.length * type.size))ᶜ := by
  induction items generalizing memory base with
  | nil => exact Set.eqOn_refl _ _
  | cons item rest ih =>
    have here := (put_outside memory type base item).mono
      (Set.compl_subset_compl.mpr (item_subset base rest.length type))
    have later := (ih (put memory type base item) (base + type.size)).mono
      (Set.compl_subset_compl.mpr (items_subset base rest.length type))
    exact later.trans here

theorem getAll_congr {first second : Memory} (type : Ty) (base count : Nat)
    (agree : Set.EqOn first second (bytes base (count * type.size))) :
    getAll first type base count = getAll second type base count := by
  induction count generalizing base with
  | zero => rfl
  | succ count ih =>
    rw [getAll, getAll, get_congr type base (agree.mono (item_subset base count type)),
      ih (base + type.size) (agree.mono (items_subset base count type))]

theorem getAll_putAll (memory : Memory) {type : Ty} (legal : type.Legal) (base : Nat) (items : List (Data .spans type)) :
    getAll (putAll memory type base items) type base items.length = some items := by
  induction items generalizing memory base with
  | nil => rfl
  | cons item rest ih =>
    have kept : Set.EqOn (putAll (put memory type base item) type (base + type.size) rest) (put memory type base item)
        (bytes base type.size) := (putAll_outside _ type (base + type.size) rest).mono (bytes_before (Nat.le_refl _))
    rw [List.length_cons, getAll, putAll, get_congr type base kept, get_put memory type legal, ih]
    rfl

/-- A placed value: some rooms are new, and as long as they keep their bytes, the value is
read back and its lists are those rooms. -/
def Placed {V : Type} (before after : Guest) (value : V) (reading : Memory → Option V)
    (owning : Memory → Option (List Nat)) : Prop :=
  ∃ rooms, Grown before after rooms ∧ ∀ memory, Set.EqOn memory after.memory (covered rooms) →
    reading memory = some value ∧ ∃ frees, owning memory = some frees ∧ frees.Perm (rooms.map Room.base)

namespace Placed

variable {V W X : Type} {first second third : Guest}

theorem nothing {value : V} {reading : Memory → Option V} {owning : Memory → Option (List Nat)} (guest : Guest)
    (reads : ∀ memory, reading memory = some value) (owns : ∀ memory, owning memory = some []) :
    Placed guest guest value reading owning :=
  ⟨[], Grown.refl guest, fun memory _ => ⟨reads memory, [], owns memory, List.Perm.refl _⟩⟩

theorem map {value : V} {reading : Memory → Option V} {owning : Memory → Option (List Nat)} (change : V → W)
    (placed : Placed first second value reading owning) :
    Placed first second (change value) (fun memory => (reading memory).map change) owning := by
  obtain ⟨rooms, grown, holds⟩ := placed
  refine ⟨rooms, grown, fun memory agree => ?_⟩
  obtain ⟨reads, owns⟩ := holds memory agree
  exact ⟨by simp only [reads, Option.map_some], owns⟩

/-- Two values, one placed after the other. -/
theorem both {value : V} {other : W} {reading : Memory → Option V} {others : Memory → Option W}
    {owning owns : Memory → Option (List Nat)} (join : V → W → X) (here : Placed first second value reading owning)
    (later : Placed second third other others owns) :
    Placed first third (join value other)
      (fun memory => do
        let value ← reading memory
        let other ← others memory
        return join value other)
      (fun memory => do
        let frees ← owning memory
        let more ← owns memory
        return frees ++ more) := by
  obtain ⟨rooms, grown, holds⟩ := here
  obtain ⟨more, grows, held⟩ := later
  refine ⟨more ++ rooms, grown.trans grows, fun memory agree => ?_⟩
  rw [covered_append] at agree
  -- the second value was placed away from the rooms of the first
  have kept : Set.EqOn third.memory second.memory (covered rooms) :=
    grows.kept.mono (covered_subset (by rw [grown.rooms]; exact List.subset_append_left _ _))
  obtain ⟨reads, frees, gives, order⟩ := holds memory ((agree.mono Set.subset_union_right).trans kept)
  obtain ⟨readsMore, freesMore, givesMore, orderMore⟩ := held memory (agree.mono Set.subset_union_left)
  refine ⟨by simp [reads, readsMore], frees ++ freesMore, by simp [gives, givesMore], ?_⟩
  rw [List.map_append]
  exact (order.append orderMore).trans List.perm_append_comm

theorem congr {value : V} {reading reads : Memory → Option V} {owning owns : Memory → Option (List Nat)}
    (placed : Placed first second value reading owning) (reading_eq : ∀ memory, reads memory = reading memory)
    (owning_eq : ∀ memory, owns memory = owning memory) : Placed first second value reads owns := by
  rwa [show reads = reading from funext reading_eq, show owns = owning from funext owning_eq]

/-- Items placed one after the other. -/
theorem thread {A B : Type} {step : A → Guest → Option (B × Guest)} {reading : Memory → B → Option A}
    {owning : Memory → B → Option (List Nat)}
    (each : ∀ {item guest span after}, step item guest = some (span, after) →
      Placed guest after item (fun memory => reading memory span) (fun memory => owning memory span))
    {items : List A} {guest : Guest} {spans : List B} {after : Guest}
    (placed : Wit.thread step items guest = some (spans, after)) :
    spans.length = items.length ∧ Placed guest after items (fun memory => spans.mapM (reading memory))
      (fun memory => (spans.mapM (owning memory)).map List.flatten) := by
  induction items generalizing guest spans with
  | nil =>
    obtain ⟨rfl, rfl⟩ := Prod.mk.inj (Option.some.inj placed)
    exact ⟨rfl, nothing guest (fun _ => rfl) (fun _ => rfl)⟩
  | cons item rest ih =>
    simp only [Wit.thread, Option.bind_eq_bind, Option.bind_eq_some_iff, Option.pure_def, Option.some.injEq,
      Prod.exists, Prod.mk.injEq] at placed
    obtain ⟨span, middle, head, others, last, tail, rfl, rfl⟩ := placed
    obtain ⟨count, later⟩ := ih tail
    refine ⟨congrArg (· + 1) count, ((each head).both (· :: ·) later).congr (fun memory => ?_) (fun memory => ?_)⟩
    · simp [List.mapM_cons]
    · cases here : owning memory span with
      | none => simp [List.mapM_cons, here]
      | some frees =>
        cases there : others.mapM (owning memory) with
        | none => simp [List.mapM_cons, here, there]
        | some more => simp [List.mapM_cons, here, there]

/-- Items written to the room taken for them. -/
private theorem written {element : Ty} (legal : element.Legal) {items : List (Data .lists element)}
    {spans : List (Data .spans element)} {guest taken after : Guest} {base : Nat}
    (grown : Grown guest taken [⟨base, spans.length * element.size⟩])
    (placed : Placed taken after items (fun memory => spans.mapM (read memory element))
      (fun memory => (spans.mapM (owned memory element)).map List.flatten)) :
    Placed guest (after.write (putAll after.memory element base spans)) items
      (fun memory => do
        let spans ← getAll memory element base spans.length
        spans.mapM (read memory element))
      (fun memory => do
        let spans ← getAll memory element base spans.length
        let inner ← spans.mapM (owned memory element)
        return inner.flatten ++ [base]) := by
  obtain ⟨rooms, grows, holds⟩ := placed
  have all := grown.trans grows
  have outside := putAll_outside after.memory element base spans
  -- the room of the items is away from the rooms inside them and from those before
  have room : bytes base (spans.length * element.size) = covered [⟨base, spans.length * element.size⟩] :=
    (covered_singleton ⟨base, spans.length * element.size⟩).symm
  have inner : covered rooms ⊆ (bytes base (spans.length * element.size))ᶜ := by
    rw [room]
    refine (grows.disjoint.mono_right (covered_subset ?_)).subset_compl_right
    rw [grown.rooms]
    exact List.subset_append_left _ _
  have old : covered guest.rooms ⊆ (bytes base (spans.length * element.size))ᶜ := by
    rw [room]
    exact grown.disjoint.symm.subset_compl_right
  have whole : Grown guest (after.write (putAll after.memory element base spans))
      (rooms ++ [⟨base, spans.length * element.size⟩]) := ⟨all.rooms, (outside.mono old).trans all.kept⟩
  refine ⟨_, whole, fun memory agree => ?_⟩
  rw [covered_append, ← room] at agree
  obtain ⟨reads, frees, gives, order⟩ := holds memory ((agree.mono Set.subset_union_left).trans (outside.mono inner))
  have got : getAll memory element base spans.length = some spans := by
    rw [getAll_congr element base spans.length (agree.mono Set.subset_union_right), Guest.write_memory,
      getAll_putAll after.memory legal]
  obtain ⟨lists, each, rfl⟩ := Option.map_eq_some_iff.mp gives
  refine ⟨by simp only [got, Option.bind_eq_bind, Option.bind_some, reads], lists.flatten ++ [base], ?_, ?_⟩
  · simp only [got, each, Option.bind_eq_bind, Option.bind_some, Option.pure_def]
  · rw [List.map_append]
    exact order.append_right _

/-- A list, once its items are placed: it lies in the room taken for it. -/
theorem list {realloc : Realloc} (serves : Serves realloc) {element : Ty} (legal : (Ty.list element).Legal)
    {items : List (Data .lists element)} {spans : List (Data .spans element)} {guest taken after : Guest} {base : Nat}
    (room : roomFor realloc element items.length guest = some (base, taken)) (count : spans.length = items.length)
    (placed : Placed taken after items (fun memory => spans.mapM (read memory element))
      (fun memory => (spans.mapM (owned memory element)).map List.flatten)) :
    Placed guest (after.write (putAll after.memory element base spans)) items
      (fun memory => read memory (.list element) ⟨BitVec.ofNat 32 base, BitVec.ofNat 32 items.length⟩)
      (fun memory => owned memory (.list element) ⟨BitVec.ofNat 32 base, BitVec.ofNat 32 items.length⟩) := by
  simp only [roomFor, Option.bind_eq_bind, Option.bind_eq_some_iff, Option.pure_def, Option.some.injEq, Prod.exists,
    Prod.mk.injEq, Option.guard_eq_some', exists_const] at room
  obtain ⟨fits, base, taken, answer, -, rfl, rfl⟩ := room
  have sized : 0 < element.size := legal.1
  have short : items.length ≤ items.length * element.size := Nat.le_mul_of_pos_right _ sized
  have len : (BitVec.ofNat 32 items.length).toNat = items.length := by
    rw [BitVec.toNat_ofNat, Nat.mod_eq_of_lt (by omega)]
  by_cases empty : items.length = 0
  · obtain rfl := List.eq_nil_of_length_eq_zero (count.trans empty)
    obtain rfl := List.eq_nil_of_length_eq_zero empty
    rw [empty, Nat.zero_mul] at answer
    obtain rfl := serves.idle answer
    exact placed.congr (fun memory => rfl) (fun memory => rfl)
  · obtain ⟨rooms, kept⟩ := serves.takes (by omega) answer
    have grown : Grown guest taken [⟨base, spans.length * element.size⟩] := ⟨by rw [count]; exact rooms, kept⟩
    have ptr : (BitVec.ofNat 32 base).toNat = base := by
      have inside := (taken.addressable _ (by rw [rooms]; exact List.mem_cons_self)).2
      rw [BitVec.toNat_ofNat, Nat.mod_eq_of_lt (by simp only at inside; omega)]
    refine (written legal.2 grown placed).congr (fun memory => ?_) (fun memory => ?_)
    · simp only [read, ptr, len, count]
    · simp only [owned, ptr, len, if_neg empty, count]

end Placed

section Places

variable {realloc : Realloc}

mutual

theorem place_placed (serves : Serves realloc) : (type : Ty) → type.Legal → (value : Data .lists type) → {guest after : Guest} →
    {spans : Data .spans type} → place realloc type value guest = some (spans, after) →
    Placed guest after value (fun memory => read memory type spans) (fun memory => owned memory type spans)
  | .word _, _, value, guest, _, _, placed => by
    obtain ⟨rfl, rfl⟩ := Prod.mk.inj (Option.some.inj placed)
    exact .nothing guest (fun _ => rfl) (fun _ => rfl)
  | .list element, legal, items, guest, _, _, placed => by
    simp only [place, Option.bind_eq_bind, Option.bind_eq_some_iff, Option.pure_def, Option.some.injEq,
      Prod.exists] at placed
    obtain ⟨base, taken, room, spans, last, inner, ended⟩ := placed
    cases ended
    obtain ⟨count, each⟩ := Placed.thread (fun here => place_placed serves element legal.2 _ here) inner
    exact .list serves legal room count each
  | .record fields, legal, values, _, _, _, placed => placeFields_placed serves fields legal values placed
  | .variant cases, ⟨_, legal⟩, value, _, _, _, placed => placeCase_placed serves cases legal value placed

theorem placeFields_placed (serves : Serves realloc) : (fields : Tys) → fields.Legal → (values : Fields .lists fields) → {guest after : Guest} →
    {spans : Fields .spans fields} → placeFields realloc fields values guest = some (spans, after) →
    Placed guest after values (fun memory => readFields memory fields spans)
      (fun memory => ownedFields memory fields spans)
  | .nil, _, _, guest, _, _, placed => by
    obtain ⟨rfl, rfl⟩ := Prod.mk.inj (Option.some.inj placed)
    exact .nothing guest (fun _ => rfl) (fun _ => rfl)
  | .cons head tail, legal, (first, rest), _, _, _, placed => by
    simp only [placeFields, Option.bind_eq_bind, Option.bind_eq_some_iff, Option.pure_def, Option.some.injEq,
      Prod.exists] at placed
    obtain ⟨span, middle, here, spans, last, later, ended⟩ := placed
    cases ended
    exact (place_placed serves head legal.1 first here).both Prod.mk (placeFields_placed serves tail legal.2 rest later)

theorem placeCase_placed (serves : Serves realloc) : (cases : Tys) → cases.Legal → (value : Case .lists cases) → {guest after : Guest} →
    {spans : Case .spans cases} → placeCase realloc cases value guest = some (spans, after) →
    Placed guest after value (fun memory => readCase memory cases spans) (fun memory => ownedCase memory cases spans)
  | .cons head _, legal, .inl value, _, _, _, placed => by
    simp only [placeCase, Option.bind_eq_bind, Option.bind_eq_some_iff, Option.pure_def, Option.some.injEq,
      Prod.exists] at placed
    obtain ⟨span, last, here, ended⟩ := placed
    cases ended
    exact (place_placed serves head legal.1 value here).map Sum.inl
  | .cons _ tail, legal, .inr other, _, _, _, placed => by
    simp only [placeCase, Option.bind_eq_bind, Option.bind_eq_some_iff, Option.pure_def, Option.some.injEq,
      Prod.exists] at placed
    obtain ⟨span, last, here, ended⟩ := placed
    cases ended
    exact (placeCase_placed serves tail legal.2 other here).map Sum.inr

end

end Places

/-- A host answers at an address the guest gave it. -/
def answer (realloc : Realloc) (type : Ty) (value : Data .lists type) (area : Nat) (guest : Guest) : Option Guest := do
  let (spans, guest) ← place realloc type value guest
  return guest.write (put guest.memory type area spans)

/-- The guest gets the answer at its own variable, and what it gets owns the rooms taken for it and
holds the value as long as they keep their bytes; its other rooms keep theirs. -/
structure Answered (type : Ty) (value : Data .lists type) (area : Nat) (before after : Guest) (spans : Data .spans type)
    (rooms : List Room) (frees : List Nat) : Prop where
  got : get after.memory type area = some spans
  reads : ∀ memory, Set.EqOn memory after.memory (covered rooms) → read memory type spans = some value
  owns : owned after.memory type spans = some frees
  order : frees.Perm (rooms.map Room.base)
  rooms : after.rooms = rooms ++ before.rooms
  kept : Set.EqOn after.memory before.memory (covered before.rooms \ bytes area type.size)

theorem answer_answered {realloc : Realloc} (serves : Serves realloc) {type : Ty} (legal : type.Legal)
    {value : Data .lists type} {area : Nat} {guest after : Guest} (room : ⟨area, type.size⟩ ∈ guest.rooms)
    (answered : answer realloc type value area guest = some after) :
    ∃ spans rooms frees, Answered type value area guest after spans rooms frees := by
  simp only [answer, Option.bind_eq_bind, Option.bind_eq_some_iff, Option.pure_def, Option.some.injEq,
    Prod.exists] at answered
  obtain ⟨spans, placed, here, rfl⟩ := answered
  obtain ⟨rooms, grown, holds⟩ := place_placed serves type legal value here
  have outside := put_outside placed.memory type area spans
  have away : covered rooms ⊆ (bytes area type.size)ᶜ := by
    refine (grown.disjoint.mono_right ?_).subset_compl_right
    exact fun address inside => ⟨_, room, inside⟩
  obtain ⟨-, frees, owns, order⟩ := holds (put placed.memory type area spans) (outside.mono away)
  have reads : ∀ memory, Set.EqOn memory (put placed.memory type area spans) (covered rooms) →
      read memory type spans = some value := fun memory agree => (holds memory (agree.trans (outside.mono away))).1
  exact ⟨spans, rooms, frees, get_put placed.memory type legal area spans, reads, owns, order, grown.rooms,
    (outside.mono fun _ inside => inside.2).trans (grown.kept.mono fun _ inside => inside.1)⟩

end Wit

end WasiWheels
