import Mathlib.Logic.Function.Basic
import WasiWheels.Native.Limits

/-! Types as they lie in memory, where several of them point to one element and laying it
out is seen through each. -/

namespace WasiWheels.Native

/-- What the library writes of an `ffi_type`. -/
structure Extent where
  size : Unsigned
  alignment : BitVec 16
  deriving DecidableEq

/-- The extents of all types in memory. -/
abbrev Extents := Unsigned → Extent

/-- What it does not write: for each address the kind of type, and the addresses `elements`
points to, up to the null pointer. -/
structure Graph where
  type : Unsigned → TypeId
  elements : Unsigned → Option (List Unsigned)
  float : Unsigned

def FfiType.extent (type : FfiType) : Extent := ⟨type.size, type.alignment⟩

/-- What can be told of a type without following its elements. -/
def FfiType.head (type : FfiType) : FfiType := { type with elements := none }

/-- What is reached behind an element. -/
def Extent.add (reached element : Extent) : Extent where
  size := ffiAlign reached.size element.alignment + element.size
  alignment := if reached.alignment > element.alignment then reached.alignment else element.alignment

/-- An element of size 0 is laid out before it is used. -/
def ensure (aggregate : Extents → Unsigned → Option (FfiStatus × Extents)) (extents : Extents) (type : Unsigned) :
    Option (FfiStatus × Extents) :=
  if (extents type).size = 0 then aggregate extents type else some (.ok, extents)

/-- The loop of `initialize_aggregate`, which keeps what it has reached in `arg` itself. -/
def aggregateLoop (aggregate : Extents → Unsigned → Option (FfiStatus × Extents)) (arg : Unsigned) :
    List Unsigned → Extents → Option (FfiStatus × Extents)
  | [], extents =>
    let size := ffiAlign (extents arg).size (extents arg).alignment
    some (if size = 0 then .badTypedef else .ok, Function.update extents arg ⟨size, (extents arg).alignment⟩)
  | ptr :: rest, extents => do
    let (status, extents) ← ensure aggregate extents ptr
    if status ≠ .ok then some (.badTypedef, extents)
    else aggregateLoop aggregate arg rest (Function.update extents arg ((extents arg).add (extents ptr)))

/-- The size and alignment a type has once it is laid out. -/
def FfiType.settled (type : FfiType) : Except FfiStatus Extent := (initialized type).map FfiType.extent

theorem FfiType.settled_sized {type : FfiType} (sized : type.size ≠ 0) : type.settled = .ok type.extent := by
  rw [settled, initialized, if_neg sized]
  rfl

/-- What the loop over elements reaches. -/
def settledLoop (elements : List FfiType) (reached : Extent) : Except FfiStatus Extent :=
  (initializeElements elements reached.size reached.alignment).map fun (_, size, alignment) => ⟨size, alignment⟩

theorem settledLoop_cons (element : FfiType) (rest : List FfiType) (reached : Extent) :
    settledLoop (element :: rest) reached = element.settled >>= fun extent => settledLoop rest (reached.add extent) := by
  rw [settledLoop, initializeElements_cons, FfiType.settled]
  cases initialized element with
  | error status => rfl
  | ok laid =>
    change ((initializeElements rest (reached.add laid.extent).size (reached.add laid.extent).alignment).bind _).map _ =
      (initializeElements rest (reached.add laid.extent).size (reached.add laid.extent).alignment).map _
    cases initializeElements rest (reached.add laid.extent).size (reached.add laid.extent).alignment with
    | error status => rfl
    | ok pair => rfl

/-- Only what the elements settle to matters. -/
theorem settledLoop_congr {elements elements' : List FfiType}
    (same : elements.map FfiType.settled = elements'.map FfiType.settled) (reached : Extent) :
    settledLoop elements reached = settledLoop elements' reached := by
  induction elements generalizing elements' reached with
  | nil => rw [List.map_eq_nil_iff.mp same.symm]
  | cons element rest ih =>
    cases elements' with
    | nil => exact absurd same (List.cons_ne_nil _ _)
    | cons element' rest' =>
      obtain ⟨first, later⟩ := List.cons.inj same
      rw [settledLoop_cons, settledLoop_cons, first]
      cases element'.settled with
      | error status => rfl
      | ok extent => exact ih later _

/-- What a loop leaves behind that is refused: everything before the element at fault. -/
def leftBehind : List FfiType → Extent → Extent
  | [], reached => ⟨ffiAlign reached.size reached.alignment, reached.alignment⟩
  | element :: rest, reached =>
    match element.settled with
    | .error _ => reached
    | .ok extent => leftBehind rest (reached.add extent)

theorem leftBehind_congr {elements elements' : List FfiType}
    (same : elements.map FfiType.settled = elements'.map FfiType.settled) (reached : Extent) :
    leftBehind elements reached = leftBehind elements' reached := by
  induction elements generalizing elements' reached with
  | nil => rw [List.map_eq_nil_iff.mp same.symm]
  | cons element rest ih =>
    cases elements' with
    | nil => exact absurd same (List.cons_ne_nil _ _)
    | cons element' rest' =>
      obtain ⟨first, later⟩ := List.cons.inj same
      rw [leftBehind, leftBehind, first]
      cases element'.settled with
      | error status => rfl
      | ok extent => exact ih later _

/-- All before the element at fault settle, and take up room. -/
def Spoils (elements : List FfiType) (reached : Extent) : Prop :=
  ∃ before fault after, elements = before ++ fault :: after ∧ (∃ error, fault.settled = .error error) ∧
    ∃ extent, settledLoop before reached = .ok extent ∧ extent.size ≠ 0

theorem spoils_refused {element : FfiType} {rest : List FfiType} {reached : Extent} {error : FfiStatus}
    (refused : element.settled = .error error) : Spoils (element :: rest) reached ↔ reached.size ≠ 0 := by
  constructor
  · rintro ⟨before, fault, after, split, -, extent, settles, sized⟩
    cases before with
    | nil =>
      cases settles
      exact sized
    | cons first others =>
      obtain ⟨rfl, -⟩ := List.cons.inj split
      rw [settledLoop_cons, refused] at settles
      cases settles
  · exact fun sized => ⟨[], element, rest, rfl, ⟨error, refused⟩, reached, rfl, sized⟩

theorem spoils_settled {element : FfiType} {rest : List FfiType} {reached extent : Extent}
    (settled : element.settled = .ok extent) : Spoils (element :: rest) reached ↔ Spoils rest (reached.add extent) := by
  constructor
  · rintro ⟨before, fault, after, split, ⟨error, refused⟩, last, settles, sized⟩
    cases before with
    | nil =>
      obtain ⟨rfl, -⟩ := List.cons.inj split
      rw [settled] at refused
      cases refused
    | cons first others =>
      obtain ⟨rfl, same⟩ := List.cons.inj split
      rw [settledLoop_cons, settled] at settles
      exact ⟨others, fault, after, same, ⟨error, refused⟩, last, settles, sized⟩
  · rintro ⟨before, fault, after, rfl, refused, last, settles, sized⟩
    refine ⟨element :: before, fault, after, rfl, refused, last, ?_, sized⟩
    rw [settledLoop_cons, settled]
    exact settles

/-- The tail padding, and a structure without a size refused. -/
def Extent.closed (reached : Extent) : Except FfiStatus Extent :=
  let size := ffiAlign reached.size reached.alignment
  if size = 0 then .error .badTypedef else .ok ⟨size, reached.alignment⟩

theorem Extent.closed_sized {reached extent : Extent} (done : reached.closed = .ok extent) : extent.size ≠ 0 := by
  rw [closed] at done
  split at done
  · cases done
  · rename_i sized
    cases done
    exact sized

/-- A refused loop leaves a size exactly when room was taken up before the fault. -/
theorem leftBehind_size_iff {elements : List FfiType} {reached : Extent} {error : FfiStatus}
    (refused : settledLoop elements reached >>= Extent.closed = .error error) :
    (leftBehind elements reached).size ≠ 0 ↔ Spoils elements reached := by
  induction elements generalizing reached with
  | nil =>
    refine iff_of_false (not_not.mpr ?_) ?_
    · change reached.closed = .error error at refused
      rw [Extent.closed] at refused
      split at refused
      · assumption
      · cases refused
    · rintro ⟨before, fault, after, split, -⟩
      exact absurd split.symm (List.append_ne_nil_of_right_ne_nil _ (List.cons_ne_nil _ _))
  | cons element rest ih =>
    cases settled : element.settled with
    | error fault =>
      rw [leftBehind, settled]
      exact (spoils_refused settled).symm
    | ok extent =>
      rw [settledLoop_cons, settled] at refused
      rw [leftBehind, settled]
      exact (ih refused).trans (spoils_settled settled).symm

theorem FfiType.settled_aggregate (alignment : BitVec 16) (type : TypeId) (elements : List FfiType) (isFloat : Bool) :
    settled ⟨0, alignment, type, some elements, isFloat⟩ = settledLoop elements ⟨0, 0⟩ >>= Extent.closed := by
  rw [settled, initialized, if_pos rfl, initializeAggregate, settledLoop]
  cases initializeElements elements 0 0 with
  | error status => rfl
  | ok reached =>
    dsimp only [bind, Except.bind, Except.map, Extent.closed]
    by_cases zero : ffiAlign reached.2.1 reached.2.2 = 0
    · rw [if_pos zero, if_pos zero]
    · rw [if_neg zero, if_neg zero]
      rfl

namespace Graph

variable (graph : Graph)

/-- `initialize_aggregate` on memory; there is none when the calls nest deeper than the stack. -/
def initializeAggregate : Nat → Extents → Unsigned → Option (FfiStatus × Extents)
  | 0, _, _ => none
  | depth + 1, extents, arg =>
    match graph.elements arg with
    | none => some (.badTypedef, extents)
    | some elements => aggregateLoop (initializeAggregate depth) arg elements (Function.update extents arg ⟨0, 0⟩)

def head (extents : Extents) (type : Unsigned) : FfiType :=
  ⟨(extents type).size, (extents type).alignment, graph.type type, none, type == graph.float⟩

/-- A type with its elements in place, down to a depth. -/
def unfold (extents : Extents) : Nat → Unsigned → FfiType
  | 0, type => graph.head extents type
  | depth + 1, type =>
    { graph.head extents type with elements := (graph.elements type).map (List.map (unfold extents depth)) }

/-- No type is an element of its own elements. -/
structure Ranked where
  rank : Unsigned → Nat
  falls : ∀ {type elements}, graph.elements type = some elements → ∀ element ∈ elements, rank element < rank type

end Graph

/-- What has a size keeps its extent. -/
def Kept (extents extents' : Extents) : Prop := ∀ type, (extents type).size ≠ 0 → extents' type = extents type

theorem Kept.refl (extents : Extents) : Kept extents extents := fun _ _ => rfl

theorem Kept.trans {first second third : Extents} (before : Kept first second) (after : Kept second third) :
    Kept first third := fun type sized =>
  (after type (before type sized ▸ sized)).trans (before type sized)

theorem Kept.update {extents extents' : Extents} {type : Unsigned} (kept : Kept extents extents')
    (unsized : (extents type).size = 0) (extent : Extent) : Kept extents (Function.update extents' type extent) := by
  intro other sized
  rw [Function.update_of_ne (fun same => sized (by rw [same, unsized])), kept other sized]

/-- Laying out a type that has no size leaves those alone that have one. -/
def Keeps (aggregate : Extents → Unsigned → Option (FfiStatus × Extents)) : Prop :=
  ∀ {extents type status extents'}, (extents type).size = 0 → aggregate extents type = some (status, extents') →
    Kept extents extents'

section Frame

variable {aggregate : Extents → Unsigned → Option (FfiStatus × Extents)} {extents extents' : Extents} {status : FfiStatus}

theorem ensure_kept (keeps : Keeps aggregate) {type : Unsigned}
    (ensured : ensure aggregate extents type = some (status, extents')) : Kept extents extents' := by
  unfold ensure at ensured
  split at ensured
  · exact keeps ‹_› ensured
  · cases ensured
    exact .refl extents

theorem aggregateLoop_kept (keeps : Keeps aggregate) {arg : Unsigned} {elements : List Unsigned} {outset : Extents}
    (unsized : (outset arg).size = 0) (so_far : Kept outset extents)
    (looped : aggregateLoop aggregate arg elements extents = some (status, extents')) : Kept outset extents' := by
  induction elements generalizing extents with
  | nil =>
    cases looped
    exact so_far.update unsized _
  | cons ptr rest ih =>
    simp only [aggregateLoop, Option.bind_eq_bind, Option.bind_eq_some_iff, Prod.exists] at looped
    obtain ⟨answer, next, ensured, looped⟩ := looped
    have kept := so_far.trans (ensure_kept keeps ensured)
    split at looped
    · cases looped
      exact kept
    · exact ih (kept.update unsized _) looped

theorem Graph.initializeAggregate_keeps (graph : Graph) (depth : Nat) : Keeps (graph.initializeAggregate depth) := by
  induction depth with
  | zero =>
    intro extents type status extents' _ ran
    cases ran
  | succ depth ih =>
    intro extents type status extents' unsized ran
    rw [initializeAggregate] at ran
    split at ran
    · cases ran
      exact .refl extents
    · exact aggregateLoop_kept ih unsized ((Kept.refl extents).update unsized _) ran

end Frame

namespace Graph.Ranked

variable {graph : Graph} (ranked : graph.Ranked)

def tree (extents : Extents) (type : Unsigned) : FfiType := graph.unfold extents (ranked.rank type + 1) type

theorem unfold_enough (extents : Extents) {depth : Nat} {type : Unsigned} (enough : ranked.rank type < depth) :
    graph.unfold extents depth type = ranked.tree extents type := by
  suffices same : ∀ {depth depth' type}, ranked.rank type < depth → ranked.rank type < depth' →
      graph.unfold extents depth type = graph.unfold extents depth' type from same enough (Nat.lt_succ_self _)
  intro depth
  induction depth with
  | zero => exact fun enough => absurd enough (Nat.not_lt_zero _)
  | succ depth ih =>
    intro depth' type enough enough'
    cases depth' with
    | zero => exact absurd enough' (Nat.not_lt_zero _)
    | succ depth' =>
      rw [unfold, unfold]
      cases pointed : graph.elements type with
      | none => rfl
      | some elements =>
        refine congrArg (fun elements => { graph.head extents type with elements := some elements }) ?_
        refine List.map_congr_left fun element member => ?_
        have below := ranked.falls pointed element member
        exact ih (by omega) (by omega)

theorem tree_eq (extents : Extents) (type : Unsigned) :
    ranked.tree extents type =
      { graph.head extents type with elements := (graph.elements type).map (List.map (ranked.tree extents)) } := by
  rw [tree, unfold]
  cases pointed : graph.elements type with
  | none => rfl
  | some elements =>
    refine congrArg (fun elements => { graph.head extents type with elements := some elements }) ?_
    exact List.map_congr_left fun element member =>
      ranked.unfold_enough extents (ranked.falls pointed element member)

@[simp] theorem tree_extent (extents : Extents) (type : Unsigned) : (ranked.tree extents type).extent = extents type := by
  rw [tree_eq]
  rfl

/-- A tree depends on the extents below it. -/
theorem tree_congr {extents extents' : Extents} {type : Unsigned}
    (same : ∀ other, ranked.rank other ≤ ranked.rank type → extents' other = extents other) :
    ranked.tree extents' type = ranked.tree extents type := by
  induction level : ranked.rank type using Nat.strongRecOn generalizing type with
  | _ level ih =>
    subst level
    rw [tree_eq, tree_eq]
    have head : graph.head extents' type = graph.head extents type := by
      rw [head, same type (Nat.le_refl _)]
      rfl
    rw [head]
    cases pointed : graph.elements type with
    | none => rfl
    | some elements =>
      refine congrArg (fun elements => { graph.head extents type with elements := some elements }) ?_
      refine List.map_congr_left fun element member => ?_
      have below := ranked.falls pointed element member
      exact ih _ below (fun other lower => same other (Nat.le_trans lower (Nat.le_of_lt below))) rfl

/-- The extent at an address is as before, or what the type there settles to. -/
def Progress (extents extents' : Extents) (type : Unsigned) : Prop :=
  extents' type = extents type ∨
    ((extents type).size = 0 ∧ (ranked.tree extents type).settled = .ok (extents' type))

theorem settled_sized {extents : Extents} {type : Unsigned} (sized : (extents type).size ≠ 0) :
    (ranked.tree extents type).settled = .ok (extents type) := by
  have same := ranked.tree_extent extents type
  rw [FfiType.settled_sized fun zero => sized ((congrArg Extent.size same).symm.trans zero), same]

theorem settled_unsized {extents : Extents} {type : Unsigned} (unsized : (extents type).size = 0) :
    (ranked.tree extents type).settled = match graph.elements type with
      | none => .error .badTypedef
      | some elements => settledLoop (elements.map (ranked.tree extents)) ⟨0, 0⟩ >>= Extent.closed := by
  rw [tree_eq, head, unsized]
  cases graph.elements type with
  | none => rfl
  | some elements => exact FfiType.settled_aggregate _ _ _ _

theorem settled_ne_zero {extents : Extents} {type : Unsigned} {extent : Extent}
    (done : (ranked.tree extents type).settled = .ok extent) : extent.size ≠ 0 := by
  by_cases unsized : (extents type).size = 0
  · rw [ranked.settled_unsized unsized] at done
    split at done
    · cases done
    · rename_i elements pointed
      cases reached : settledLoop (elements.map (ranked.tree extents)) ⟨0, 0⟩ with
      | error status =>
        rw [reached] at done
        cases done
      | ok pair =>
        rw [reached] at done
        exact Extent.closed_sized done
  · rw [ranked.settled_sized unsized] at done
    cases done
    exact unsized

/-- What has been laid out settles as before, and so do the types it is an element of. -/
theorem progress_settled {extents extents' : Extents} {type : Unsigned}
    (progress : ∀ other, ranked.rank other ≤ ranked.rank type → ranked.Progress extents extents' other) :
    (ranked.tree extents' type).settled = (ranked.tree extents type).settled := by
  induction level : ranked.rank type using Nat.strongRecOn generalizing type with
  | _ level ih =>
    subst level
    rcases progress type (Nat.le_refl _) with same | ⟨unsized, done⟩
    · by_cases unsized : (extents type).size = 0
      · rw [ranked.settled_unsized unsized, ranked.settled_unsized (same ▸ unsized)]
        cases pointed : graph.elements type with
        | none => rfl
        | some elements =>
          refine congrArg (· >>= Extent.closed) (settledLoop_congr ?_ ⟨0, 0⟩)
          rw [List.map_map, List.map_map]
          refine List.map_congr_left fun element member => ?_
          have below := ranked.falls pointed element member
          exact ih _ below (fun other lower => progress other (Nat.le_trans lower (Nat.le_of_lt below))) rfl
      · rw [ranked.settled_sized unsized, ranked.settled_sized (same ▸ unsized), same]
    · rw [done, ranked.settled_sized (ranked.settled_ne_zero done)]

theorem progress_trans {first second third : Extents} {type : Unsigned}
    (before : ∀ other, ranked.rank other ≤ ranked.rank type → ranked.Progress first second other)
    (after : ranked.Progress second third type) : ranked.Progress first third type := by
  rcases after with same | ⟨unsized, done⟩
  · rw [Progress, same]
    exact before type (Nat.le_refl _)
  · rw [ranked.progress_settled before] at done
    rcases before type (Nat.le_refl _) with same | ⟨blank, filled⟩
    · exact .inr ⟨same ▸ unsized, done⟩
    · exact absurd unsized (ranked.settled_ne_zero filled)

theorem progress_refl (extents : Extents) (type : Unsigned) : ranked.Progress extents extents type := .inl rfl

/-- A run over `type` that ended with `status`. -/
structure Ran (type : Unsigned) (extents : Extents) (status : FfiStatus) (extents' : Extents) : Prop where
  frame : ∀ other, ranked.rank type ≤ ranked.rank other → other ≠ type → extents' other = extents other
  refused : ∀ error, (ranked.tree extents type).settled = .error error → status = .badTypedef ∧
    ∀ elements, graph.elements type = some elements →
      extents' type = leftBehind (elements.map (ranked.tree extents)) ⟨0, 0⟩
  accepted : ∀ extent, (ranked.tree extents type).settled = .ok extent →
    status = .ok ∧ extents' type = extent ∧ ∀ other, ranked.Progress extents extents' other

/-- Laying out a type that has no size. -/
def Simulates (aggregate : Extents → Unsigned → Option (FfiStatus × Extents)) (type : Unsigned) : Prop :=
  ∀ extents, (extents type).size = 0 →
    ∃ status extents', aggregate extents type = some (status, extents') ∧ ranked.Ran type extents status extents'

variable {aggregate : Extents → Unsigned → Option (FfiStatus × Extents)}

theorem ensure_ran {type : Unsigned} (simulates : ranked.Simulates aggregate type) (extents : Extents) :
    ∃ status extents', ensure aggregate extents type = some (status, extents') ∧ ranked.Ran type extents status extents' := by
  by_cases unsized : (extents type).size = 0
  · rw [ensure, if_pos unsized]
    exact simulates extents unsized
  · refine ⟨.ok, extents, if_neg unsized, fun _ _ _ => rfl, fun error done => ?_, fun extent done => ?_⟩
    · rw [ranked.settled_sized unsized] at done
      cases done
    · rw [ranked.settled_sized unsized] at done
      cases done
      exact ⟨rfl, rfl, ranked.progress_refl extents⟩

/-- The loop over the elements of `arg`, which it alone writes of the types at its rank or above. -/
structure Looped (arg : Unsigned) (elements : List Unsigned) (extents : Extents) (status : FfiStatus) (extents' : Extents) :
    Prop where
  frame : ∀ other, ranked.rank arg ≤ ranked.rank other → other ≠ arg → extents' other = extents other
  refused : ∀ error, settledLoop (elements.map (ranked.tree extents)) (extents arg) >>= Extent.closed = .error error →
    status = .badTypedef ∧ extents' arg = leftBehind (elements.map (ranked.tree extents)) (extents arg)
  accepted : ∀ extent, settledLoop (elements.map (ranked.tree extents)) (extents arg) >>= Extent.closed = .ok extent →
    status = .ok ∧ extents' arg = extent ∧ ∀ other, ranked.rank other < ranked.rank arg → ranked.Progress extents extents' other

namespace Looped

variable {ranked} {arg ptr : Unsigned} {rest : List Unsigned} {extents next final : Extents} {status : FfiStatus}

/-- The end of the list, where a structure without a size is refused. -/
theorem closed (extents : Extents) : ranked.Looped arg [] extents
    (if ffiAlign (extents arg).size (extents arg).alignment = 0 then .badTypedef else .ok)
    (Function.update extents arg ⟨ffiAlign (extents arg).size (extents arg).alignment, (extents arg).alignment⟩) where
  frame other _ different := Function.update_of_ne different _ _
  refused error done := by
    change (extents arg).closed = .error error at done
    rw [Extent.closed] at done
    split at done
    · rename_i zero
      exact ⟨if_pos zero, Function.update_self _ _ _⟩
    · cases done
  accepted extent done := by
    change (extents arg).closed = .ok extent at done
    rw [Extent.closed] at done
    split at done
    · cases done
    · rename_i sized
      cases done
      refine ⟨if_neg sized, Function.update_self _ _ _, fun other lower => .inl (Function.update_of_ne ?_ _ _)⟩
      rintro rfl
      exact Nat.lt_irrefl _ lower

/-- Laying out an element leaves the types at the rank of `arg` or above alone. -/
private theorem above (lower : ranked.rank ptr < ranked.rank arg) (ran : ranked.Ran ptr extents status next) :
    ∀ other, ranked.rank arg ≤ ranked.rank other → next other = extents other := fun other above =>
  ran.frame other (Nat.le_trans (Nat.le_of_lt lower) above) fun same => Nat.not_lt_of_le above (same ▸ lower)

/-- An element is refused, and `arg` stays as far as it has come. -/
theorem stopped (lower : ranked.rank ptr < ranked.rank arg) (ran : ranked.Ran ptr extents status next) {error : FfiStatus}
    (settled : (ranked.tree extents ptr).settled = .error error) : ranked.Looped arg (ptr :: rest) extents .badTypedef next where
  frame other aloft _ := above lower ran other aloft
  refused _ _ := by
    refine ⟨rfl, ?_⟩
    rw [List.map_cons, leftBehind, settled]
    exact above lower ran arg (Nat.le_refl _)
  accepted extent done := by
    rw [List.map_cons, settledLoop_cons, settled] at done
    cases done

/-- An element is laid out and added, and the loop goes on from there. -/
theorem added (below : ∀ element ∈ ptr :: rest, ranked.rank element < ranked.rank arg) (ran : ranked.Ran ptr extents .ok next)
    {extent : Extent} (settled : (ranked.tree extents ptr).settled = .ok extent)
    (looped : ranked.Looped arg rest (Function.update next arg ((extents arg).add extent)) status final) :
    ranked.Looped arg (ptr :: rest) extents status final := by
  have advance : ∀ other, ranked.rank other < ranked.rank arg →
      ranked.Progress extents (Function.update next arg ((extents arg).add extent)) other := by
    intro other under
    have apart : other ≠ arg := by
      rintro rfl
      exact Nat.lt_irrefl _ under
    rw [Progress, Function.update_of_ne apart]
    exact (ran.accepted extent settled).2.2 other
  have settles : (rest.map (ranked.tree (Function.update next arg ((extents arg).add extent)))).map FfiType.settled =
      (rest.map (ranked.tree extents)).map FfiType.settled := by
    rw [List.map_map, List.map_map]
    refine List.map_congr_left fun element member => ranked.progress_settled fun other under => advance other ?_
    exact Nat.lt_of_le_of_lt under (below element (List.mem_cons_of_mem _ member))
  have same : settledLoop (rest.map (ranked.tree (Function.update next arg ((extents arg).add extent))))
        ((extents arg).add extent) =
      settledLoop ((ptr :: rest).map (ranked.tree extents)) (extents arg) := by
    rw [List.map_cons, settledLoop_cons, settled]
    exact settledLoop_congr settles _
  obtain ⟨frame, refused, accepted⟩ := looped
  rw [Function.update_self, same] at refused accepted
  refine ⟨fun other aloft different => ?_, fun error done => ?_, fun extent done => ?_⟩
  · rw [frame other aloft different, Function.update_of_ne different,
      above (below ptr List.mem_cons_self) ran other aloft]
  · obtain ⟨bad, left⟩ := refused error done
    refine ⟨bad, left.trans ?_⟩
    rw [List.map_cons, leftBehind, settled]
    exact leftBehind_congr settles _
  · obtain ⟨fine, filled, later⟩ := accepted extent done
    exact ⟨fine, filled, fun other under => ranked.progress_trans
      (fun lower within => advance lower (Nat.lt_of_le_of_lt within under)) (later other under)⟩

end Looped

theorem aggregateLoop_looped {arg : Unsigned} {elements : List Unsigned}
    (below : ∀ element ∈ elements, ranked.rank element < ranked.rank arg)
    (simulates : ∀ element ∈ elements, ranked.Simulates aggregate element) (extents : Extents) :
    ∃ status extents', aggregateLoop aggregate arg elements extents = some (status, extents') ∧
      ranked.Looped arg elements extents status extents' := by
  induction elements generalizing extents with
  | nil => exact ⟨_, _, rfl, .closed extents⟩
  | cons ptr rest ih =>
    obtain ⟨status, next, ensured, ran⟩ := ranked.ensure_ran (simulates ptr List.mem_cons_self) extents
    rw [aggregateLoop, ensured]
    dsimp only [bind, Option.bind]
    cases settled : (ranked.tree extents ptr).settled with
    | error error =>
      obtain ⟨rfl, -⟩ := ran.refused error settled
      exact ⟨_, next, rfl, .stopped (below ptr List.mem_cons_self) ran settled⟩
    | ok extent =>
      obtain ⟨rfl, filled, -⟩ := ran.accepted extent settled
      have passed : next arg = extents arg := Looped.above (below ptr List.mem_cons_self) ran arg (Nat.le_refl _)
      obtain ⟨status, final, looped, outcome⟩ := ih (fun element member => below element (List.mem_cons_of_mem _ member))
        (fun element member => simulates element (List.mem_cons_of_mem _ member))
        (Function.update next arg ((extents arg).add extent))
      rw [if_neg (not_not.mpr rfl), passed, filled]
      exact ⟨status, final, looped, .added below ran settled outcome⟩

/-- A stack deep enough for the type lays it out in memory as its tree is laid out. -/
theorem initializeAggregate_simulates {depth : Nat} {type : Unsigned} (enough : ranked.rank type < depth) :
    ranked.Simulates (graph.initializeAggregate depth) type := by
  induction depth generalizing type with
  | zero => exact absurd enough (Nat.not_lt_zero _)
  | succ depth ih =>
    intro extents unsized
    rw [Graph.initializeAggregate]
    have settles := ranked.settled_unsized unsized
    cases pointed : graph.elements type with
    | none =>
      rw [pointed] at settles
      refine ⟨_, extents, rfl, fun _ _ _ => rfl, fun _ _ => ⟨rfl, fun elements same => ?_⟩, fun extent done => ?_⟩
      · rw [pointed] at same
        cases same
      · rw [settles] at done
        cases done
    | some elements =>
      rw [pointed] at settles
      have below := ranked.falls pointed
      obtain ⟨status, final, looped, outcome⟩ := ranked.aggregateLoop_looped below
        (fun element member => ih (Nat.lt_of_lt_of_le (below element member) (Nat.le_of_lt_succ enough)))
        (Function.update extents type ⟨0, 0⟩)
      have lowers : ∀ other, ranked.rank other < ranked.rank type →
          ranked.tree (Function.update extents type ⟨0, 0⟩) other = ranked.tree extents other := by
        intro other lower
        refine ranked.tree_congr fun under within => Function.update_of_ne ?_ _ _
        rintro rfl
        exact Nat.not_lt_of_le within lower
      have trees : elements.map (ranked.tree (Function.update extents type ⟨0, 0⟩)) = elements.map (ranked.tree extents) :=
        List.map_congr_left fun element member => lowers element (below element member)
      obtain ⟨frame, refused, accepted⟩ := outcome
      rw [trees, Function.update_self] at refused accepted
      dsimp only at settles
      rw [← settles] at refused accepted
      refine ⟨status, final, looped, fun other above different => ?_, fun error done => ?_, fun extent done => ?_⟩
      · rw [frame other above different, Function.update_of_ne different]
      · obtain ⟨bad, left⟩ := refused error done
        exact ⟨bad, fun others same => Option.some.inj (pointed.symm.trans same) ▸ left⟩
      · obtain ⟨fine, filled, progress⟩ := accepted extent done
        refine ⟨fine, filled, fun other => ?_⟩
        by_cases here : other = type
        · subst here
          exact .inr ⟨unsized, filled ▸ done⟩
        · rcases Nat.lt_or_ge (ranked.rank other) (ranked.rank type) with lower | above
          · have step := progress other lower
            rwa [Progress, Function.update_of_ne here, lowers other lower] at step
          · exact .inl ((frame other above here).trans (Function.update_of_ne here _ _))

/-- Only a type with a size is taken as it is, without another look. -/
theorem taken_iff {depth : Nat} {type : Unsigned} (enough : ranked.rank type < depth) (extents : Extents) :
    ensure (graph.initializeAggregate depth) extents type = some (.ok, extents) ↔ (extents type).size ≠ 0 := by
  constructor
  · intro again empty
    obtain ⟨status, extents', retried, ran⟩ := ranked.ensure_ran (ranked.initializeAggregate_simulates enough) extents
    rw [retried] at again
    cases again
    cases settled : (ranked.tree extents type).settled with
    | error error => exact FfiStatus.noConfusion (ran.refused error settled).1
    | ok extent =>
      obtain ⟨-, same, -⟩ := ran.accepted extent settled
      exact ranked.settled_ne_zero settled (same ▸ empty)
  · exact fun sized => if_neg sized

/-- A type that is refused keeps what it has reached, which is a size exactly when the elements
before the one at fault take up room. -/
theorem refused_left {depth : Nat} {type : Unsigned} {elements : List Unsigned} {extents : Extents} {error : FfiStatus}
    (enough : ranked.rank type < depth) (unsized : (extents type).size = 0) (pointed : graph.elements type = some elements)
    (refused : (ranked.tree extents type).settled = .error error) :
    ∃ extents', ensure (graph.initializeAggregate depth) extents type = some (.badTypedef, extents') ∧
      extents' type = leftBehind (elements.map (ranked.tree extents)) ⟨0, 0⟩ ∧
      ((extents' type).size ≠ 0 ↔ Spoils (elements.map (ranked.tree extents)) ⟨0, 0⟩) := by
  obtain ⟨status, extents', ensured, ran⟩ := ranked.ensure_ran (ranked.initializeAggregate_simulates enough) extents
  obtain ⟨rfl, left⟩ := ran.refused error refused
  have settles := ranked.settled_unsized unsized
  rw [pointed, refused] at settles
  refine ⟨extents', ensured, left elements pointed, ?_⟩
  rw [left elements pointed]
  exact leftBehind_size_iff settles.symm

end Graph.Ranked

end WasiWheels.Native
