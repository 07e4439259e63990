import WasiWheels.Core.Placing

/-! C structures that mirror interface types: how generated code lifts, reads and frees
them, tied to the type by a proof for each. -/

namespace WasiWheels

namespace Wit

def Tys.of : List Ty → Tys
  | [] => .nil
  | type :: rest => .cons type (Tys.of rest)

namespace Ty

def unit : Ty := .record .nil
def handle : Ty := .word .single
def string : Ty := .list (.word .byte)
def pair (first second : Ty) : Ty := .record (.cons first (.cons second .nil))
def option (type : Ty) : Ty := .variant (.cons unit (.cons type .nil))
def result (ok err : Ty) : Ty := .variant (.cons ok (.cons err .nil))

end Ty

theorem alignTo_zero {align : Nat} (positive : 0 < align) : alignTo 0 align = 0 := by
  rw [alignTo, Nat.div_eq_of_lt (by omega), Nat.zero_mul]

theorem alignTo_one {align : Nat} (positive : 0 < align) : alignTo 1 align = align := by
  rw [alignTo, Nat.add_sub_cancel_left, Nat.div_self positive, Nat.one_mul]

theorem payload_option (type : Ty) : (Tys.cons .unit (.cons type .nil)).payload = type.align := by
  have positive := type.align_pos
  have widest : (Tys.cons .unit (.cons type .nil)).align = type.align := by
    simp only [Tys.align, Ty.unit, Ty.align]
    omega
  rw [Tys.payload, widest]
  exact alignTo_one positive

theorem payload_result (ok err : Ty) : (Tys.cons ok (.cons err .nil)).payload = max ok.align err.align := by
  have positive := ok.align_pos
  have widest : (Tys.cons ok (.cons err .nil)).align = max ok.align err.align := by
    simp only [Tys.align]
    have := err.align_pos
    omega
  rw [Tys.payload, widest]
  exact alignTo_one (by omega)

theorem align_result (ok err : Ty) : (Ty.result ok err).align = max ok.align err.align := by
  have positive := ok.align_pos
  simp only [Ty.result, Ty.align, Tys.align, show discriminant (Tys.cons ok (.cons err .nil)).length = 1 from rfl]
  omega

theorem get_option (memory : Memory) (type : Ty) (base : Nat) : get memory (.option type) base =
    getCase memory (.cons .unit (.cons type .nil)) (memory.load base 1) (base + type.align) := by
  rw [← payload_option]
  rfl

theorem get_result (memory : Memory) (ok err : Ty) (base : Nat) : get memory (.result ok err) base =
    getCase memory (.cons ok (.cons err .nil)) (memory.load base 1) (base + max ok.align err.align) := by
  rw [← payload_result]
  rfl

/-- `switch` over the discriminant of an option. After another tag `is_some` is unset. -/
def switchOption {C : Type} (tag : Nat) (val : Option C) : Option (Option C) :=
  match tag with
  | 0 => some none
  | 1 => val.map some
  | _ => none

/-- `switch` over the discriminant of a result. -/
def switchResult {C D : Type} (tag : Nat) (ok : Option C) (err : Option D) : Option (Except D C) :=
  match tag with
  | 0 => ok.map .ok
  | 1 => err.map .error
  | _ => none

/-- The bytes of a span. -/
def slice (memory : Memory) (span : Span) : List UInt8 :=
  (List.range span.len.toNat).map fun index => memory (span.ptr.toNat + index)

/-- What is freed for a span with nothing to free in its elements. -/
def freeSpan (span : Span) : List Nat := if 0 < span.len.toNat then [span.ptr.toNat] else []

/-- Memory of a span read as an array, and the frees of generated code for it: those of every
element, then its own. -/
def freeEach (count base size : Nat) (each : Nat → Option (List Nat)) : Option (List Nat) :=
  if 0 < count then do
    let inner ← (List.range count).mapM fun index => each (base + index * size)
    return inner.flatten ++ [base]
  else some []

/-- Two passes over a list, or both steps at once. -/
theorem mapM_bind {A B C : Type} (first : A → Option B) (second : B → Option C) (items : List A) :
    (items.mapM fun item => (first item).bind second) = (items.mapM first).bind fun middle => middle.mapM second := by
  induction items with
  | nil => rfl
  | cons item rest ih =>
    simp only [List.mapM_cons, Option.bind_eq_bind, ih]
    cases first item with
    | none => rfl
    | some middle =>
      cases here : second middle with
      | none => cases rest.mapM first <;> simp [here]
      | some last => cases rest.mapM first <;> simp [here]

theorem mapM_map_some {A B C : Type} (first : A → Option B) (change : B → C) (items : List A) :
    (items.mapM fun item => (first item).map change) = (items.mapM first).map (List.map change) := by
  have each : (fun item => (first item).map change) = fun item => (first item).bind fun middle => pure (change middle) :=
    funext fun item => Option.map_eq_bind
  rw [each, mapM_bind]
  simp only [List.mapM_pure]
  exact Option.map_eq_bind.symm

/-- An array, element by element. -/
theorem getAll_eq (memory : Memory) (type : Ty) (base count : Nat) :
    getAll memory type base count = (List.range count).mapM fun index => get memory type (base + index * type.size) := by
  induction count generalizing base with
  | zero => rfl
  | succ count ih =>
    have next : ∀ index, base + type.size + index * type.size = base + (index + 1) * type.size := fun index => by
      rw [Nat.add_mul, Nat.one_mul]
      omega
    simp only [getAll, ih, next, List.range_succ_eq_map, List.mapM_cons, List.mapM_map, Nat.zero_mul, Nat.add_zero]
    rfl

/-- A C structure for a type: what it holds of the passed value, the value it stands for, how
it is lifted from an address, followed through its pointers, and freed. -/
structure Mirror (type : Ty) (C V : Type) where
  struct : Data .spans type → C
  value : Data .lists type → V
  lift : Memory → Nat → Option C
  follow : Memory → C → Option V
  frees : Memory → C → Option (List Nat)
  lift_eq : ∀ memory base, lift memory base = (get memory type base).map struct
  follow_eq : ∀ memory spans, follow memory (struct spans) = (read memory type spans).map value
  frees_eq : ∀ memory spans, frees memory (struct spans) = owned memory type spans

namespace Mirror

variable {type other : Ty} {C V D W : Type}

/-- The guest lifts an answer from its variable: it sees the value the host meant, and frees
what the host took. -/
theorem received (mirror : Mirror type C V) {value : Data .lists type} {area : Nat} {before after : Guest}
    {spans : Data .spans type} {rooms : List Room} {frees : List Nat}
    (answered : Answered type value area before after spans rooms frees) :
    ∃ struct, mirror.lift after.memory area = some struct ∧ mirror.follow after.memory struct = some (mirror.value value) ∧
      mirror.frees after.memory struct = some frees := by
  refine ⟨mirror.struct spans, ?_, ?_, ?_⟩
  · rw [mirror.lift_eq, answered.got, Option.map_some]
  · rw [mirror.follow_eq, answered.reads _ (Set.eqOn_refl _ _), Option.map_some]
  · rw [mirror.frees_eq, answered.owns]

/-- The same mirror under another description of the struct and its value. -/
def map (mirror : Mirror type C V) (struct : C → D) (value : V → W) (follow : Memory → D → Option W)
    (frees : Memory → D → Option (List Nat))
    (follow_eq : ∀ memory c, follow memory (struct c) = (mirror.follow memory c).map value)
    (frees_eq : ∀ memory c, frees memory (struct c) = mirror.frees memory c) : Mirror type D W where
  struct spans := struct (mirror.struct spans)
  value data := value (mirror.value data)
  lift memory base := (mirror.lift memory base).map struct
  follow := follow
  frees := frees
  lift_eq memory base := by rw [mirror.lift_eq, Option.map_map]; rfl
  follow_eq memory spans := by rw [follow_eq, mirror.follow_eq, Option.map_map]; rfl
  frees_eq memory spans := by rw [frees_eq, mirror.frees_eq]

/-- The source's own text for lifting, where it agrees. -/
def lifting (mirror : Mirror type C V) (lift : Memory → Nat → Option C)
    (same : ∀ memory base, lift memory base = mirror.lift memory base) : Mirror type C V :=
  { mirror with lift, lift_eq := fun memory base => by rw [same, mirror.lift_eq] }

/-- The source's own text for freeing, where it agrees. -/
def freeing (mirror : Mirror type C V) (frees : Memory → C → Option (List Nat))
    (same : ∀ memory struct, frees memory struct = mirror.frees memory struct) : Mirror type C V :=
  { mirror with frees, frees_eq := fun memory spans => by rw [same, mirror.frees_eq] }

def word (width : Width) : Mirror (.word width) (BitVec (8 * width.bytes)) (BitVec (8 * width.bytes)) where
  struct := id
  value := id
  lift memory base := some (BitVec.ofNat _ (memory.load base width.bytes))
  follow _ := some
  frees _ _ := some []
  lift_eq _ _ := rfl
  follow_eq _ _ := rfl
  frees_eq _ _ := rfl

def unit : Mirror .unit Unit Unit where
  struct _ := ()
  value _ := ()
  lift _ _ := some ()
  follow _ := some
  frees _ _ := some []
  lift_eq _ _ := rfl
  follow_eq _ _ := rfl
  frees_eq _ _ := rfl

/-- A struct of two members. -/
def members {E X : Type} (first : Mirror type C V) (second : Mirror other D W) (make : C → D → E) (build : V → W → X)
    (follow : Memory → E → Option X) (frees : Memory → E → Option (List Nat))
    (follow_eq : ∀ memory here next, follow memory (make here next) = do
      let here ← first.follow memory here
      let next ← second.follow memory next
      return build here next)
    (frees_eq : ∀ memory here next, frees memory (make here next) = do
      let here ← first.frees memory here
      let next ← second.frees memory next
      return here ++ next) : Mirror (.pair type other) E X where
  struct spans := make (first.struct spans.1) (second.struct spans.2.1)
  value data := build (first.value data.1) (second.value data.2.1)
  lift memory base := do
    let here ← first.lift memory base
    let next ← second.lift memory (base + alignTo type.size other.align)
    return make here next
  follow := follow
  frees := frees
  lift_eq memory base := by
    simp only [Ty.pair, get, getFields, alignTo_zero type.align_pos, Nat.zero_add, Nat.add_zero, first.lift_eq,
      second.lift_eq]
    cases get memory type base with
    | none => rfl
    | some here => cases get memory other (base + alignTo type.size other.align) <;> rfl
  follow_eq memory spans := by
    obtain ⟨here, next, ⟨⟩⟩ := spans
    simp only [Ty.pair, read, readFields, follow_eq, first.follow_eq, second.follow_eq]
    cases read memory type here with
    | none => rfl
    | some here => cases read memory other next <;> rfl
  frees_eq memory spans := by
    obtain ⟨here, next, ⟨⟩⟩ := spans
    simp only [Ty.pair, owned, ownedFields, frees_eq, first.frees_eq, second.frees_eq]
    cases owned memory type here with
    | none => rfl
    | some here => cases owned memory other next <;> simp

def option (mirror : Mirror type C V) : Mirror (.option type) (Option C) (Option V) where
  struct
    | .inl _ => none
    | .inr (.inl spans) => some (mirror.struct spans)
  value
    | .inl _ => none
    | .inr (.inl data) => some (mirror.value data)
  lift memory base := switchOption (memory.load base 1) (mirror.lift memory (base + type.align))
  follow memory
    | none => some none
    | some struct => (mirror.follow memory struct).map some
  frees memory
    | none => some []
    | some struct => mirror.frees memory struct
  lift_eq memory base := by
    rw [get_option, mirror.lift_eq]
    match memory.load base 1 with
    | 0 => rfl
    | 1 =>
      simp only [getCase, switchOption]
      cases get memory type (base + type.align) <;> rfl
    | _ + 2 => rfl
  follow_eq memory spans := by
    match spans with
    | .inl _ => rfl
    | .inr (.inl here) =>
      simp only [mirror.follow_eq, Ty.option, read, readCase]
      cases read memory type here <;> rfl
  frees_eq memory spans := by
    match spans with
    | .inl _ => rfl
    | .inr (.inl here) => exact mirror.frees_eq memory here

def result (ok : Mirror type C V) (err : Mirror other D W) : Mirror (.result type other) (Except D C) (Except W V) where
  struct
    | .inl spans => .ok (ok.struct spans)
    | .inr (.inl spans) => .error (err.struct spans)
  value
    | .inl data => .ok (ok.value data)
    | .inr (.inl data) => .error (err.value data)
  lift memory base := switchResult (memory.load base 1) (ok.lift memory (base + max type.align other.align))
    (err.lift memory (base + max type.align other.align))
  follow memory
    | .ok struct => (ok.follow memory struct).map .ok
    | .error struct => (err.follow memory struct).map .error
  frees memory
    | .ok struct => ok.frees memory struct
    | .error struct => err.frees memory struct
  lift_eq memory base := by
    rw [get_result, ok.lift_eq, err.lift_eq]
    match memory.load base 1 with
    | 0 =>
      simp only [getCase, switchResult]
      cases get memory type (base + max type.align other.align) <;> rfl
    | 1 =>
      simp only [getCase, switchResult]
      cases get memory other (base + max type.align other.align) <;> rfl
    | _ + 2 => rfl
  follow_eq memory spans := by
    match spans with
    | .inl here =>
      simp only [ok.follow_eq, Ty.result, read, readCase]
      cases read memory type here <;> rfl
    | .inr (.inl here) =>
      simp only [err.follow_eq, Ty.result, read, readCase]
      cases read memory other here <;> rfl
  frees_eq memory spans := by
    match spans with
    | .inl here => exact ok.frees_eq memory here
    | .inr (.inl here) => exact err.frees_eq memory here

/-- A list is passed as its span; its elements are structs in an array. -/
def list (mirror : Mirror type C V) : Mirror (.list type) Span (List V) where
  struct := id
  value items := List.map mirror.value items
  lift memory base := some ⟨BitVec.ofNat 32 (memory.load base 4), BitVec.ofNat 32 (memory.load (base + 4) 4)⟩
  follow memory span := (List.range span.len.toNat).mapM fun index => do
    let struct ← mirror.lift memory (span.ptr.toNat + index * type.size)
    mirror.follow memory struct
  frees memory span := freeEach span.len.toNat span.ptr.toNat type.size fun address => do
    let struct ← mirror.lift memory address
    mirror.frees memory struct
  lift_eq _ _ := rfl
  follow_eq memory span := by
    obtain ⟨ptr, len⟩ := span
    have each : ∀ address, (mirror.lift memory address).bind (mirror.follow memory) =
        (get memory type address).bind fun spans => (read memory type spans).map mirror.value := fun address => by
      rw [mirror.lift_eq, Option.bind_map]
      exact congrArg _ (funext fun spans => mirror.follow_eq memory spans)
    simp only [id, read, getAll_eq, Option.bind_eq_bind, each, mapM_bind, mapM_map_some]
    cases (List.range len.toNat).mapM fun index => get memory type (ptr.toNat + index * type.size) with
    | none => rfl
    | some spans =>
      simp only [Option.bind_some]
      cases spans.mapM (read memory type) <;> rfl
  frees_eq memory span := by
    obtain ⟨ptr, len⟩ := span
    have each : ∀ address, (mirror.lift memory address).bind (mirror.frees memory) =
        (get memory type address).bind (owned memory type) := fun address => by
      rw [mirror.lift_eq, Option.bind_map]
      exact congrArg _ (funext fun spans => mirror.frees_eq memory spans)
    simp only [id, owned, getAll_eq, freeEach, Option.bind_eq_bind, each, mapM_bind, Nat.pos_iff_ne_zero, ite_not,
      Option.bind_assoc]

/-- A list without anything to free in its elements. -/
def flat (mirror : Mirror type C V) (empty : ∀ memory address, (mirror.lift memory address).bind (mirror.frees memory) = some []) :
    Mirror (.list type) Span (List V) :=
  mirror.list.freeing (fun _ span => some (freeSpan span)) fun memory span => by
    have inner := List.mapM_pure (m := Option) (l := List.range span.len.toNat) (f := fun _ => ([] : List Nat))
    simp only [list, freeEach, freeSpan, Option.bind_eq_bind, empty]
    rw [show (fun _ : Nat => some ([] : List Nat)) = fun _ => pure [] from rfl, inner]
    split <;> simp

/-- The bytes of a string. -/
def string : Mirror .string Span (List UInt8) :=
  ((word .byte).flat fun _ _ => rfl).map id (List.map UInt8.ofBitVec)
    (fun memory span => some (slice memory span)) (fun _ span => some (freeSpan span))
    (fun memory span => by
      have byte : ∀ address, UInt8.ofBitVec (BitVec.ofNat 8 (memory.load address 1)) = memory address :=
        fun address => by simp [Memory.load]
      have whole := List.mapM_pure (m := Option) (l := List.range span.len.toNat)
        (f := fun index => BitVec.ofNat 8 (memory.load (span.ptr.toNat + index * 1) 1))
      refine Eq.trans ?_ (congrArg (Option.map (List.map UInt8.ofBitVec)) whole).symm
      simp [slice, byte])
    (fun _ _ => rfl)

end Mirror

/-- Mirrors of the cases of one variant: C code switches over the tag and lifts the payload
of that case. -/
structure Cases {C V : Type} (follow : Memory → C → Option V) (frees : Memory → C → Option (List Nat)) (cases : Tys) where
  struct : Case .spans cases → C
  value : Case .lists cases → V
  lift : Memory → (tag base : Nat) → Option C
  lift_eq : ∀ memory tag base, lift memory tag base = (getCase memory cases tag base).map struct
  follow_eq : ∀ memory spans, follow memory (struct spans) = (readCase memory cases spans).map value
  frees_eq : ∀ memory spans, frees memory (struct spans) = ownedCase memory cases spans

namespace Cases

variable {C V D W : Type} {follow : Memory → C → Option V} {frees : Memory → C → Option (List Nat)} {head : Ty} {tail : Tys}

def nil : Cases follow frees .nil where
  struct := Empty.elim
  value := Empty.elim
  lift _ _ _ := none
  lift_eq _ _ _ := rfl
  follow_eq _ spans := spans.elim
  frees_eq _ spans := spans.elim

def cons (mirror : Mirror head D W) (struct : D → C) (value : W → V)
    (follow_eq : ∀ memory payload, follow memory (struct payload) = (mirror.follow memory payload).map value)
    (frees_eq : ∀ memory payload, frees memory (struct payload) = mirror.frees memory payload)
    (rest : Cases follow frees tail) : Cases follow frees (.cons head tail) where
  struct
    | .inl spans => struct (mirror.struct spans)
    | .inr other => rest.struct other
  value
    | .inl data => value (mirror.value data)
    | .inr other => rest.value other
  lift memory tag base := match tag with
    | 0 => (mirror.lift memory base).map struct
    | tag + 1 => rest.lift memory tag base
  lift_eq memory tag base := by
    match tag with
    | 0 =>
      simp only [getCase, mirror.lift_eq]
      cases get memory head base <;> rfl
    | tag + 1 =>
      simp only [getCase, rest.lift_eq]
      cases getCase memory tail tag base <;> rfl
  follow_eq memory spans := by
    match spans with
    | .inl here =>
      simp only [follow_eq, mirror.follow_eq, readCase]
      cases read memory head here <;> rfl
    | .inr other =>
      simp only [rest.follow_eq, readCase]
      cases readCase memory tail other <;> rfl
  frees_eq memory spans := by
    match spans with
    | .inl here => exact (frees_eq memory (mirror.struct here)).trans (mirror.frees_eq memory here)
    | .inr other => exact rest.frees_eq memory other

def mirror {types : Tys} (cases : Cases follow frees types) : Mirror (.variant types) C V where
  struct := cases.struct
  value := cases.value
  lift memory base := cases.lift memory (memory.load base (discriminant types.length)) (base + types.payload)
  follow := follow
  frees := frees
  lift_eq memory _ := cases.lift_eq memory _ _
  follow_eq := cases.follow_eq
  frees_eq := cases.frees_eq

end Cases

end Wit

end WasiWheels
