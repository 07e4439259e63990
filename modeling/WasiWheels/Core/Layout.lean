import WasiWheels.Core.Wit

/-! What is put at an address is read back from it, and nothing around it changes. -/

namespace WasiWheels

namespace Wit

open Memory (bytes bytes_subset bytes_before)

theorem le_alignTo {align : Nat} (positive : 0 < align) (offset : Nat) : offset ≤ alignTo offset align := by
  have split := Nat.div_add_mod' (offset + align - 1) align
  have rest := Nat.mod_lt (offset + align - 1) positive
  unfold alignTo
  omega

theorem Width.bytes_pos (width : Width) : 0 < width.bytes := by
  cases width <;> decide

theorem Tys.align_pos (types : Tys) : 0 < types.align := by
  cases types with
  | nil => decide
  | cons head tail => exact Nat.lt_of_lt_of_le (Tys.align_pos tail) (Nat.le_max_right _ _)

theorem Ty.align_pos (type : Ty) : 0 < type.align := by
  cases type with
  | word width => exact width.bytes_pos
  | list element => exact Nat.succ_pos 3
  | record fields => exact fields.align_pos
  | variant cases => exact Nat.lt_of_lt_of_le cases.align_pos (Nat.le_max_right _ _)

theorem Tys.le_finish (fields : Tys) (offset : Nat) : offset ≤ fields.finish offset := by
  cases fields with
  | nil => exact Nat.le_refl offset
  | cons head tail =>
    have aligned := le_alignTo head.align_pos offset
    have later := Tys.le_finish tail (alignTo offset head.align + head.size)
    simp only [Tys.finish]
    omega

theorem Ty.finish_le_size (fields : Tys) : fields.finish 0 ≤ (Ty.record fields).size := by
  rw [Ty.size]
  exact le_alignTo fields.align_pos _

theorem Ty.payload_le_size (cases : Tys) : cases.payload + cases.widest ≤ (Ty.variant cases).size := by
  rw [Ty.size]
  exact le_alignTo (Ty.align_pos (.variant cases)) _

theorem Tys.discriminant_le_payload (cases : Tys) : discriminant cases.length ≤ cases.payload :=
  le_alignTo cases.align_pos _

section Outside

/-- A field inside its record. -/
private theorem field_subset (base offset : Nat) (head : Ty) (tail : Tys) :
    bytes (base + alignTo offset head.align) head.size ⊆
      bytes (base + offset) ((Tys.cons head tail).finish offset - offset) := by
  have aligned := le_alignTo head.align_pos offset
  have later := tail.le_finish (alignTo offset head.align + head.size)
  refine bytes_subset (by omega) ?_
  simp only [Tys.finish]
  omega

/-- The later fields inside the record. -/
private theorem rest_subset (base offset : Nat) (head : Ty) (tail : Tys) :
    bytes (base + (alignTo offset head.align + head.size))
        (tail.finish (alignTo offset head.align + head.size) - (alignTo offset head.align + head.size)) ⊆
      bytes (base + offset) ((Tys.cons head tail).finish offset - offset) := by
  have aligned := le_alignTo head.align_pos offset
  have later := tail.le_finish (alignTo offset head.align + head.size)
  refine bytes_subset (by omega) ?_
  simp only [Tys.finish]
  omega

private theorem fields_subset (base : Nat) (fields : Tys) :
    bytes (base + 0) (fields.finish 0 - 0) ⊆ bytes base (Ty.record fields).size :=
  bytes_subset (Nat.le_refl base) (Nat.add_le_add_left (Ty.finish_le_size fields) base)

private theorem tag_subset (base : Nat) (cases : Tys) :
    bytes base (discriminant cases.length) ⊆ bytes base (Ty.variant cases).size := by
  have before := cases.discriminant_le_payload
  have within := Ty.payload_le_size cases
  exact bytes_subset (Nat.le_refl base) (by omega)

private theorem payload_subset (base : Nat) (cases : Tys) :
    bytes (base + cases.payload) cases.widest ⊆ bytes base (Ty.variant cases).size := by
  have within := Ty.payload_le_size cases
  exact bytes_subset (Nat.le_add_right base _) (by omega)

private theorem compl_mono {smaller larger : Set Nat} (inside : smaller ⊆ larger) : largerᶜ ⊆ smallerᶜ :=
  Set.compl_subset_compl.mpr inside

mutual

theorem put_outside (memory : Memory) : (type : Ty) → (base : Nat) → (value : Data .spans type) →
    Set.EqOn (put memory type base value) memory (bytes base type.size)ᶜ
  | .word width, base, value => memory.store_outside base width.bytes _
  | .list _, base, ⟨ptr, len⟩ => by
    have low := (memory.store_outside base 4 ptr.toNat).mono (compl_mono (bytes_subset (Nat.le_refl base) (by omega : base + 4 ≤ base + 8)))
    have high := ((memory.store base 4 ptr.toNat).store_outside (base + 4) 4 len.toNat).mono
      (compl_mono (bytes_subset (Nat.le_add_right base 4) (by omega : base + 4 + 4 ≤ base + 8)))
    exact high.trans low
  | .record fields, base, values =>
    (putFields_outside memory fields base 0 values).mono (compl_mono (fields_subset base fields))
  | .variant cases, base, value => by
    have tag := (memory.store_outside base (discriminant cases.length) value.tag).mono (compl_mono (tag_subset base cases))
    have payload := (putCase_outside (memory.store base (discriminant cases.length) value.tag) cases
      (base + cases.payload) value).mono (compl_mono (payload_subset base cases))
    exact payload.trans tag

theorem putFields_outside (memory : Memory) : (fields : Tys) → (base offset : Nat) → (values : Fields .spans fields) →
    Set.EqOn (putFields memory fields base offset values) memory (bytes (base + offset) (fields.finish offset - offset))ᶜ
  | .nil, _, _, _ => Set.eqOn_refl _ _
  | .cons head tail, base, offset, (first, rest) => by
    have here := (put_outside memory head (base + alignTo offset head.align) first).mono
      (compl_mono (field_subset base offset head tail))
    have later := (putFields_outside (put memory head (base + alignTo offset head.align) first) tail base
      (alignTo offset head.align + head.size) rest).mono (compl_mono (rest_subset base offset head tail))
    exact later.trans here

theorem putCase_outside (memory : Memory) : (cases : Tys) → (base : Nat) → (value : Case .spans cases) →
    Set.EqOn (putCase memory cases base value) memory (bytes base cases.widest)ᶜ
  | .cons head tail, base, .inl value => (put_outside memory head base value).mono
      (compl_mono (bytes_subset (Nat.le_refl base) (Nat.add_le_add_left (Nat.le_max_left head.size tail.widest) base)))
  | .cons head tail, base, .inr other => (putCase_outside memory tail base other).mono
      (compl_mono (bytes_subset (Nat.le_refl base) (Nat.add_le_add_left (Nat.le_max_right head.size tail.widest) base)))

end

mutual

/-- A value is read from its own bytes only. -/
theorem get_congr {first second : Memory} : (type : Ty) → (base : Nat) →
    Set.EqOn first second (bytes base type.size) → get first type base = get second type base
  | .word width, base, agree => by
    have word : first.load base width.bytes = second.load base width.bytes := Memory.load_congr agree
    rw [get, get, word]
  | .list _, base, agree => by
    have low := Memory.load_congr (agree.mono (bytes_subset (Nat.le_refl base) (by omega : base + 4 ≤ base + 8)))
    have high := Memory.load_congr (agree.mono (bytes_subset (Nat.le_add_right base 4) (by omega : base + 4 + 4 ≤ base + 8)))
    rw [get, get, low, high]
  | .record fields, base, agree => by
    rw [get, get, getFields_congr fields base 0 (agree.mono (fields_subset base fields))]
  | .variant cases, base, agree => by
    have tag := Memory.load_congr (agree.mono (tag_subset base cases))
    rw [get, get, tag, getCase_congr cases _ _ (agree.mono (payload_subset base cases))]

theorem getFields_congr {first second : Memory} : (fields : Tys) → (base offset : Nat) →
    Set.EqOn first second (bytes (base + offset) (fields.finish offset - offset)) →
    getFields first fields base offset = getFields second fields base offset
  | .nil, _, _, _ => rfl
  | .cons head tail, base, offset, agree => by
    rw [getFields, getFields, get_congr head _ (agree.mono (field_subset base offset head tail)),
      getFields_congr tail _ _ (agree.mono (rest_subset base offset head tail))]

theorem getCase_congr {first second : Memory} : (cases : Tys) → (tag base : Nat) →
    Set.EqOn first second (bytes base cases.widest) → getCase first cases tag base = getCase second cases tag base
  | .nil, _, _, _ => rfl
  | .cons head tail, 0, base, agree => by
    have inside := bytes_subset (Nat.le_refl base) (Nat.add_le_add_left (Nat.le_max_left head.size tail.widest) base)
    rw [getCase, getCase, get_congr head base (agree.mono inside)]
  | .cons head tail, tag + 1, base, agree => by
    have inside := bytes_subset (Nat.le_refl base) (Nat.add_le_add_left (Nat.le_max_right head.size tail.widest) base)
    rw [getCase, getCase, getCase_congr tail tag base (agree.mono inside)]

end

end Outside

mutual

/-- The discriminants reach all cases, and no list has elements without a size. -/
def Ty.Legal : Ty → Prop
  | .word _ => True
  | .list element => 0 < element.size ∧ element.Legal
  | .record fields => fields.Legal
  | .variant cases => cases.length ≤ 2 ^ 32 ∧ cases.Legal

def Tys.Legal : Tys → Prop
  | .nil => True
  | .cons head tail => head.Legal ∧ tail.Legal

end

mutual

/-- Whether a type is legal can be computed. -/
def Ty.decLegal : (type : Ty) → Decidable type.Legal
  | .word _ => .isTrue trivial
  | .list element => @instDecidableAnd _ _ inferInstance element.decLegal
  | .record fields => fields.decLegal
  | .variant cases => @instDecidableAnd _ _ inferInstance cases.decLegal

def Tys.decLegal : (types : Tys) → Decidable types.Legal
  | .nil => .isTrue trivial
  | .cons head tail => @instDecidableAnd _ _ head.decLegal tail.decLegal

end

instance (type : Ty) : Decidable type.Legal := type.decLegal

theorem Case.tag_lt {form : Form} : {cases : Tys} → (value : Case form cases) → value.tag < cases.length
  | .cons _ _, .inl _ => Nat.succ_pos _
  | .cons _ _, .inr other => Nat.succ_lt_succ other.tag_lt

theorem length_le_discriminant {cases : Nat} (few : cases ≤ 2 ^ 32) : cases ≤ 256 ^ discriminant cases := by
  unfold discriminant
  split
  · omega
  · split <;> omega

mutual

/-- What is put is what is got. -/
theorem get_put (memory : Memory) : (type : Ty) → type.Legal → (base : Nat) → (value : Data .spans type) →
    get (put memory type base value) type base = some value
  | .word width, _, base, value => by
    have whole : 256 ^ width.bytes = 2 ^ (8 * width.bytes) := by rw [Nat.pow_mul]
    have small : BitVec.toNat value < 2 ^ (8 * width.bytes) := BitVec.isLt value
    rw [get, put, Memory.load_store, whole, Nat.mod_eq_of_lt small]
    exact congrArg some ((BitVec.ofNat_toNat _ value).trans (BitVec.setWidth_eq value))
  | .list _, _, base, ⟨ptr, len⟩ => by
    have word : 256 ^ 4 = 2 ^ 32 := by decide
    have low : ((memory.store base 4 ptr.toNat).store (base + 4) 4 len.toNat).load base 4 = ptr.toNat := by
      rw [Memory.load_congr ((Memory.store_outside _ (base + 4) 4 len.toNat).mono (bytes_before (Nat.le_refl _))),
        Memory.load_store, word, Nat.mod_eq_of_lt ptr.isLt]
    have high : ((memory.store base 4 ptr.toNat).store (base + 4) 4 len.toNat).load (base + 4) 4 = len.toNat := by
      rw [Memory.load_store, word, Nat.mod_eq_of_lt len.isLt]
    rw [get, put, low, high, BitVec.ofNat_toNat, BitVec.ofNat_toNat, BitVec.setWidth_eq, BitVec.setWidth_eq]
  | .record fields, legal, base, values => getFields_putFields memory fields legal base 0 values
  | .variant cases, ⟨few, legal⟩, base, value => by
    have tag : (put memory (.variant cases) base value).load base (discriminant cases.length) = value.tag := by
      have below := Nat.lt_of_lt_of_le value.tag_lt (length_le_discriminant few)
      rw [put, Memory.load_congr ((putCase_outside _ cases _ value).mono
        (bytes_before (Nat.add_le_add_left cases.discriminant_le_payload base))), Memory.load_store,
        Nat.mod_eq_of_lt below]
    rw [get, tag]
    exact getCase_putCase _ cases legal (base + cases.payload) value

theorem getFields_putFields (memory : Memory) : (fields : Tys) → fields.Legal → (base offset : Nat) →
    (values : Fields .spans fields) →
    getFields (putFields memory fields base offset values) fields base offset = some values
  | .nil, _, _, _, _ => rfl
  | .cons head tail, ⟨here, later⟩, base, offset, (first, rest) => by
    have kept := (putFields_outside (put memory head (base + alignTo offset head.align) first) tail base
      (alignTo offset head.align + head.size) rest).mono (bytes_before (Nat.le_of_eq (Nat.add_assoc _ _ _)))
    rw [getFields, putFields, get_congr head _ kept, get_put memory head here]
    rw [getFields_putFields _ tail later base _ rest]
    rfl

theorem getCase_putCase (memory : Memory) : (cases : Tys) → cases.Legal → (base : Nat) → (value : Case .spans cases) →
    getCase (putCase memory cases base value) cases value.tag base = some value
  | .cons head _, legal, base, .inl value => by
    rw [Case.tag, getCase, putCase, get_put memory head legal.1 base value]
    rfl
  | .cons _ tail, legal, base, .inr other => by
    rw [Case.tag, getCase, putCase, getCase_putCase memory tail legal.2 base other]
    rfl

end

end Wit

end WasiWheels
