import WasiWheels.Core.Rounding

/-! The replaced `operator new` of the duckdb module, and the sizes near the end of the
address space for which it hands out too little. -/

namespace WasiWheels.Native

/-- `std::size_t` on wasm32. -/
abbrev Size := BitVec 32

structure Block where
  address : Nat
  bytes : Nat

def PowerOfTwo (align : Size) : Prop := ∃ exponent, align.toNat = 2 ^ exponent

/-- The allocator of the C library, with what it promises about a block it returns. -/
structure CLibrary where
  malloc : Size → Option Block
  alignedAlloc : Size → Size → Option Block
  mallocBytes : ∀ {size block}, malloc size = some block → size.toNat ≤ block.bytes
  alignedBytes : ∀ {align size block}, PowerOfTwo align → align.toNat ∣ size.toNat →
    alignedAlloc align size = some block → size.toNat ≤ block.bytes ∧ align.toNat ∣ block.address

/-- `std::align_val_t` -/
structure Alignment where
  value : Size
  power : PowerOfTwo value

/-- How an `operator new` comes back. -/
inductive Answer where
  | block (block : Block)
  | null
  | badAlloc

section Source

variable (libc : CLibrary) (size : Size) (align : Alignment)

def doAlloc : Option Block := libc.malloc (if size ≠ 0 then size else 1)

/-- `sizeof(void *)` -/
def pointerSize : Size := 4

def doAllocAligned (align : Size) : Option Block :=
  let align := if align < pointerSize then pointerSize else align
  let size := if size = 0 then 1 else size
  let rounded := (size + align - 1) &&& ~~~(align - 1)
  libc.alignedAlloc align rounded

/-- `if (void *p = ..) return p; throw std::bad_alloc();` -/
def throwing : Option Block → Answer
  | some block => .block block
  | none => .badAlloc

def nothrow : Option Block → Answer
  | some block => .block block
  | none => .null

def operatorNew : Answer := throwing (doAlloc libc size)

def operatorNewArray : Answer := operatorNew libc size

def operatorNewAligned : Answer := throwing (doAllocAligned libc size align.value)

def operatorNewArrayAligned : Answer := operatorNewAligned libc size align

def operatorNewNothrow : Answer := nothrow (doAlloc libc size)

def operatorNewArrayNothrow : Answer := nothrow (doAlloc libc size)

def operatorNewAlignedNothrow : Answer := nothrow (doAllocAligned libc size align.value)

def operatorNewArrayAlignedNothrow : Answer := nothrow (doAllocAligned libc size align.value)

end Source

/-- The eight forms. -/
inductive Form where
  | new | newArray | newNothrow | newArrayNothrow
  | newAligned (align : Alignment) | newArrayAligned (align : Alignment)
  | newAlignedNothrow (align : Alignment) | newArrayAlignedNothrow (align : Alignment)

namespace Form

def run (libc : CLibrary) (size : Size) : Form → Answer
  | .new => operatorNew libc size
  | .newArray => operatorNewArray libc size
  | .newNothrow => operatorNewNothrow libc size
  | .newArrayNothrow => operatorNewArrayNothrow libc size
  | .newAligned align => operatorNewAligned libc size align
  | .newArrayAligned align => operatorNewArrayAligned libc size align
  | .newAlignedNothrow align => operatorNewAlignedNothrow libc size align
  | .newArrayAlignedNothrow align => operatorNewArrayAlignedNothrow libc size align

/-- The alignment the form is asked for, if it is asked for one. -/
def alignment : Form → Option Alignment
  | .new | .newArray | .newNothrow | .newArrayNothrow => none
  | .newAligned align | .newArrayAligned align => some align
  | .newAlignedNothrow align | .newArrayAlignedNothrow align => some align

def throws : Form → Bool
  | .new | .newArray | .newAligned _ | .newArrayAligned _ => true
  | .newNothrow | .newArrayNothrow | .newAlignedNothrow _ | .newArrayAlignedNothrow _ => false

/-- A failure in the form's own way, or a block of the size and alignment asked for. -/
def Honours (form : Form) (size : Size) : Answer → Prop
  | .block block => max size.toNat 1 ≤ block.bytes ∧ ∀ align ∈ form.alignment, align.value.toNat ∣ block.address
  | .null => form.throws = false
  | .badAlloc => form.throws = true

/-- Rounding the size up to the alignment stays within 32 bits. -/
def Fits (form : Form) (size : Size) : Prop :=
  ∀ align ∈ form.alignment, max size.toNat 1 + max align.value.toNat 4 ≤ 2 ^ 32

end Form

variable {libc : CLibrary} {size : Size} {block : Block}

theorem doAlloc_bytes (given : doAlloc libc size = some block) : max size.toNat 1 ≤ block.bytes := by
  have bytes := libc.mallocBytes given
  split at bytes
  · rename_i filled
    have positive : 0 < size.toNat := Nat.pos_of_ne_zero fun zero => filled (BitVec.eq_of_toNat_eq zero)
    omega
  · rename_i empty
    have zero : size = 0 := Decidable.not_not.mp empty
    subst zero
    exact bytes

/-- The alignment passed on is a power of two as well. -/
theorem raised_power (align : Alignment) :
    PowerOfTwo (if align.value < pointerSize then pointerSize else align.value) := by
  split
  · exact ⟨2, rfl⟩
  · exact align.power

theorem raised_toNat (align : Size) :
    (if align < pointerSize then pointerSize else align).toNat = max align.toNat 4 := by
  have bound : align < pointerSize ↔ align.toNat < 4 := BitVec.lt_def
  split
  · rename_i below
    exact (max_eq_right (bound.mp below).le).symm
  · rename_i above
    exact (max_eq_left (Nat.le_of_not_lt fun less => above (bound.mpr less))).symm

theorem filled_toNat (size : Size) : (if size = 0 then 1 else size).toNat = max size.toNat 1 := by
  split
  · rename_i zero
    subst zero
    rfl
  · rename_i filled
    have positive : 0 < size.toNat := Nat.pos_of_ne_zero fun zero => filled (BitVec.eq_of_toNat_eq zero)
    exact (max_eq_left positive).symm

theorem dvd_raised (align : Alignment) : align.value.toNat ∣ max align.value.toNat 4 := by
  obtain ⟨exponent, power⟩ := align.power
  rw [power]
  rcases Nat.lt_or_ge exponent 2 with small | large
  · have divides : 2 ^ exponent ∣ 4 := Nat.pow_dvd_pow (n := 2) 2 small.le
    have less : 2 ^ exponent ≤ 4 := Nat.le_of_dvd (by decide) divides
    rwa [max_eq_right less]
  · have less : 2 ^ 2 ≤ 2 ^ exponent := Nat.pow_le_pow_right (by decide) large
    rw [max_eq_left (show 4 ≤ 2 ^ exponent from less)]

/-- Within 32 bits the block is as large and as aligned as asked. -/
theorem doAllocAligned_bytes (align : Alignment) (fits : max size.toNat 1 + max align.value.toNat 4 ≤ 2 ^ 32)
    (given : doAllocAligned libc size align.value = some block) :
    max size.toNat 1 ≤ block.bytes ∧ align.value.toNat ∣ block.address := by
  unfold doAllocAligned at given
  dsimp only at given
  obtain ⟨exponent, power⟩ := raised_power align
  rw [← raised_toNat, ← filled_toNat] at fits
  have rounded := Rounding.toNat_roundUp power _ fits
  have multiple : (2 : Nat) ^ exponent ∣ _ := Dvd.intro_left _ rounded.symm
  rw [← power] at multiple
  obtain ⟨bytes, aligned⟩ := libc.alignedBytes ⟨exponent, power⟩ multiple given
  rw [raised_toNat] at aligned
  refine ⟨?_, (dvd_raised align).trans aligned⟩
  rw [← filled_toNat]
  exact (Rounding.le_roundUp _ exponent).trans (rounded ▸ bytes)

/-- A sum that wraps around asks the library for no bytes at all. -/
theorem doAllocAligned_wraps (libc : CLibrary) (align : Alignment)
    (wraps : 2 ^ 32 < max size.toNat 1 + max align.value.toNat 4) :
    doAllocAligned libc size align.value =
      libc.alignedAlloc (if align.value < pointerSize then pointerSize else align.value) 0 := by
  obtain ⟨exponent, power⟩ := raised_power align
  rw [← raised_toNat, ← filled_toNat] at wraps
  exact congrArg (libc.alignedAlloc _) (Rounding.roundUp_wraps power _ wraps)

/-- A library that has nothing to give but empty blocks. -/
def emptyBlocks : CLibrary where
  malloc _ := none
  alignedAlloc align size := if size = 0 then some ⟨align.toNat, 0⟩ else none
  mallocBytes given := by cases given
  alignedBytes := by
    intro align size block power multiple given
    split at given
    · rename_i zero
      subst zero
      cases given
      exact ⟨Nat.le_refl 0, Nat.dvd_refl _⟩
    · cases given

namespace Form

variable (form : Form)

/-- The pointer the form tests. -/
def pointer (libc : CLibrary) (size : Size) : Option Block :=
  match form.alignment with
  | none => doAlloc libc size
  | some align => doAllocAligned libc size align.value

theorem run_eq : form.run libc size =
    if form.throws then throwing (form.pointer libc size) else nothrow (form.pointer libc size) := by
  cases form with
  | _ => rfl

/-- Failure is always told in the form's own way, so only a block can disappoint. -/
theorem honours_pointer : form.Honours size (form.run libc size) ↔ ∀ block, form.pointer libc size = some block →
    max size.toNat 1 ≤ block.bytes ∧ ∀ align ∈ form.alignment, align.value.toNat ∣ block.address := by
  rw [run_eq]
  cases form.pointer libc size with
  | none =>
    refine iff_of_true ?_ (fun block given => by cases given)
    cases throws : form.throws with
    | true => exact throws
    | false => exact throws
  | some block =>
    refine Iff.trans ?_ ⟨fun honoured other given => by cases given; exact honoured, fun all => all block rfl⟩
    cases form.throws with
    | true => exact Iff.rfl
    | false => exact Iff.rfl

/-- A form honours a request, whatever the library returns, if and only if the rounded
size fits. -/
theorem honours_iff (size : Size) : (∀ libc : CLibrary, form.Honours size (form.run libc size)) ↔ form.Fits size := by
  simp only [honours_pointer, pointer]
  cases asked : form.alignment with
  | none =>
    refine iff_of_true (fun libc block given => ⟨doAlloc_bytes given, ?_⟩) ?_
    · exact fun align member => by cases member
    · unfold Fits
      rw [asked]
      exact fun align member => by cases member
  | some align =>
    have same : form.Fits size ↔ max size.toNat 1 + max align.value.toNat 4 ≤ 2 ^ 32 := by
      unfold Fits
      rw [asked]
      exact ⟨fun fits => fits align rfl, fun fits other member => by cases member; exact fits⟩
    rw [same]
    constructor
    · intro honoured
      by_contra wraps
      have given := doAllocAligned_wraps emptyBlocks align (Nat.lt_of_not_le wraps)
      have bytes := (honoured emptyBlocks _ given).1
      exact Nat.not_succ_le_zero 0 ((le_max_right _ _).trans bytes)
    · intro fits libc block given
      obtain ⟨bytes, aligned⟩ := doAllocAligned_bytes align fits given
      exact ⟨bytes, fun other member => by cases member; exact aligned⟩

/-- A request for all but one byte of the address space comes back with an empty block. -/
theorem wrapped_unhonoured : ¬ (newAligned ⟨64, 6, rfl⟩).Honours 0xFFFFFFFF
    ((newAligned ⟨64, 6, rfl⟩).run emptyBlocks 0xFFFFFFFF) := by
  intro honoured
  exact absurd honoured.1 (by decide)

end Form

end WasiWheels.Native
