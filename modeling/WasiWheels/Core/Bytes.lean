import Mathlib.Data.Nat.Bitwise
import Mathlib.Data.Set.Function
import Mathlib.Order.Interval.Set.Basic

/-! A byte-addressed memory with little-endian words in it. Memories are compared on
sets of addresses. -/

namespace WasiWheels

abbrev Memory := Nat → UInt8

namespace Memory

/-- The addresses of `size` bytes from `base` on. -/
def bytes (base size : Nat) : Set Nat := Set.Ico base (base + size)

@[simp] theorem mem_bytes {base size address : Nat} : address ∈ bytes base size ↔ base ≤ address ∧ address < base + size :=
  Iff.rfl

theorem bytes_subset {base size inner width : Nat} (lower : base ≤ inner) (upper : inner + width ≤ base + size) :
    bytes inner width ⊆ bytes base size := fun address inside => by
  rw [mem_bytes] at inside ⊢
  omega

theorem bytes_before {base size later width : Nat} (before : base + size ≤ later) :
    bytes base size ⊆ (bytes later width)ᶜ := fun address inside outside => by
  rw [mem_bytes] at inside outside
  omega

/-- The number in the `width` bytes at `base`, lowest byte first. -/
def load (memory : Memory) (base : Nat) : (width : Nat) → Nat
  | 0 => 0
  | width + 1 => (memory base).toNat + 256 * load memory (base + 1) width

/-- Writes the lowest `width` bytes of a number at `base`. -/
def store (memory : Memory) (base : Nat) : (width : Nat) → Nat → Memory
  | 0, _ => memory
  | width + 1, value => fun address =>
    if address = base then UInt8.ofNat value else store memory (base + 1) width (value / 256) address

/-- A load reads its own bytes only. -/
theorem load_congr {first second : Memory} {base width : Nat} (agree : Set.EqOn first second (bytes base width)) :
    load first base width = load second base width := by
  induction width generalizing base with
  | zero => rfl
  | succ width ih =>
    have here := agree (mem_bytes.mpr ⟨Nat.le_refl base, by omega⟩)
    have rest := ih (agree.mono (bytes_subset (Nat.le_succ base) (by omega)))
    simp only [load, here, rest]

/-- A store leaves the bytes around it alone. -/
theorem store_outside (memory : Memory) (base width value : Nat) :
    Set.EqOn (store memory base width value) memory (bytes base width)ᶜ := by
  induction width generalizing base value with
  | zero => exact Set.eqOn_refl _ _
  | succ width ih =>
    intro address outside
    rw [Set.mem_compl_iff, mem_bytes] at outside
    have away : address ≠ base := by omega
    have above := ih (base + 1) (value / 256) (x := address) (by rw [Set.mem_compl_iff, mem_bytes]; omega)
    simp only [store, if_neg away, above]

/-- What was stored is loaded again, as far as the word holds it. -/
theorem load_store (memory : Memory) (base width value : Nat) :
    load (store memory base width value) base width = value % 256 ^ width := by
  induction width generalizing base value with
  | zero => simp [load, Nat.mod_one]
  | succ width ih =>
    have above : Set.EqOn (store memory base (width + 1) value) (store memory (base + 1) width (value / 256))
        (bytes (base + 1) width) := fun address inside => by
      have away : address ≠ base := by have := inside.1; omega
      simp only [store, if_neg away]
    have here : store memory base (width + 1) value base = UInt8.ofNat value := if_pos rfl
    have lowest : (UInt8.ofNat value).toNat = value % 256 := by simp
    rw [load, load_congr above, ih, here, lowest, Nat.pow_succ, Nat.mul_comm (256 ^ width), Nat.mod_mul]

end Memory

end WasiWheels
