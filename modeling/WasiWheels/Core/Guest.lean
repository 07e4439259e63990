import WasiWheels.Core.Layout
import Mathlib.Data.Set.BooleanAlgebra
import Mathlib.Order.CompletePartialOrder

/-! A guest: its memory and the rooms of it in use, which never overlap. A host places a
value in it, asking the guest for the room of every list, and the guest follows the
pointers back. -/

namespace WasiWheels

open Memory (bytes mem_bytes)

/-- Bytes in use: what `malloc` gave out, or a variable of a running function. -/
structure Room where
  base : Nat
  size : Nat
  deriving DecidableEq, Repr

def Room.bytes (room : Room) : Set Nat := Memory.bytes room.base room.size

/-- The addresses of some rooms. -/
def covered (rooms : List Room) : Set Nat := {address | ∃ room ∈ rooms, address ∈ room.bytes}

theorem covered_append (first second : List Room) : covered (first ++ second) = covered first ∪ covered second := by
  ext address
  simp [covered, or_and_right, exists_or]

theorem covered_subset {first second : List Room} (inside : first ⊆ second) : covered first ⊆ covered second :=
  fun _ ⟨room, member, here⟩ => ⟨room, inside member, here⟩

theorem covered_singleton (room : Room) : covered [room] = room.bytes := by
  ext address
  simp [covered]

/-- A guest; no byte of it is in two rooms. -/
structure Guest where
  memory : Memory
  rooms : List Room
  apart : rooms.Pairwise fun first second => Disjoint first.bytes second.bytes
  addressable : ∀ room ∈ rooms, 0 < room.size ∧ room.base + room.size ≤ 2 ^ 32

namespace Guest

def write (guest : Guest) (memory : Memory) : Guest := { guest with memory }

@[simp] theorem write_memory (guest : Guest) (memory : Memory) : (guest.write memory).memory = memory := rfl
@[simp] theorem write_rooms (guest : Guest) (memory : Memory) : (guest.write memory).rooms = guest.rooms := rfl

/-- Gives back the room that begins at an address; there has to be one. -/
def free (guest : Guest) (base : Nat) : Option Guest :=
  if guest.rooms.any (·.base == base) then
    some { guest with
      rooms := guest.rooms.eraseP (·.base == base)
      apart := guest.apart.sublist List.eraseP_sublist
      addressable := fun room inside => guest.addressable room (List.eraseP_sublist.subset inside) }
  else none

def freeAll : List Nat → Guest → Option Guest
  | [], guest => some guest
  | base :: rest, guest => (guest.free base).bind (freeAll rest)

/-- A request for room: the address, and the guest with the room in use. -/
abbrev Realloc := Guest → (align size : Nat) → Option (Nat × Guest)

/-- What a host relies on: an answer is a new room, and the rooms in use keep their bytes.
Nothing is taken for a size of zero. -/
structure Serves (realloc : Realloc) : Prop where
  takes : ∀ {guest align size base after}, 0 < size → realloc guest align size = some (base, after) →
    after.rooms = ⟨base, size⟩ :: guest.rooms ∧ Set.EqOn after.memory guest.memory (covered guest.rooms)
  idle : ∀ {guest align base after}, realloc guest align 0 = some (base, after) → after = guest

/-- New rooms are in use and the old ones kept their bytes. -/
structure Grown (before after : Guest) (rooms : List Room) : Prop where
  rooms : after.rooms = rooms ++ before.rooms
  kept : Set.EqOn after.memory before.memory (covered before.rooms)

theorem Grown.refl (guest : Guest) : Grown guest guest [] := ⟨rfl, Set.eqOn_refl _ _⟩

theorem Grown.trans {first second third : Guest} {rooms later : List Room} (before : Grown first second rooms)
    (after : Grown second third later) : Grown first third (later ++ rooms) where
  rooms := by rw [after.rooms, before.rooms, List.append_assoc]
  kept := (after.kept.mono (covered_subset (by
    rw [before.rooms]
    exact List.subset_append_right _ _))).trans before.kept

/-- New rooms lie away from the old ones. -/
theorem Grown.disjoint {before after : Guest} {rooms : List Room} (grown : Grown before after rooms) :
    Disjoint (covered rooms) (covered before.rooms) := by
  have apart := after.apart
  rw [grown.rooms, List.pairwise_append] at apart
  refine Set.disjoint_left.mpr ?_
  rintro address ⟨room, here, inside⟩ ⟨other, there, within⟩
  exact Set.disjoint_left.mp (apart.2.2 room here other there) inside within

theorem free_eq {guest : Guest} {rooms old : List Room} (whole : guest.rooms = rooms ++ old) {room : Room}
    (here : room ∈ rooms) : ∃ after, guest.free room.base = some after ∧
      after.rooms = rooms.eraseP (·.base == room.base) ++ old ∧ after.memory = guest.memory := by
  have found : guest.rooms.any (·.base == room.base) = true :=
    List.any_eq_true.mpr ⟨room, by rw [whole]; exact List.mem_append_left _ here, beq_self_eq_true _⟩
  have freed : guest.free room.base = some _ := if_pos found
  refine ⟨_, freed, ?_, rfl⟩
  simp only [whole]
  exact List.eraseP_append_left (p := fun other : Room => other.base == room.base) (beq_self_eq_true room.base) old here

/-- Two rooms never begin at one address. -/
theorem base_ne {guest : Guest} {rooms old : List Room} (whole : guest.rooms = rooms ++ old) {room other : Room}
    (here : room ∈ rooms) (there : other ∈ old) : room.base ≠ other.base := by
  intro same
  have apart := guest.apart
  rw [whole, List.pairwise_append] at apart
  have sized := (guest.addressable room (whole ▸ List.mem_append_left old here)).1
  have others := (guest.addressable other (whole ▸ List.mem_append_right rooms there)).1
  exact Set.disjoint_left.mp (apart.2.2 room here other there) (mem_bytes.mpr ⟨Nat.le_refl _, by omega⟩)
    (mem_bytes.mpr ⟨by omega, by omega⟩)

theorem free_memory {guest after : Guest} {base : Nat} (freed : guest.free base = some after) :
    after.memory = guest.memory := by
  unfold free at freed
  split at freed
  · cases freed
    rfl
  · cases freed

theorem free_keeps {guest after : Guest} {base : Nat} (freed : guest.free base = some after) {room : Room}
    (inside : room ∈ guest.rooms) (elsewhere : room.base ≠ base) : room ∈ after.rooms := by
  unfold free at freed
  split at freed
  · cases freed
    exact (List.mem_eraseP_of_neg (by simpa using elsewhere)).mpr inside
  · cases freed

/-- Freeing the new rooms, in any order, leaves the old ones. -/
theorem freeAll_eq {frees : List Nat} {guest : Guest} {rooms old : List Room} (whole : guest.rooms = rooms ++ old)
    (order : frees.Perm (rooms.map Room.base)) :
    ∃ after, freeAll frees guest = some after ∧ after.rooms = old ∧ after.memory = guest.memory := by
  induction frees generalizing guest rooms with
  | nil =>
    obtain rfl := List.map_eq_nil_iff.mp (List.nil_perm.mp order)
    exact ⟨guest, rfl, whole, rfl⟩
  | cons base rest ih =>
    obtain ⟨room, here, rfl⟩ := List.mem_map.mp (order.subset List.mem_cons_self)
    have next : rest.Perm ((rooms.eraseP (·.base == room.base)).map Room.base) := by
      have erased := (List.cons_perm_iff_perm_erase.mp order).2
      rwa [List.erase_eq_eraseP', List.eraseP_map] at erased
    obtain ⟨freed, first, left, memory⟩ := free_eq whole here
    obtain ⟨after, frees, remain, same⟩ := ih left next
    exact ⟨after, by rw [freeAll, first, Option.bind_some, frees], remain, same.trans memory⟩

end Guest

end WasiWheels
