import WasiWheels.Core.Layout

/-! Where the members of a structure lie: each as low as its alignment and the members
before it allow. -/

namespace WasiWheels

open Wit (alignTo le_alignTo)

theorem dvd_alignTo (offset align : Nat) : align ∣ alignTo offset align := Nat.dvd_mul_left align _

/-- No multiple from `offset` on is lower. -/
theorem alignTo_le {offset align multiple : Nat} (positive : 0 < align) (divides : align ∣ multiple)
    (above : offset ≤ multiple) : alignTo offset align ≤ multiple := by
  obtain ⟨factor, rfl⟩ := divides
  have quotient : (offset + align - 1) / align ≤ factor := by
    refine Nat.le_of_lt_succ ((Nat.div_lt_iff_lt_mul positive).mpr ?_)
    rw [Nat.succ_mul, Nat.mul_comm factor]
    omega
  rw [alignTo, Nat.mul_comm align]
  exact Nat.mul_le_mul_right align quotient

theorem alignTo_of_dvd {offset align : Nat} (positive : 0 < align) (divides : align ∣ offset) : alignTo offset align = offset :=
  Nat.le_antisymm (alignTo_le positive divides (Nat.le_refl offset)) (le_alignTo positive offset)

theorem alignTo_add_mul {align : Nat} (positive : 0 < align) (offset factor : Nat) :
    alignTo (offset + align * factor) align = alignTo offset align + align * factor := by
  have shifted : offset + align * factor + align - 1 = offset + align - 1 + align * factor := by omega
  rw [alignTo, alignTo, shifted, Nat.add_mul_div_left _ _ positive, Nat.add_mul, Nat.mul_comm factor]

/-- Rounding commutes with wrapping around at a multiple of the alignment. -/
theorem alignTo_mod {align modulus : Nat} (positive : 0 < align) (divides : align ∣ modulus) (offset : Nat) :
    alignTo (offset % modulus) align % modulus = alignTo offset align % modulus := by
  obtain ⟨factor, rfl⟩ := divides
  have split := Nat.mod_add_div offset (align * factor)
  calc alignTo (offset % (align * factor)) align % (align * factor)
      = (alignTo (offset % (align * factor)) align + align * factor * (offset / (align * factor))) % (align * factor) :=
        (Nat.add_mul_mod_self_left _ _ _).symm
    _ = alignTo (offset % (align * factor) + align * factor * (offset / (align * factor))) align % (align * factor) := by
        rw [Nat.mul_assoc, alignTo_add_mul positive]
    _ = alignTo offset align % (align * factor) := by rw [split]

/-- A member, as far as the layout goes. -/
structure Member where
  size : Nat
  exponent : Nat

namespace Member

def align (member : Member) : Nat := 2 ^ member.exponent

theorem align_pos (member : Member) : 0 < member.align := Nat.two_pow_pos member.exponent

/-- Members at these offsets are aligned, and none begins before the one before it ends. -/
inductive Fits : List Member → Nat → List Nat → Prop
  | nil {start} : Fits [] start []
  | cons {member rest start offset offsets} (aligned : member.align ∣ offset) (behind : start ≤ offset)
      (later : Fits rest (offset + member.size) offsets) : Fits (member :: rest) start (offset :: offsets)

/-- Each at the first place it fits. -/
def offsets : List Member → Nat → List Nat
  | [], _ => []
  | member :: rest, start => alignTo start member.align :: offsets rest (alignTo start member.align + member.size)

def finish : List Member → Nat → Nat
  | [], start => start
  | member :: rest, start => finish rest (alignTo start member.align + member.size)

def widest (members : List Member) : Nat := members.foldr (fun member exponent => max member.exponent exponent) 0

/-- The structure as a member, padded so that an array of it keeps its members aligned. -/
def struct (members : List Member) : Member where
  size := alignTo (finish members 0) (2 ^ widest members)
  exponent := widest members

theorem offsets_fits (members : List Member) (start : Nat) : Fits members start (offsets members start) := by
  induction members generalizing start with
  | nil => exact .nil
  | cons member rest ih => exact .cons (dvd_alignTo start _) (le_alignTo member.align_pos start) (ih _)

theorem le_finish (members : List Member) (start : Nat) : start ≤ finish members start := by
  induction members generalizing start with
  | nil => exact Nat.le_refl start
  | cons member rest ih =>
    have aligned := le_alignTo member.align_pos start
    exact Nat.le_trans (by omega) (ih (alignTo start member.align + member.size))

/-- No other placement puts a member lower. -/
theorem offsets_le {members : List Member} {start later : Nat} {others : List Nat} (fits : Fits members later others)
    (above : start ≤ later) : List.Forall₂ (· ≤ ·) (offsets members start) others := by
  induction fits generalizing start with
  | nil => exact .nil
  | @cons member rest later offset others aligned behind _ ih =>
    have first : alignTo start member.align ≤ offset := alignTo_le member.align_pos aligned (Nat.le_trans above behind)
    exact .cons first (ih (Nat.add_le_add_right first member.size))

/-- The last member ends here, the others before it. -/
theorem offsets_inside (members : List Member) (start : Nat) :
    ∀ placed ∈ members.zip (offsets members start), placed.2 + placed.1.size ≤ finish members start := by
  induction members generalizing start with
  | nil => exact fun _ member => absurd member List.not_mem_nil
  | cons member rest ih =>
    intro placed inside
    rcases List.mem_cons.mp inside with rfl | later
    · exact le_finish rest _
    · exact ih _ placed later

theorem size_le_finish {members : List Member} : ∀ member ∈ members, ∀ start, member.size ≤ finish members start := by
  induction members with
  | nil => exact fun _ member => absurd member List.not_mem_nil
  | cons first rest ih =>
    intro member inside start
    rcases List.mem_cons.mp inside with rfl | later
    · exact Nat.le_trans (Nat.le_add_left _ _) (le_finish rest _)
    · exact ih member later _

theorem size_le_struct {members : List Member} (member : Member) (inside : member ∈ members) :
    member.size ≤ (struct members).size :=
  Nat.le_trans (size_le_finish member inside 0) (le_alignTo (Nat.two_pow_pos _) _)

theorem offset_le_finish (members : List Member) (start : Nat) :
    ∀ offset ∈ offsets members start, offset ≤ finish members start := by
  induction members generalizing start with
  | nil => exact fun _ member => absurd member List.not_mem_nil
  | cons first rest ih =>
    intro offset inside
    rcases List.mem_cons.mp inside with rfl | later
    · exact Nat.le_trans (Nat.le_add_right _ first.size) (le_finish rest _)
    · exact ih _ offset later

theorem offset_le_struct {members : List Member} (offset : Nat) (inside : offset ∈ offsets members 0) :
    offset ≤ (struct members).size :=
  Nat.le_trans (offset_le_finish members 0 offset inside) (le_alignTo (Nat.two_pow_pos _) _)

theorem finish_least {members : List Member} {start last : Nat} (some : members ≠ [])
    (inside : ∀ placed ∈ members.zip (offsets members start), placed.2 + placed.1.size ≤ last) :
    finish members start ≤ last := by
  induction members generalizing start with
  | nil => exact absurd rfl some
  | cons member rest ih =>
    cases rest with
    | nil => exact inside (member, alignTo start member.align) List.mem_cons_self
    | cons next others =>
      exact ih (List.cons_ne_nil next others) fun placed later => inside placed (List.mem_cons_of_mem _ later)

theorem exponent_le_widest {members : List Member} : ∀ member ∈ members, member.exponent ≤ widest members := by
  induction members with
  | nil => exact fun _ member => absurd member List.not_mem_nil
  | cons first rest ih =>
    intro member inside
    rcases List.mem_cons.mp inside with rfl | later
    · exact Nat.le_max_left _ _
    · exact Nat.le_trans (ih member later) (Nat.le_max_right _ _)

theorem widest_mem {members : List Member} (some : members ≠ []) : ∃ member ∈ members, member.exponent = widest members := by
  induction members with
  | nil => exact absurd rfl some
  | cons first rest ih =>
    by_cases wide : widest rest ≤ first.exponent
    · exact ⟨first, List.mem_cons_self, (Nat.max_eq_left wide).symm⟩
    · cases rest with
      | nil => exact absurd (Nat.zero_le _) wide
      | cons next others =>
        obtain ⟨member, inside, same⟩ := ih (List.cons_ne_nil next others)
        refine ⟨member, List.mem_cons_of_mem _ inside, same.trans (Nat.max_eq_right ?_).symm⟩
        exact Nat.le_of_lt (Nat.lt_of_not_le wide)

/-- The rules of C for a structure, with nothing wasted. -/
structure Layout (members : List Member) (placed : List Nat) (size align : Nat) : Prop where
  fits : Fits members 0 placed
  lowest : ∀ others, Fits members 0 others → List.Forall₂ (· ≤ ·) placed others
  inside : ∀ pair ∈ members.zip placed, pair.2 + pair.1.size ≤ size
  strictest : (∀ member ∈ members, member.align ∣ align) ∧ ∃ member ∈ members, member.align = align
  padded : align ∣ size
  smallest : ∀ other, align ∣ other → (∀ pair ∈ members.zip placed, pair.2 + pair.1.size ≤ other) → size ≤ other

theorem struct_layout {members : List Member} (some : members ≠ []) :
    Layout members (offsets members 0) (struct members).size (struct members).align where
  fits := offsets_fits members 0
  lowest _ fits := offsets_le fits (Nat.le_refl 0)
  inside placed member := Nat.le_trans (offsets_inside members 0 placed member) (le_alignTo (Nat.two_pow_pos _) _)
  strictest := by
    refine ⟨fun member inside => Nat.pow_dvd_pow 2 (exponent_le_widest member inside), ?_⟩
    obtain ⟨member, inside, same⟩ := widest_mem some
    exact ⟨member, inside, congrArg (2 ^ ·) same⟩
  padded := dvd_alignTo _ _
  smallest _ divides inside := alignTo_le (Nat.two_pow_pos _) divides (finish_least some inside)

theorem le_antisymm_all {placed others : List Nat} (below : List.Forall₂ (· ≤ ·) placed others)
    (above : List.Forall₂ (· ≤ ·) others placed) : placed = others := by
  induction below with
  | nil => rfl
  | cons first _ ih =>
    cases above with
    | cons second rest => rw [Nat.le_antisymm first second, ih rest]

/-- The rules leave no choice. -/
theorem Layout.unique {members : List Member} {placed others : List Nat} {size align size' align' : Nat}
    (layout : Layout members placed size align) (other : Layout members others size' align') :
    placed = others ∧ size = size' ∧ align = align' := by
  obtain rfl : placed = others :=
    le_antisymm_all (layout.lowest others other.fits) (other.lowest placed layout.fits)
  obtain rfl : align = align' := by
    obtain ⟨first, inside, rfl⟩ := layout.strictest.2
    obtain ⟨second, inside', rfl⟩ := other.strictest.2
    exact Nat.dvd_antisymm (other.strictest.1 first inside) (layout.strictest.1 second inside')
  exact ⟨rfl, Nat.le_antisymm (layout.smallest size' other.padded other.inside)
    (other.smallest size layout.padded layout.inside), rfl⟩

end Member

end WasiWheels
