import WasiWheels.Core.Rounding
import WasiWheels.Core.Struct
import WasiWheels.Native.Limits

/-! Where libffi puts the members of a structure and the arguments of a call, and where C
puts them. -/

namespace WasiWheels.Native

/-- The loop of `initialize_aggregate` with `offsets`. -/
def initializeOffsets : List FfiType → Unsigned → BitVec 16 →
    Except FfiStatus (List FfiType × List Unsigned × Unsigned × BitVec 16)
  | [], size, alignment => .ok ([], [], size, alignment)
  | element :: rest, size, alignment => do
    let element ← initialized element
    let offset := ffiAlign size element.alignment
    let alignment := if alignment > element.alignment then alignment else element.alignment
    let (elements, offsets, laid) ← initializeOffsets rest (offset + element.size) alignment
    .ok (element :: elements, offset :: offsets, laid)

def ffiGetStructOffsets (abi : Nat) (structType : FfiType) : Except FfiStatus (FfiType × List Unsigned) :=
  if ¬ (abi > firstAbi ∧ abi < lastAbi) then .error .badAbi
  else if structType.type ≠ .struct then .error .badTypedef
  else match structType.elements with
    | none => .error .badTypedef
    | some elements => do
      let (elements, offsets, size, alignment) ← initializeOffsets elements 0 0
      let size := ffiAlign size alignment
      if size = 0 then .error .badTypedef
      else .ok ({ structType with size, alignment, elements := some elements }, offsets)

/-- The two loops differ in what they write down. -/
theorem initializeElements_eq (elements : List FfiType) (size : Unsigned) (alignment : BitVec 16) :
    initializeElements elements size alignment =
      (initializeOffsets elements size alignment).map fun (laid, _, reached) => (laid, reached) := by
  induction elements generalizing size alignment with
  | nil => rfl
  | cons element rest ih =>
    rw [initializeElements_cons, initializeOffsets]
    cases initialized element with
    | error status => rfl
    | ok element =>
      dsimp only [bind, Except.bind]
      rw [ih]
      cases initializeOffsets rest _ _ with
      | error status => rfl
      | ok reached => rfl

mutual

/-- What C makes of a description, whatever its size. -/
def FfiType.member : FfiType → Member
  | ⟨size, alignment, _, none, _⟩ => ⟨size.toNat, alignment.toNat.log2⟩
  | ⟨size, alignment, _, some elements, _⟩ =>
    if size = 0 then Member.struct (members elements) else ⟨size.toNat, alignment.toNat.log2⟩

def members : List FfiType → List Member
  | [] => []
  | element :: rest => element.member :: members rest

end

theorem members_eq (elements : List FfiType) : members elements = elements.map FfiType.member := by
  induction elements with
  | nil => rfl
  | cons element rest ih => rw [members, ih, List.map_cons]

/-- A type with a size and an alignment, or an aggregate of such types. -/
inductive FfiType.Valid : FfiType → Prop
  | laid {type : FfiType} (sized : type.size ≠ 0) (power : type.alignment.toNat = 2 ^ type.alignment.toNat.log2) :
      Valid type
  | aggregate {alignment type elements isFloat} (some : elements ≠ [])
      (valid : ∀ element ∈ elements, Valid element) : Valid ⟨0, alignment, type, .some elements, isFloat⟩

/-- An aggregate is of a size that 32 bits hold as 0, or contains one that is. -/
inductive FfiType.Vanishes : FfiType → Prop
  | here {alignment type elements isFloat} (zero : BitVec.ofNat 32 (Member.struct (members elements)).size = 0) :
      Vanishes ⟨0, alignment, type, some elements, isFloat⟩
  | inside {alignment type elements isFloat element} (member : element ∈ elements) (vanishes : Vanishes element) :
      Vanishes ⟨0, alignment, type, some elements, isFloat⟩

/-- Laid out as in C, up to the width of a size. -/
structure FfiType.Laid (type laid : FfiType) : Prop where
  size : laid.size = BitVec.ofNat 32 type.member.size
  alignment : laid.alignment.toNat = type.member.align

theorem toNat_promoted {alignment : BitVec 16} {member : Member} (power : alignment.toNat = member.align) :
    (alignment.setWidth 32).toNat = 2 ^ member.exponent := by
  rw [BitVec.toNat_setWidth, Nat.mod_eq_of_lt (Nat.lt_trans alignment.isLt (by decide))]
  exact power

theorem ffiAlign_ofNat (start : Nat) {alignment : BitVec 16} {member : Member} (power : alignment.toNat = member.align) :
    ffiAlign (BitVec.ofNat 32 start) alignment = BitVec.ofNat 32 (Wit.alignTo start member.align) := by
  have positive : 0 < member.align := member.align_pos
  have narrow : member.align < 2 ^ 16 := power ▸ alignment.isLt
  have divides : member.align ∣ 2 ^ 32 :=
    Nat.pow_dvd_pow 2 (Nat.le_of_lt ((Nat.pow_lt_pow_iff_right (by decide)).mp (Nat.lt_trans narrow (by decide))))
  refine BitVec.eq_of_toNat_eq ((Rounding.toNat_filled (toNat_promoted power) _).trans ?_)
  rw [BitVec.toNat_ofNat, BitVec.toNat_ofNat, ← alignTo_mod positive divides start, Wit.alignTo,
    Nat.add_sub_assoc positive]
  rfl

/-- The strictest alignment, from the one met so far. -/
def strictest (alignment : Nat) (members : List Member) : Nat :=
  members.foldl (fun alignment member => max alignment member.align) alignment

theorem strictest_eq {members : List Member} (some : members ≠ []) (alignment : Nat) :
    strictest alignment members = max alignment (2 ^ Member.widest members) := by
  induction members generalizing alignment with
  | nil => exact absurd rfl some
  | cons member rest ih =>
    have larger : 2 ^ max member.exponent (Member.widest rest) = max member.align (2 ^ Member.widest rest) := by
      rcases Nat.le_total member.exponent (Member.widest rest) with below | below
      · rw [Nat.max_eq_right below]
        exact (Nat.max_eq_right (Nat.pow_le_pow_right (by decide) below)).symm
      · rw [Nat.max_eq_left below]
        exact (Nat.max_eq_left (Nat.pow_le_pow_right (by decide) below)).symm
    cases rest with
    | nil => exact congrArg (fun exponent => max alignment (2 ^ exponent)) (Nat.max_zero _).symm
    | cons next others =>
      calc strictest alignment (member :: next :: others)
          = max (max alignment member.align) (2 ^ Member.widest (next :: others)) :=
            ih (List.cons_ne_nil next others) (max alignment member.align)
        _ = max alignment (max member.align (2 ^ Member.widest (next :: others))) := max_assoc _ _ _
        _ = max alignment (2 ^ Member.widest (member :: next :: others)) := congrArg (max alignment) larger.symm

/-- Laying it out fails where a size vanishes, and goes as in C everywhere else. -/
structure FfiType.Accurate (type : FfiType) : Prop where
  refused : type.Vanishes → initialized type = .error .badTypedef
  laid : ¬ type.Vanishes → ∃ laid, initialized type = .ok laid ∧ type.Laid laid

section Loop

variable {elements : List FfiType} (accurate : ∀ element ∈ elements, element.Accurate)

include accurate

theorem initializeOffsets_refused (vanishing : ∃ element ∈ elements, element.Vanishes) (size : Unsigned)
    (alignment : BitVec 16) : initializeOffsets elements size alignment = .error .badTypedef := by
  induction elements generalizing size alignment with
  | nil =>
    obtain ⟨element, member, -⟩ := vanishing
    cases member
  | cons element rest ih =>
    rw [initializeOffsets]
    have first := accurate element List.mem_cons_self
    by_cases here : element.Vanishes
    · rw [first.refused here]
      rfl
    · obtain ⟨laid, done, -⟩ := first.laid here
      have later : ∃ element ∈ rest, element.Vanishes := by
        obtain ⟨other, member, vanishes⟩ := vanishing
        rcases List.mem_cons.mp member with rfl | inside
        · exact absurd vanishes here
        · exact ⟨other, inside, vanishes⟩
      rw [done]
      dsimp only [bind, Except.bind]
      rw [ih (fun other inside => accurate other (List.mem_cons_of_mem _ inside)) later]

/-- What the loop has reached when the members before it end at `start`. -/
theorem initializeOffsets_laid (sound : ∀ element ∈ elements, ¬ element.Vanishes) (start : Nat) (alignment : BitVec 16) :
    ∃ laid reached, initializeOffsets elements (BitVec.ofNat 32 start) alignment =
        .ok (laid, (Member.offsets (members elements) start).map (BitVec.ofNat 32),
          BitVec.ofNat 32 (Member.finish (members elements) start), reached) ∧
      reached.toNat = strictest alignment.toNat (members elements) ∧ List.Forall₂ FfiType.Laid elements laid := by
  induction elements generalizing start alignment with
  | nil => exact ⟨[], alignment, rfl, rfl, .nil⟩
  | cons element rest ih =>
    obtain ⟨first, done, placed⟩ := (accurate element List.mem_cons_self).laid (sound element List.mem_cons_self)
    obtain ⟨later, reached, looped, strict, all⟩ := ih (fun other inside => accurate other (List.mem_cons_of_mem _ inside))
      (fun other inside => sound other (List.mem_cons_of_mem _ inside))
      (Wit.alignTo start element.member.align + element.member.size)
      (if alignment > first.alignment then alignment else first.alignment)
    refine ⟨first :: later, reached, ?_, ?_, .cons placed all⟩
    · rw [initializeOffsets, done]
      dsimp only [bind, Except.bind]
      rw [ffiAlign_ofNat start placed.alignment, placed.size, ← BitVec.ofNat_add]
      rw [looped]
      rfl
    · rw [strict, members]
      change strictest _ _ = strictest (max alignment.toNat element.member.align) (members rest)
      rw [← placed.alignment]
      refine congrArg (strictest · (members rest)) ?_
      split
      · rename_i above
        exact (Nat.max_eq_left (Nat.le_of_lt above)).symm
      · rename_i above
        exact (Nat.max_eq_right (Nat.le_of_not_lt above)).symm

/-- The whole structure, before its size is looked at. -/
theorem initializeOffsets_struct (sound : ∀ element ∈ elements, ¬ element.Vanishes) (some : elements ≠ []) :
    ∃ laid reached, initializeOffsets elements 0 0 =
        .ok (laid, (Member.offsets (members elements) 0).map (BitVec.ofNat 32),
          BitVec.ofNat 32 (Member.finish (members elements) 0), reached) ∧
      reached.toNat = (Member.struct (members elements)).align ∧
      ffiAlign (BitVec.ofNat 32 (Member.finish (members elements) 0)) reached =
        BitVec.ofNat 32 (Member.struct (members elements)).size := by
  obtain ⟨laid, reached, looped, strict, -⟩ := initializeOffsets_laid accurate sound 0 0
  have nonempty : members elements ≠ [] := by
    rw [members_eq]
    exact fun none => some (List.map_eq_nil_iff.mp none)
  have power : reached.toNat = (Member.struct (members elements)).align :=
    (strict.trans (strictest_eq nonempty _)).trans (Nat.zero_max _)
  exact ⟨laid, reached, looped, power, ffiAlign_ofNat _ power⟩

theorem aggregate_accurate (some : elements ≠ []) (alignment : BitVec 16) (type : TypeId) (isFloat : Bool) :
    FfiType.Accurate ⟨0, alignment, type, .some elements, isFloat⟩ := by
  have tried : initialized ⟨0, alignment, type, .some elements, isFloat⟩ =
      initializeAggregate ⟨0, alignment, type, .some elements, isFloat⟩ := if_pos rfl
  by_cases vanishing : ∃ element ∈ elements, element.Vanishes
  · refine ⟨fun _ => ?_, fun sound => ?_⟩
    · rw [tried, initializeAggregate, initializeElements_eq, initializeOffsets_refused accurate vanishing]
      rfl
    · obtain ⟨element, member, vanishes⟩ := vanishing
      exact absurd (.inside member vanishes) sound
  · have sound : ∀ element ∈ elements, ¬ element.Vanishes := fun element member vanishes =>
      vanishing ⟨element, member, vanishes⟩
    obtain ⟨laid, reached, looped, power, padded⟩ := initializeOffsets_struct accurate sound some
    have summed : initialized ⟨0, alignment, type, .some elements, isFloat⟩ =
        if BitVec.ofNat 32 (Member.struct (members elements)).size = 0 then .error .badTypedef
        else .ok ⟨BitVec.ofNat 32 (Member.struct (members elements)).size, reached, type, .some laid, isFloat⟩ := by
      rw [tried, initializeAggregate, initializeElements_eq, looped]
      dsimp only [Except.map, bind, Except.bind]
      rw [padded]
    have whole : (FfiType.mk 0 alignment type (.some elements) isFloat).member = Member.struct (members elements) := by
      rw [FfiType.member, if_pos rfl]
    refine ⟨fun vanishes => ?_, fun full => ?_⟩
    · cases vanishes with
      | here zero => rw [summed, if_pos zero]
      | inside member vanishes => exact absurd vanishes (sound _ member)
    · rw [summed, if_neg fun zero => full (.here zero)]
      exact ⟨_, rfl, congrArg (fun member => BitVec.ofNat 32 member.size) whole.symm,
        power.trans (congrArg Member.align whole.symm)⟩

end Loop

theorem FfiType.Valid.accurate {type : FfiType} (valid : type.Valid) : type.Accurate := by
  induction valid with
  | @laid type sized power =>
    have done : initialized type = .ok type := if_neg sized
    have alone : type.member = ⟨type.size.toNat, type.alignment.toNat.log2⟩ := by
      obtain ⟨size, alignment, kind, elements, isFloat⟩ := type
      cases elements with
      | none => rw [FfiType.member]
      | some elements => rw [FfiType.member, if_neg sized]
    refine ⟨fun vanishes => ?_, fun _ => ⟨type, done, ?_, ?_⟩⟩
    · cases vanishes with
      | here => exact absurd rfl sized
      | inside => exact absurd rfl sized
    · rw [alone, BitVec.ofNat_toNat, BitVec.setWidth_eq]
    · rw [alone]
      exact power
  | aggregate some _ ih => exact aggregate_accurate ih some _ _ _

theorem FfiType.Valid.size_pos {type : FfiType} (valid : type.Valid) : 0 < type.member.size := by
  induction valid with
  | @laid type sized power =>
    have positive : 0 < type.size.toNat := Nat.pos_of_ne_zero fun zero => sized (BitVec.eq_of_toNat_eq zero)
    obtain ⟨size, alignment, kind, elements, isFloat⟩ := type
    cases elements with
    | none => exact positive
    | some elements =>
      rw [FfiType.member, if_neg sized]
      exact positive
  | @aggregate alignment type elements isFloat some _ ih =>
    rw [FfiType.member, if_pos rfl, members_eq]
    obtain ⟨element, member⟩ := List.exists_mem_of_ne_nil _ some
    exact Nat.lt_of_lt_of_le (ih element member) (Member.size_le_struct _ (List.mem_map_of_mem member))

/-- Only a size beyond 32 bits vanishes. -/
theorem FfiType.Valid.vanishes_large {type : FfiType} (valid : type.Valid) (vanishes : type.Vanishes) :
    2 ^ 32 ≤ type.member.size := by
  induction vanishes with
  | @here alignment kind elements isFloat zero =>
    have positive := valid.size_pos
    rw [FfiType.member, if_pos rfl] at positive ⊢
    refine Nat.le_of_not_lt fun small => ?_
    have same : (Member.struct (members elements)).size % 2 ^ 32 = 0 := congrArg BitVec.toNat zero
    rw [Nat.mod_eq_of_lt small] at same
    omega
  | @inside alignment kind elements isFloat element member _ ih =>
    have inner : element.Valid := by
      cases valid with
      | laid sized => exact absurd rfl sized
      | aggregate some valid => exact valid element member
    rw [FfiType.member, if_pos rfl, members_eq]
    exact Nat.le_trans (ih inner) (Member.size_le_struct _ (List.mem_map_of_mem member))

section Struct

variable {abi : Nat} {elements : List FfiType} (known : abi > firstAbi ∧ abi < lastAbi) (some : elements ≠ [])
  (valid : ∀ element ∈ elements, element.Valid)

include known some valid

/-- The offsets of a structure whose size does not vanish, with a layout it may have had before forgotten. -/
theorem structOffsets_laid (size : Unsigned) (alignment : BitVec 16) (isFloat : Bool)
    (full : ¬ FfiType.Vanishes ⟨0, alignment, .struct, .some elements, isFloat⟩) :
    ∃ laid, ffiGetStructOffsets abi ⟨size, alignment, .struct, .some elements, isFloat⟩ =
        .ok (laid, (Member.offsets (members elements) 0).map (BitVec.ofNat 32)) ∧
      laid.size = BitVec.ofNat 32 (Member.struct (members elements)).size ∧
      laid.alignment.toNat = (Member.struct (members elements)).align := by
  obtain ⟨laid, reached, looped, power, padded⟩ := initializeOffsets_struct
    (fun element member => (valid element member).accurate)
    (fun element member vanishes => full (.inside member vanishes)) some
  refine ⟨⟨BitVec.ofNat 32 (Member.struct (members elements)).size, reached, .struct, .some laid, isFloat⟩, ?_, rfl, power⟩
  rw [ffiGetStructOffsets, if_neg (not_not.mpr known), if_neg (not_not.mpr rfl)]
  dsimp only
  rw [looped]
  dsimp only [bind, Except.bind]
  rw [padded, if_neg fun zero => full (.here zero)]

/-- The offsets, the size and the alignment are those of C exactly when 32 bits hold the size. -/
theorem structOffsets_layout_iff (size : Unsigned) (alignment : BitVec 16) (isFloat : Bool) :
    (∃ laid offsets, ffiGetStructOffsets abi ⟨size, alignment, .struct, .some elements, isFloat⟩ = .ok (laid, offsets) ∧
      Member.Layout (members elements) (offsets.map BitVec.toNat) laid.size.toNat laid.alignment.toNat) ↔
      (Member.struct (members elements)).size < 2 ^ 32 := by
  have nonempty : members elements ≠ [] := by
    rw [members_eq]
    exact fun none => some (List.map_eq_nil_iff.mp none)
  constructor
  · rintro ⟨laid, offsets, done, layout⟩
    obtain ⟨-, same, -⟩ := layout.unique (Member.struct_layout nonempty)
    exact same ▸ laid.size.isLt
  · intro small
    have whole : (FfiType.mk 0 alignment .struct (.some elements) isFloat).member = Member.struct (members elements) := by
      rw [FfiType.member, if_pos rfl]
    have full : ¬ FfiType.Vanishes ⟨0, alignment, .struct, .some elements, isFloat⟩ := fun vanishes =>
      Nat.not_le_of_lt small (whole ▸ (FfiType.Valid.aggregate some valid).vanishes_large vanishes)
    obtain ⟨laid, done, sized, power⟩ := structOffsets_laid known some valid size alignment isFloat full
    refine ⟨laid, _, done, ?_⟩
    have exactly : ((Member.offsets (members elements) 0).map (BitVec.ofNat 32)).map BitVec.toNat =
        Member.offsets (members elements) 0 := by
      rw [List.map_map]
      refine (List.map_congr_left fun offset member => ?_).trans (List.map_id _)
      exact Nat.mod_eq_of_lt (Nat.lt_of_le_of_lt (Member.offset_le_struct offset member) small)
    rw [exactly, sized, power, BitVec.toNat_ofNat, Nat.mod_eq_of_lt small]
    exact Member.struct_layout nonempty

end Struct

/-- `signed char`, `short` and `int` -/
def schar : FfiType := ⟨1, 1, .sint8, none, false⟩
def sshort : FfiType := ⟨2, 2, .sint16, none, false⟩
def sint : FfiType := ⟨4, 4, .sint32, none, false⟩

/-- `struct { short s; int i; }`, not laid out yet -/
def inner : FfiType := ⟨0, 0, .struct, some [sshort, sint], false⟩

theorem schar_valid : schar.Valid := .laid (by decide) (by decide)
theorem sshort_valid : sshort.Valid := .laid (by decide) (by decide)
theorem sint_valid : sint.Valid := .laid (by decide) (by decide)

theorem inner_valid : inner.Valid :=
  .aggregate (List.cons_ne_nil _ _) (List.forall_mem_cons.mpr ⟨sshort_valid, List.forall_mem_singleton.mpr sint_valid⟩)

/-- `struct { char c; struct { short s; int i; } inner; }` -/
theorem structOffsets_nested : ∃ laid offsets,
    ffiGetStructOffsets wasm32 ⟨0, 0, .struct, some [schar, inner], false⟩ = .ok (laid, offsets) ∧
      Member.Layout (members [schar, inner]) (offsets.map BitVec.toNat) laid.size.toNat laid.alignment.toNat :=
  (structOffsets_layout_iff (by decide) (List.cons_ne_nil _ _)
    (List.forall_mem_cons.mpr ⟨schar_valid, List.forall_mem_singleton.mpr inner_valid⟩) 0 0 false).mpr (by decide)

/-- What an argument takes on the stack. -/
def FfiType.slot (type : FfiType) : Member where
  size := Wit.alignTo type.member.size 4
  exponent := type.member.exponent

/-- Where the argument area begins: behind the address a structure is returned at. -/
def FfiType.behind (rtype : FfiType) : Nat := if rtype.type = .struct then 4 else 0

/-- Every type of the interface laid out as in C, with room for the arguments one after the other. -/
structure Prepared (rtype : FfiType) (atypes : List FfiType) (cif : Cif) : Prop where
  result : rtype.Laid cif.rtype
  arguments : List.Forall₂ FfiType.Laid atypes cif.argTypes
  area : cif.bytes = BitVec.ofNat 32 (Member.finish (atypes.map FfiType.slot) rtype.behind)

/-- Nothing is lost by rounding only where a bit below the alignment is set. -/
theorem padded_eq (bytes : Unsigned) {alignment : BitVec 16} {member : Member} (power : alignment.toNat = member.align) :
    (if (alignment.setWidth 32 - 1) &&& bytes ≠ 0 then ffiAlign bytes alignment else bytes) = ffiAlign bytes alignment := by
  split
  · rfl
  · rename_i aligned
    have rest : bytes.toNat % 2 ^ member.exponent = 0 := by
      have none := congrArg BitVec.toNat (not_not.mp aligned)
      rw [BitVec.toNat_and] at none
      change (alignment.setWidth 32 - BitVec.ofNat 32 1).toNat &&& bytes.toNat = 0 at none
      rwa [Rounding.toNat_pred (toNat_promoted power), Nat.and_comm, Nat.and_two_pow_sub_one_eq_mod] at none
    have whole : BitVec.ofNat 32 bytes.toNat = bytes := BitVec.ofNat_toNat 32 bytes
    have same := ffiAlign_ofNat bytes.toNat power
    rwa [alignTo_of_dvd member.align_pos (Nat.dvd_of_mod_eq_zero rest), whole, eq_comm] at same

theorem stackArgSize_ofNat (size : Nat) : stackArgSize (BitVec.ofNat 32 size) = BitVec.ofNat 32 (Wit.alignTo size 4) :=
  ffiAlign_ofNat size (show (4 : BitVec 16).toNat = (Member.mk 4 2).align from rfl)

/-- One argument after the other, the first from `start` on. -/
theorem prepArgs_placed {types : List FfiType} (valid : ∀ type ∈ types, type.Valid) (start : Nat)
    {laid : List FfiType} {bytes : Unsigned} (done : prepArgs types (BitVec.ofNat 32 start) = .ok (laid, bytes)) :
    bytes = BitVec.ofNat 32 (Member.finish (types.map FfiType.slot) start) ∧ List.Forall₂ FfiType.Laid types laid := by
  induction types generalizing start laid bytes with
  | nil =>
    cases done
    exact ⟨rfl, .nil⟩
  | cons type rest ih =>
    have accurate := (valid type List.mem_cons_self).accurate
    by_cases vanishes : type.Vanishes
    · rw [prepArgs, accurate.refused vanishes] at done
      cases done
    · obtain ⟨first, filled, placed⟩ := accurate.laid vanishes
      rw [prepArgs, filled] at done
      dsimp only at done
      split at done
      · cases done
      · rw [padded_eq _ placed.alignment, ffiAlign_ofNat start placed.alignment, placed.size, stackArgSize_ofNat,
          ← BitVec.ofNat_add] at done
        cases looped : prepArgs rest (BitVec.ofNat 32 (Wit.alignTo start type.member.align + Wit.alignTo type.member.size 4)) with
        | error stop =>
          rw [looped] at done
          cases done
        | ok reached =>
          obtain ⟨same, later⟩ := ih (fun other member => valid other (List.mem_cons_of_mem _ member)) _ looped
          rw [looped] at done
          cases done
          exact ⟨same, .cons placed later⟩

/-- The machine hooks leave the layout alone. -/
theorem machdep_layout {cif prepared : Cif} {status : FfiStatus} (done : ffiPrepCifMachdep cif = .returned status prepared) :
    prepared.rtype = cif.rtype ∧ prepared.argTypes = cif.argTypes ∧ prepared.bytes = cif.bytes := by
  have counted : ∀ {flagged : Cif}, (if cif.flags &&& varargsFlag = 0 then { cif with nfixedargs := cif.nargs } else cif) = flagged →
      flagged.rtype = cif.rtype ∧ flagged.argTypes = cif.argTypes ∧ flagged.bytes = cif.bytes := by
    rintro flagged rfl
    split
    · exact ⟨rfl, rfl, rfl⟩
    · exact ⟨rfl, rfl, rfl⟩
  unfold ffiPrepCifMachdep at done
  split at done
  · cases done
    exact ⟨rfl, rfl, rfl⟩
  · generalize flagged : (if cif.flags &&& varargsFlag = 0 then { cif with nfixedargs := cif.nargs } else cif) = counter at done
    have same := counted flagged
    dsimp only at done
    repeat' split at done
    all_goals
      cases done
      exact same

theorem machdepVar_layout {cif prepared : Cif} {status : FfiStatus} {nfixedargs ntotalargs : Unsigned}
    (done : ffiPrepCifMachdepVar cif nfixedargs ntotalargs = .returned status prepared) :
    prepared.rtype = cif.rtype ∧ prepared.argTypes = cif.argTypes ∧ prepared.bytes = cif.bytes := by
  unfold ffiPrepCifMachdepVar at done
  dsimp only at done
  split at done
  · cases done
    exact ⟨rfl, rfl, rfl⟩
  · cases done
    exact ⟨rfl, rfl, rfl⟩

/-- A driver that succeeds has filled the interface in as C would. -/
theorem core_prepared {abi : Nat} {isvariadic : Bool} {nfixedargs ntotalargs : Unsigned} {rtype : FfiType}
    {atypes : List FfiType} {cif prepared : Cif} (result : rtype.Valid) (arguments : ∀ type ∈ atypes, type.Valid)
    (done : ffiPrepCifCore cif abi isvariadic nfixedargs ntotalargs rtype atypes = .returned .ok prepared) :
    Prepared rtype atypes prepared := by
  unfold ffiPrepCifCore at done
  split at done
  · cases done
  · by_cases vanishes : rtype.Vanishes
    · rw [result.accurate.refused vanishes] at done
      cases done
    · obtain ⟨laid, filled, placed⟩ := result.accurate.laid vanishes
      have start : (if laid.type = .struct then stackArgSize 4 else 0) = BitVec.ofNat 32 rtype.behind := by
        rw [FfiType.behind, initialized_type filled]
        split
        · rfl
        · rfl
      rw [filled] at done
      dsimp only at done
      split at done
      · cases done
      · rw [start] at done
        cases looped : prepArgs atypes (BitVec.ofNat 32 rtype.behind) with
        | error stop =>
          rw [looped] at done
          cases stop with
          | status status =>
            cases done
            exact absurd rfl (prepArgs_refuses looped)
          | abort => cases done
        | ok reached =>
          obtain ⟨types, bytes⟩ := reached
          obtain ⟨same, all⟩ := prepArgs_placed arguments _ looped
          rw [looped] at done
          dsimp only at done
          split at done
          · obtain ⟨kept, given, area⟩ := machdepVar_layout done
            exact ⟨kept ▸ placed, given ▸ all, area.trans same⟩
          · obtain ⟨kept, given, area⟩ := machdep_layout done
            exact ⟨kept ▸ placed, given ▸ all, area.trans same⟩

/-- Both ways to prepare a call lay out every type as C does, and the arguments one after the other. -/
theorem Signature.prepare_prepared (signature : Signature) {cif prepared : Cif} {abi : Nat} {preparation : Preparation}
    (result : signature.rtype.Valid) (arguments : ∀ type ∈ signature.atypes, type.Valid)
    (done : signature.prepare cif abi preparation = .returned .ok prepared) :
    Prepared signature.rtype signature.atypes prepared := by
  cases preparation with
  | fixed => exact core_prepared result arguments done
  | variadic nfixedargs =>
    rw [prepare, ffiPrepCifVar] at done
    split at done
    · cases done
    · rename_i rc cif driven
      split at done
      · rename_i refused
        cases done
        exact absurd rfl refused
      · rename_i accepted
        split at done
        · cases done
        · cases done
          rw [not_not.mp accepted] at driven
          exact core_prepared result arguments driven

/-- `struct { short s; int i; } f(char, struct { short s; int i; })` -/
def passing : Signature where
  rtype := inner
  atypes := [schar, inner]
  counted := by decide
  result := rfl
  arguments := by
    intro type member
    rcases List.mem_cons.mp member with rfl | later
    · rfl
    · rw [List.mem_singleton.mp later]
      rfl

theorem prepare_passing : Prepared inner [schar, inner]
    { passing.driven Signature.blank wasm32 16 with nfixedargs := 2 } :=
  passing.prepare_prepared inner_valid
    (List.forall_mem_cons.mpr ⟨schar_valid, List.forall_mem_singleton.mpr inner_valid⟩)
    (show passing.prepare Signature.blank wasm32 .fixed = .returned .ok _ from rfl)

end WasiWheels.Native
