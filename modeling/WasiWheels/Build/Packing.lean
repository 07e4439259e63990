import WasiWheels.Build.Staging
import Mathlib.Data.List.Induction

/-! Invocations in which any command may fail. A wheel make takes for up to date is
the whole staging tree, as long as packaging never fails half-way through. -/

namespace WasiWheels.Build

open Make

/-- How a recipe other than the wheel's ends. -/
inductive Upshot (β : Type) where
  /-- It succeeds and sees no reason to touch its target. -/
  | kept
  | made (item : Item β)
  | failedEarly
  | failedRemoving
  | failedWriting (left : Item β)

/-- What becomes of the commands of one invocation, should they be run. -/
structure Incident (β : Type) where
  upshot : File → Upshot β
  staging : Nat → Option (Listing Path β) := fun _ => none
  pack : Faults β := {}
  /-- The lines that print the finished wheel fail. -/
  report : Bool := false

def Upshot.effects (node : Node File) : Upshot β → Bool × List (Effect File (Item β))
  | .kept => (true, [])
  | .made item => (true, node.drops.map .remove ++ [.write node.target item])
  | .failedEarly => (false, [])
  | .failedRemoving => (false, node.drops.map .remove ++ [.remove node.target])
  | .failedWriting left => (false, node.drops.map .remove ++ [.write node.target left])

def stageOf (disk : Disk File (Item β)) : Listing Path β := treeAt disk .staging

section Recipes

variable (text : String → β)

def HandZipped.inputs (wheel : HandZipped) (disk : Disk File (Item β)) : Inputs β where
  sources := (contentOf disk wheel.sourceTree).bind Item.asTree
  extension := (contentOf disk .extension).bind Item.asFile
  text := text

/-- The `$(WHEEL)` recipe: stage, then `go run zip-wheel.go`. -/
def HandZipped.package (wheel : HandZipped) (version : String) (incident : Incident β) (disk : Disk File (Item β)) :
    Bool × List (Effect File (Item β)) :=
  let staged := runStaging (wheel.inputs text disk) incident.staging 0 (wheel.staging version) (stageOf disk)
  if staged.1 then
    match pack incident.pack staged.2 with
    | (_, none) => (false, [.write .staging (.tree staged.2)])
    | (packed, some archive) =>
      (packed && !incident.report, [.write .staging (.tree staged.2), .write .wheel (.archive archive)])
  else (false, [.write .staging (.tree staged.2)])

def HandZipped.rule (wheel : HandZipped) (version : String) (node : Node File) : Rule (Incident β) File (Item β) where
  toNode := node
  recipe := fun incident disk =>
    if node.target = .wheel then wheel.package text version incident disk
    else (incident.upshot node.target).effects node

def HandZipped.rules (wheel : HandZipped) (version : String) : List (Rule (Incident β) File (Item β)) :=
  wheel.component.nodes.map (wheel.rule text version)

/-- `make -C <component>` -/
def HandZipped.build (wheel : HandZipped) (version : String) (incident : Incident β) (disk : Disk File (Item β)) :
    Bool × Disk File (Item β) :=
  make incident (wheel.rules text version) disk

end Recipes

/-- The wheel in `out/` holds every file of the staging tree. -/
def Packed (disk : Disk File (Item β)) : Prop :=
  ∃ archive, contentOf disk .wheel = some (.archive archive) ∧ archive.Complete (stageOf disk)

/-- Make only takes a packed wheel for up to date. -/
def HandZipped.Trusted (wheel : HandZipped) (disk : Disk File (Item β)) : Prop :=
  ∀ node ∈ wheel.component.nodes, node.target = .wheel → node.outdated disk = false → Packed disk

theorem HandZipped.heads (wheel : HandZipped) : ∀ node ∈ wheel.component.nodes,
    (node.target ≠ .staging) ∧ .wheel ∉ node.drops ∧ .staging ∉ node.drops ∧ .wheel ∉ node.needs ∧
      .staging ∉ node.needs := by
  cases wheel <;> decide

theorem Packed.congr {disk disk' : Disk File (Item β)} (packed : Packed disk)
    (wheel : disk'.file .wheel = disk.file .wheel) (staging : disk'.file .staging = disk.file .staging) :
    Packed disk' := by
  have stage : stageOf disk' = stageOf disk := by simp [stageOf, treeAt, contentOf, staging]
  obtain ⟨archive, found, complete⟩ := packed
  exact ⟨archive, by simpa [contentOf, wheel] using found, stage ▸ complete⟩

section Steps

variable {text : String → β} {version : String} {incident : Incident β} {wheel : HandZipped}

theorem Upshot.path_effects (upshot : Upshot β) (node : Node File) {effect : Effect File (Item β)}
    (member : effect ∈ (upshot.effects node).2) : effect.path = node.target ∨ effect.path ∈ node.drops := by
  have cleared (last : Effect File (Item β)) (same : last.path = node.target)
      (among : effect ∈ node.drops.map .remove ++ [last]) : effect.path = node.target ∨ effect.path ∈ node.drops := by
    rcases List.mem_append.mp among with dropped | written
    · obtain ⟨path, listed, removed⟩ := List.mem_map.mp dropped
      exact Or.inr (removed ▸ listed)
    · rw [List.mem_singleton.mp written]
      exact Or.inl same
  cases upshot with
  | kept => simp [Upshot.effects] at member
  | failedEarly => simp [Upshot.effects] at member
  | made item => exact cleared _ rfl member
  | failedRemoving => exact cleared _ rfl member
  | failedWriting left => exact cleared _ rfl member

/-- A recipe that is not the wheel's leaves the wheel and the staging tree alone, so it can only outdate the wheel. -/
theorem HandZipped.trusted_upshot {disk : Disk File (Item β)} (trusted : wheel.Trusted disk) {node : Node File}
    (member : node ∈ wheel.component.nodes) (other : node.target ≠ .wheel) (upshot : Upshot β) :
    wheel.Trusted (disk.apply (upshot.effects node).2) := by
  obtain ⟨notStaging, wheelKept, stagingKept, _, _⟩ := wheel.heads node member
  have untouched (path : File) (target : node.target ≠ path) (kept : path ∉ node.drops) :
      ∀ effect ∈ (upshot.effects node).2, effect.path ≠ path := by
    intro effect among same
    rcases upshot.path_effects node among with made | dropped
    · exact target (made.symm.trans same)
    · exact kept (same ▸ dropped)
  have wheelSame := disk.apply_untouched _ (untouched .wheel other wheelKept)
  have stagingSame := disk.apply_untouched _ (untouched .staging notStaging stagingKept)
  intro head among made current
  have unwritten : ∀ content, Effect.write head.target content ∉ (upshot.effects node).2 :=
    fun content written => untouched .wheel other wheelKept _ written made
  obtain ⟨before, _, _⟩ := head.current_of_apply disk _ unwritten current
  exact (trusted head among made before).congr wheelSame stagingSame

/-- The wheel's own recipe packs everything, or leaves the wheel as outdated as it was. -/
theorem HandZipped.package_cases (contained : incident.pack.Contained) (disk : Disk File (Item β)) :
    ((wheel.package text version incident disk).1 = false ∧
        ∃ stage, (wheel.package text version incident disk).2 = [.write .staging stage]) ∨
      Packed (disk.apply (wheel.package text version incident disk).2) := by
  unfold package
  cases staged : runStaging (wheel.inputs text disk) incident.staging 0 (wheel.staging version) (stageOf disk) with
  | mk finished stage =>
    cases finished with
    | false => exact Or.inl ⟨rfl, _, rfl⟩
    | true =>
      rcases pack_contained contained stage with failed | ⟨archive, packs, complete⟩
      · exact Or.inl ⟨by simp [failed], _, by simp only [failed]; rfl⟩
      · right
        simp only [packs, if_true]
        have onStage : stageOf (disk.apply [.write .staging (.tree stage), .write .wheel (.archive archive)]) = stage := by
          simp only [stageOf, treeAt, contentOf, Disk.apply_cons, Disk.apply_nil, Disk.perform]
          rw [Disk.write_other _ _ (by decide), Disk.write_same]
          rfl
        refine ⟨archive, ?_, onStage.symm ▸ complete⟩
        simp [contentOf, Disk.perform]

theorem HandZipped.trusted_update (contained : incident.pack.Contained) {node : Node File}
    (member : node ∈ wheel.component.nodes) {disk : Disk File (Item β)} (trusted : wheel.Trusted disk) :
    wheel.Trusted ((wheel.rule text version node).update incident disk).2 := by
  cases state : (wheel.rule text version node).outdated disk with
  | false =>
    rw [Rule.update_current _ state]
    exact trusted
  | true =>
    rw [Rule.update_outdated _ state]
    by_cases own : node.target = .wheel
    · simp only [rule, own, if_true]
      intro head among made current
      rcases @HandZipped.package_cases _ text version _ wheel contained disk with ⟨_, stage, only⟩ | packed
      · have same : head = node := wheel.component.ordered.unique node member head among (made.trans own.symm)
        obtain ⟨_, _, _, _, stagingUnused⟩ := wheel.heads node member
        have still : node.outdated (disk.apply [.write .staging stage]) = node.outdated disk := by
          apply node.outdated_congr
          · exact disk.write_other _ (by rw [own]; decide)
          · exact fun need used => disk.write_other _ (fun need_ => stagingUnused (need_ ▸ used))
        rw [only, same, still] at current
        exact absurd (state.symm.trans current) (by decide)
      · exact packed
    · simp only [rule, own, if_false]
      exact trusted_upshot trusted member own _

theorem HandZipped.packed_update (contained : incident.pack.Contained) {node : Node File}
    (member : node ∈ wheel.component.nodes) (own : node.target = .wheel) {disk : Disk File (Item β)}
    (trusted : wheel.Trusted disk) (success : ((wheel.rule text version node).update incident disk).1 = true) :
    Packed ((wheel.rule text version node).update incident disk).2 := by
  cases state : (wheel.rule text version node).outdated disk with
  | false =>
    rw [Rule.update_current _ state]
    exact trusted node member own state
  | true =>
    rw [Rule.update_outdated _ state] at success ⊢
    simp only [rule, own, if_true] at success ⊢
    rcases @HandZipped.package_cases _ text version _ wheel contained disk with ⟨failed, _⟩ | packed
    · rw [failed] at success
      cases success
    · exact packed

/-- An invocation never leaves make trusting an incomplete wheel, and if it succeeds the wheel is complete. -/
theorem HandZipped.build_trusted (contained : incident.pack.Contained) {disk : Disk File (Item β)}
    (trusted : wheel.Trusted disk) :
    wheel.Trusted (wheel.build text version incident disk).2 ∧
      ((wheel.build text version incident disk).1 = true → Packed (wheel.build text version incident disk).2) := by
  obtain ⟨before, node, split, own⟩ := wheel.component.wheel_last
  have step : ∀ rule ∈ wheel.rules text version, ∀ disk, wheel.Trusted disk →
      wheel.Trusted (rule.update incident disk).2 := by
    intro rule listed disk trusted
    obtain ⟨head, member, same⟩ := List.mem_map.mp listed
    exact same ▸ trusted_update contained member trusted
  have kept : wheel.Trusted (wheel.build text version incident disk).2 := make_keeps wheel.Trusted step disk trusted
  refine ⟨kept, ?_⟩
  intro success
  have rules : wheel.rules text version =
      before.map (wheel.rule text version) ++ [wheel.rule text version node] := by
    rw [HandZipped.rules, split, List.map_append, List.map_singleton]
  have member : node ∈ wheel.component.nodes := by simp [split]
  rw [build, rules, make_append] at success ⊢
  by_cases early : (make incident (before.map (wheel.rule text version)) disk).1 = true
  · rw [if_pos early, make_singleton] at success ⊢
    have upTo : wheel.Trusted (make incident (before.map (wheel.rule text version)) disk).2 := by
      apply make_keeps wheel.Trusted _ disk trusted
      exact fun rule listed => step rule (by rw [rules]; exact List.mem_append_left _ listed)
    exact packed_update contained member own upTo success
  · rw [if_neg early] at success
    cases success

end Steps

end WasiWheels.Build
