import WasiWheels.Core.Reach
import WasiWheels.Index.Pages
import Mathlib.Logic.Function.Basic

/-! `.github/workflows/release.yml`: the refs and releases of the repository, the deployed
index, and the runs that change them. The concurrency group lets one run at a time proceed. -/

namespace WasiWheels.Publish

open Index (Wheel WheelSet)

abbrev Commit := String

inductive Ref where
  | branch (name : Text)
  | tag (name : Text)
deriving DecidableEq

/-- `GITHUB_REF` -/
def Ref.full : Ref → Text
  | .branch name => "refs/heads/".toList ++ name
  | .tag name => "refs/tags/".toList ++ name

/-- `on: push: tags: ["v*"]`; the star matches no slash. -/
def Ref.triggers : Ref → Bool
  | .branch _ => false
  | .tag name => name.head? == some 'v' && !name.contains '/'

/-- A run of the workflow: the ref and commit it was started on, and `inputs.tag`, empty for a pushed tag. -/
structure Run where
  ref : Ref
  commit : Commit
  input : Text

/-- The `resolve tag` step. -/
def Run.tag (run : Run) : Text :=
  if run.input ≠ [] then run.input else Text.withoutPrefix "refs/tags/".toList run.ref.full

/-- A wheel of a release, with the commit it was built from. -/
structure Asset where
  digest : Text
  commit : Commit

inductive Upload where
  | wheel (wheel : Wheel)
  | sums (text : Text)

/-- `dist/*.whl dist/SHA256SUMS` -/
def uploads (dist : WheelSet) : List Upload := dist.wheels.map .wheel ++ [.sums (Index.sha256sums dist.wheels)]

/-- The assets of a release; it is torn while a re-upload has begun and not come to its end. -/
structure Release where
  wheels : Text → Option Asset := fun _ => none
  sums : Option Text := none
  torn : Bool := false

def Release.put (commit : Commit) (release : Release) : Upload → Release
  | .wheel wheel =>
    { release with wheels := Function.update release.wheels wheel.name (some ⟨wheel.digest, commit⟩) }
  | .sums text => { release with sums := some text }

/-- How far a run has got. -/
inductive Stage where
  | build
  | release (dist : WheelSet)
  /-- In the middle of `gh release upload --clobber`. -/
  | clobber (dist : WheelSet) (rest : List Upload)
  | pages
  | deploy (index : Option Index.Release)

structure Forge where
  refs : Ref → Option Commit
  releases : Text → Option Release
  /-- The release the deployed index was made from. -/
  deployed : Option Index.Release
  waiting : List Run
  active : Option (Run × Stage)

inductive Event where
  /-- A branch or tag is created or moved. -/
  | push (ref : Ref) (commit : Commit)
  /-- `workflow_dispatch` on a ref, for an existing tag. -/
  | dispatch (ref : Ref) (tag : Text)
  | cancel (index : Nat)
  | start (index : Nat)
  /-- actions/checkout without a ref, `make wheels`, upload-artifact. -/
  | build (dist : WheelSet)
  /-- `gh release view`, then `gh release create`, whose draft shows only once complete, or an upload. -/
  | publish
  | upload (index : Nat)
  | uploaded
  /-- `build-pages-index.sh`, with the release GitHub calls the latest. -/
  | generate (latest : Option Text)
  | deploy
  /-- The run fails or is cancelled. -/
  | abort

namespace Forge

def initial : Forge where
  refs := fun _ => none
  releases := fun _ => none
  deployed := none
  waiting := []
  active := none

/-- The runs that are waiting or under way. -/
def unfinished (forge : Forge) : List Run := (forge.active.map Prod.fst).toList ++ forge.waiting

/-- The asset under a release URL. -/
def served (forge : Forge) (tag name : Text) : Option Asset := (forge.releases tag).bind fun release => release.wheels name

def step (forge : Forge) : Event → Option Forge
  | .push ref commit =>
    some { forge with
      refs := Function.update forge.refs ref (some commit)
      waiting := if ref.triggers then forge.waiting ++ [⟨ref, commit, []⟩] else forge.waiting }
  | .dispatch ref tag =>
    match forge.refs ref with
    | some commit =>
      if tag ≠ [] ∧ (forge.refs (.tag tag)).isSome = true then
        some { forge with waiting := forge.waiting ++ [⟨ref, commit, tag⟩] }
      else none
    | none => none
  | .cancel index => some { forge with waiting := forge.waiting.eraseIdx index }
  | .start index =>
    match forge.active, forge.waiting[index]? with
    | none, some run => some { forge with waiting := forge.waiting.eraseIdx index, active := some (run, .build) }
    | _, _ => none
  | .build dist =>
    match forge.active with
    | some (run, .build) => some { forge with active := some (run, .release dist) }
    | _ => none
  | .publish =>
    match forge.active with
    | some (run, .release dist) =>
      match forge.releases run.tag with
      | none =>
        let created := (uploads dist).foldl (Release.put run.commit) {}
        some { forge with releases := Function.update forge.releases run.tag (some created), active := some (run, .pages) }
      | some _ => some { forge with active := some (run, .clobber dist (uploads dist)) }
    | _ => none
  | .upload index =>
    match forge.active with
    | some (run, .clobber dist rest) =>
      match forge.releases run.tag, rest[index]? with
      | some release, some item =>
        let replaced := { release.put run.commit item with torn := true }
        some { forge with
          releases := Function.update forge.releases run.tag (some replaced)
          active := some (run, .clobber dist (rest.eraseIdx index)) }
      | _, _ => none
    | _ => none
  | .uploaded =>
    match forge.active with
    | some (run, .clobber _ []) =>
      (forge.releases run.tag).map fun release =>
        { forge with
          releases := Function.update forge.releases run.tag (some { release with torn := false })
          active := some (run, .pages) }
    | _ => none
  | .generate latest =>
    match forge.active with
    | some (run, .pages) =>
      match latest with
      | none => some { forge with active := some (run, .deploy none) }
      | some tag =>
        ((forge.releases tag).bind Release.sums).map fun sums =>
          { forge with active := some (run, .deploy (some ⟨tag, sums⟩)) }
    | _ => none
  | .deploy =>
    match forge.active with
    | some (_, .deploy index) => some { forge with deployed := index, active := none }
    | _ => none
  | .abort => some { forge with active := none }

end Forge

/-- The wheels of a release were built from the commit its tag names. -/
def Forge.Faithful (forge : Forge) : Prop :=
  ∀ tag name asset, forge.served tag name = some asset → forge.refs (.tag tag) = some asset.commit

/-- The wheel that a `.upload` puts into a release, with the release's tag. -/
def Forge.replacement (forge : Forge) (index : Nat) : Option (Text × Wheel) :=
  match forge.active with
  | some (run, .clobber _ rest) =>
    match rest[index]? with
    | some (.wheel wheel) => some (run.tag, wheel)
    | _ => none
  | _ => none

/-- What people have to see to, since the workflow does not. -/
def Event.Careful (forge : Forge) : Event → Prop
  -- A tag with a release, or with a run to come, is not moved.
  | .push (.tag tag) commit =>
    (forge.releases tag).isSome = true ∨ (∃ run ∈ forge.unfinished, run.tag = tag) → forge.refs (.tag tag) = some commit
  -- A tag is re-released from a ref that names its commit.
  | .dispatch ref tag => forge.refs ref = forge.refs (.tag tag)
  -- A wheel that the deployed index lists is only replaced by one of the listed digest.
  | .upload index => ∀ new ∈ forge.replacement index, ∀ release ∈ forge.deployed, release.tag = new.1 →
      ∀ line ∈ Text.lines release.sums, Text.afterLast ' ' line = new.2.name → Text.beforeFirst ' ' line = new.2.digest
  -- The index is not made from a release left half re-uploaded.
  | .generate (some tag) => ∀ release ∈ forge.releases tag, release.torn = false
  | _ => True

instance : ∀ (forge : Forge) (event : Event), Decidable (event.Careful forge)
  | _, .push (.tag _) _ => inferInstanceAs (Decidable (_ → _))
  | _, .dispatch _ _ => inferInstanceAs (Decidable (_ = _))
  | forge, .upload index => inferInstanceAs (Decidable (∀ new ∈ forge.replacement index, _))
  | forge, .generate (some tag) => inferInstanceAs (Decidable (∀ release ∈ forge.releases tag, release.torn = false))
  | _, .push (.branch _) _ | _, .cancel _ | _, .start _ | _, .build _ | _, .publish | _, .uploaded | _, .generate none
  | _, .deploy | _, .abort => inferInstanceAs (Decidable True)

end WasiWheels.Publish
