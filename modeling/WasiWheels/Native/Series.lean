import WasiWheels.Native.Sharing

/-! Calls prepared one after the other from types they share, against each prepared alone. -/

namespace WasiWheels.Native

/-- Where the arguments end once one of this extent follows. -/
def Extent.argument (extent : Extent) (bytes : Unsigned) : Unsigned :=
  (if (extent.alignment.setWidth 32 - 1) &&& bytes ≠ 0 then ffiAlign bytes extent.alignment else bytes) +
    stackArgSize extent.size

namespace Graph

variable (graph : Graph) (depth : Nat)

/-- The loop of `ffi_prep_cif_core` over the arguments. -/
def prepArgs : List Unsigned → Extents → Unsigned → Option (Except Stop Unsigned × Extents)
  | [], extents, bytes => some (.ok bytes, extents)
  | ptr :: rest, extents, bytes => do
    let (status, extents) ← ensure (graph.initializeAggregate depth) extents ptr
    if status ≠ .ok then some (.error (.status .badTypedef), extents)
    else if graph.type ptr = .complex then some (.error .abort, extents)
    else prepArgs rest extents ((extents ptr).argument bytes)

/-- `ffi_prep_cif_core` on memory; the interface shows of its types what the machine hooks read. -/
def ffiPrepCifCore (extents : Extents) (cif : Cif) (abi : Nat) (isvariadic : Bool) (nfixedargs ntotalargs : Unsigned)
    (rtype : Unsigned) (atypes : List Unsigned) : Option (Outcome × Extents) :=
  if ¬ (abi > firstAbi ∧ abi < lastAbi) then some (.returned .badAbi cif, extents)
  else do
    let (status, extents) ← ensure (graph.initializeAggregate depth) extents rtype
    let cif : Cif := { cif with
      abi, argTypes := atypes.map (graph.head extents), nargs := ntotalargs, rtype := graph.head extents rtype, flags := 0 }
    if status ≠ .ok then some (.returned .badTypedef cif, extents)
    else if graph.type rtype = .complex then some (.aborted, extents)
    else
      let bytes := if graph.type rtype = .struct then stackArgSize 4 else 0
      let (looped, extents) ← graph.prepArgs depth atypes extents bytes
      match looped with
      | .error .abort => some (.aborted, extents)
      | .error (.status status) => some (.returned status cif, extents)
      | .ok bytes =>
        let cif := { cif with argTypes := atypes.map (graph.head extents), rtype := graph.head extents rtype, bytes }
        some (if isvariadic then ffiPrepCifMachdepVar cif nfixedargs ntotalargs else ffiPrepCifMachdep cif, extents)

variable {graph depth} {extents extents' : Extents}

theorem prepArgs_kept {types : List Unsigned} {bytes : Unsigned} {ended : Except Stop Unsigned}
    (walked : graph.prepArgs depth types extents bytes = some (ended, extents')) : Kept extents extents' := by
  induction types generalizing extents bytes with
  | nil =>
    cases walked
    exact .refl _
  | cons type rest ih =>
    simp only [prepArgs, Option.bind_eq_bind, Option.bind_eq_some_iff, Prod.exists] at walked
    obtain ⟨status, next, ensured, walked⟩ := walked
    have kept := ensure_kept (graph.initializeAggregate_keeps depth) ensured
    split at walked
    · cases walked
      exact kept
    · split at walked
      · cases walked
        exact kept
      · exact kept.trans (ih walked)

theorem ffiPrepCifCore_kept {cif : Cif} {abi : Nat} {isvariadic : Bool} {nfixedargs ntotalargs rtype : Unsigned}
    {atypes : List Unsigned} {outcome : Outcome}
    (driven : graph.ffiPrepCifCore depth extents cif abi isvariadic nfixedargs ntotalargs rtype atypes = some (outcome, extents')) :
    Kept extents extents' := by
  unfold ffiPrepCifCore at driven
  split at driven
  · cases driven
    exact .refl extents
  · simp only [Option.bind_eq_bind, Option.bind_eq_some_iff, Prod.exists] at driven
    obtain ⟨status, next, ensured, driven⟩ := driven
    have kept := ensure_kept (graph.initializeAggregate_keeps depth) ensured
    split at driven
    · cases driven
      exact kept
    · split at driven
      · cases driven
        exact kept
      · simp only [Option.bind_eq_some_iff, Prod.exists] at driven
        obtain ⟨ended, final, walked, driven⟩ := driven
        have later := kept.trans (prepArgs_kept walked)
        split at driven
        all_goals
          cases driven
          exact later

end Graph

/-- A call to prepare: the types are addresses. -/
structure Request where
  cif : Cif
  abi : Nat
  preparation : Preparation
  rtype : Unsigned
  atypes : List Unsigned

namespace Request

variable (request : Request)

def total : Unsigned := BitVec.ofNat 32 request.atypes.length

/-- `ffi_prep_cif` and `ffi_prep_cif_var` on memory -/
def prepare (graph : Graph) (depth : Nat) (extents : Extents) : Option (Outcome × Extents) :=
  match request.preparation with
  | .fixed =>
    graph.ffiPrepCifCore depth extents request.cif request.abi false request.total request.total request.rtype request.atypes
  | .variadic nfixedargs => do
    let (outcome, extents) ←
      graph.ffiPrepCifCore depth extents request.cif request.abi true nfixedargs request.total request.rtype request.atypes
    match outcome with
    | .aborted => some (.aborted, extents)
    | .returned rc cif =>
      if rc ≠ .ok then some (.returned rc cif, extents)
      else if (cif.argTypes.drop nfixedargs.toNat).any promoted then some (.returned .badArgtype cif, extents)
      else some (.returned .ok cif, extents)

/-- The call prepared alone, from types of its own. -/
def alone (rtype : FfiType) (atypes : List FfiType) : Outcome :=
  match request.preparation with
  | .fixed => ffiPrepCif request.cif request.abi request.total rtype atypes
  | .variadic nfixedargs => ffiPrepCifVar request.cif request.abi nfixedargs request.total rtype atypes

end Request

def Cif.heads (cif : Cif) : Cif := { cif with rtype := cif.rtype.head, argTypes := cif.argTypes.map FfiType.head }

/-- Both abort, or both return one status, and one interface when it is prepared. -/
def Outcome.Agrees : Outcome → Outcome → Prop
  | .aborted, .aborted => True
  | .returned status cif, .returned status' cif' => status = status' ∧ (status = .ok → cif.heads = cif'.heads)
  | _, _ => False

def Outcome.heads : Outcome → Outcome
  | .aborted => .aborted
  | .returned status cif => .returned status cif.heads

theorem Cif.heads_heads (cif : Cif) : cif.heads.heads = cif.heads := by
  simp only [heads, List.map_map]
  rfl

theorem Outcome.heads_agrees (outcome : Outcome) : outcome.heads.Agrees outcome := by
  cases outcome with
  | aborted => trivial
  | returned status cif => exact ⟨rfl, fun _ => cif.heads_heads⟩

/-- The machine hooks look at the kinds of the types only. -/
theorem machdep_heads (cif : Cif) : ffiPrepCifMachdep cif.heads = (ffiPrepCifMachdep cif).heads := by
  have kinds : (cif.argTypes.map FfiType.head).any (fun type => type.type = .complex) =
      cif.argTypes.any fun type => type.type = .complex := List.any_map
  have ends : ∀ counted : Cif, counted.argTypes = cif.argTypes →
      (if counted.nargs > maxArgs then Outcome.returned .badTypedef counted.heads
        else if counted.rtype.type = .complex then .returned .badTypedef counted.heads
        else if (cif.argTypes.map FfiType.head).any (fun type => type.type = .complex) then .returned .badTypedef counted.heads
        else .returned .ok counted.heads) =
      (if counted.nargs > maxArgs then Outcome.returned .badTypedef counted
        else if counted.rtype.type = .complex then .returned .badTypedef counted
        else if counted.argTypes.any (fun type => type.type = .complex) then .returned .badTypedef counted
        else .returned .ok counted).heads := by
    intro counted arguments
    rw [arguments, kinds]
    repeat' split
    all_goals rfl
  rw [ffiPrepCifMachdep, ffiPrepCifMachdep]
  by_cases other : cif.abi ≠ wasm32 ∧ cif.abi ≠ defaultAbi
  · rw [if_pos (show cif.heads.abi ≠ wasm32 ∧ cif.heads.abi ≠ defaultAbi from other), if_pos other]
    rfl
  · rw [if_neg (show ¬ (cif.heads.abi ≠ wasm32 ∧ cif.heads.abi ≠ defaultAbi) from other), if_neg other]
    dsimp only
    by_cases plain : cif.flags &&& varargsFlag = 0
    · rw [if_pos (show cif.heads.flags &&& varargsFlag = 0 from plain), if_pos plain]
      exact ends { cif with nfixedargs := cif.nargs } rfl
    · rw [if_neg (show ¬ cif.heads.flags &&& varargsFlag = 0 from plain), if_neg plain]
      exact ends cif rfl

theorem machdepVar_heads (cif : Cif) (nfixedargs ntotalargs : Unsigned) :
    ffiPrepCifMachdepVar cif.heads nfixedargs ntotalargs = (ffiPrepCifMachdepVar cif nfixedargs ntotalargs).heads := by
  unfold ffiPrepCifMachdepVar
  change (if nfixedargs + 1 > maxArgs then _ else _) = _
  dsimp only
  by_cases many : nfixedargs + 1 > maxArgs
  · rw [if_pos many, if_pos many]
    rfl
  · rw [if_neg many, if_neg many]
    rfl

theorem hook_agrees (cif : Cif) (isvariadic : Bool) (nfixedargs ntotalargs : Unsigned) :
    (if isvariadic then ffiPrepCifMachdepVar cif.heads nfixedargs ntotalargs else ffiPrepCifMachdep cif.heads).Agrees
      (if isvariadic then ffiPrepCifMachdepVar cif nfixedargs ntotalargs else ffiPrepCifMachdep cif) := by
  rw [machdep_heads, machdepVar_heads]
  cases isvariadic with
  | true => exact Outcome.heads_agrees _
  | false => exact Outcome.heads_agrees _

/-- A type laid out, as far as it is looked at. -/
def FfiType.filled (type : FfiType) (extent : Extent) : FfiType := ⟨extent.size, extent.alignment, type.type, none, type.isFloat⟩

/-- Layout leaves everything else of a type alone. -/
theorem initialized_filled {type laid : FfiType} (done : initialized type = .ok laid) : laid.head = type.filled laid.extent := by
  unfold initialized at done
  split at done
  · obtain ⟨size, alignment, kind, elements, isFloat⟩ := type
    cases elements with
    | none => cases done
    | some elements =>
      rw [initializeAggregate] at done
      cases inner : initializeElements elements 0 0 with
      | error status =>
        rw [inner] at done
        cases done
      | ok reached =>
        rw [inner] at done
        dsimp only [bind, Except.bind] at done
        split at done
        · cases done
        · cases done
          rfl
  · cases done
    rfl

theorem initialized_of_settled {type : FfiType} {extent : Extent} (settled : type.settled = .ok extent) :
    ∃ laid, initialized type = .ok laid ∧ laid.extent = extent ∧ laid.head = type.filled extent := by
  rw [FfiType.settled] at settled
  cases done : initialized type with
  | error status =>
    rw [done] at settled
    cases settled
  | ok laid =>
    rw [done] at settled
    cases settled
    exact ⟨laid, rfl, rfl, initialized_filled done⟩

theorem initialized_refused {type : FfiType} {error : FfiStatus} (settled : type.settled = .error error) :
    initialized type = .error error := by
  rw [FfiType.settled] at settled
  cases done : initialized type with
  | error status =>
    rw [done] at settled
    cases settled
    rfl
  | ok laid =>
    rw [done] at settled
    cases settled

/-- What the loop over the arguments comes to, as far as it is looked at. -/
def looked (types : List FfiType) (bytes : Unsigned) : Except Stop (List FfiType × Unsigned) :=
  (prepArgs types bytes).map fun (types, bytes) => (types.map FfiType.head, bytes)

theorem looked_refused {type : FfiType} {error : FfiStatus} (settled : type.settled = .error error) (rest : List FfiType)
    (bytes : Unsigned) : looked (type :: rest) bytes = .error (.status .badTypedef) := by
  rw [looked, prepArgs, initialized_refused settled]
  rfl

theorem looked_cons {type : FfiType} {extent : Extent} (settled : type.settled = .ok extent) (rest : List FfiType)
    (bytes : Unsigned) : looked (type :: rest) bytes =
      if type.type = .complex then .error .abort
      else (looked rest (extent.argument bytes)).map fun (types, bytes) => (type.filled extent :: types, bytes) := by
  obtain ⟨laid, done, rfl, head⟩ := initialized_of_settled settled
  rw [looked, prepArgs, done]
  dsimp only
  rw [initialized_type done]
  split
  · rfl
  · rw [← head, looked]
    change ((prepArgs rest (laid.extent.argument bytes)).bind _).map _ = _
    cases prepArgs rest (laid.extent.argument bytes) with
    | error stop => rfl
    | ok reached => rfl

theorem looked_congr {types types' : List FfiType}
    (settled : types.map FfiType.settled = types'.map FfiType.settled)
    (kinds : types.map (fun type => (type.type, type.isFloat)) = types'.map fun type => (type.type, type.isFloat))
    (bytes : Unsigned) : looked types bytes = looked types' bytes := by
  induction types generalizing types' bytes with
  | nil => rw [List.map_eq_nil_iff.mp settled.symm]
  | cons type rest ih =>
    cases types' with
    | nil => exact absurd settled (List.cons_ne_nil _ _)
    | cons type' rest' =>
      obtain ⟨first, later⟩ := List.cons.inj settled
      obtain ⟨kind, others⟩ := List.cons.inj kinds
      obtain ⟨named, single⟩ := Prod.mk.inj kind
      cases done : type'.settled with
      | error error => rw [looked_refused (first.trans done), looked_refused done]
      | ok extent =>
        have same : type.filled extent = type'.filled extent := by
          rw [FfiType.filled, FfiType.filled, named, single]
        rw [looked_cons (first.trans done), looked_cons done, named, same, ih later others]

namespace Graph.Ranked

variable {graph : Graph} (ranked : graph.Ranked) {depth : Nat}

theorem looked_trees {extents extents' : Extents} (progress : ∀ other, ranked.Progress extents extents' other)
    (types : List Unsigned) (bytes : Unsigned) :
    looked (types.map (ranked.tree extents')) bytes = looked (types.map (ranked.tree extents)) bytes := by
  have kinds : ∀ extents, (types.map (ranked.tree extents)).map (fun type => (type.type, type.isFloat)) =
      types.map fun type => (graph.type type, type == graph.float) := by
    intro extents
    rw [List.map_map]
    refine List.map_congr_left fun type _ => ?_
    rw [Function.comp_apply, tree_eq]
    rfl
  refine looked_congr ?_ ((kinds extents').trans (kinds extents).symm) bytes
  rw [List.map_map, List.map_map]
  exact List.map_congr_left fun type _ => ranked.progress_settled fun other _ => progress other

theorem filled_tree {extents extents' : Extents} (type : Unsigned) :
    (ranked.tree extents type).filled (extents' type) = graph.head extents' type := by
  rw [tree_eq]
  rfl

theorem tree_type (extents : Extents) (type : Unsigned) : (ranked.tree extents type).type = graph.type type := by
  rw [tree_eq]
  rfl

/-- The types of a call can be laid out. -/
def Formed (extents : Extents) (types : List Unsigned) : Prop :=
  ∀ type ∈ types, ∃ extent, (ranked.tree extents type).settled = .ok extent

theorem formed_progress {extents extents' : Extents} {types : List Unsigned}
    (progress : ∀ other, ranked.Progress extents extents' other) (formed : ranked.Formed extents types) :
    ranked.Formed extents' types := by
  intro type member
  rw [ranked.progress_settled fun other _ => progress other]
  exact formed type member

theorem not_formed {extents : Extents} {type : Unsigned} {types : List Unsigned} {error : FfiStatus}
    (settled : (ranked.tree extents type).settled = .error error) : ¬ ranked.Formed extents (type :: types) := by
  intro formed
  obtain ⟨extent, fine⟩ := formed type List.mem_cons_self
  rw [settled] at fine
  cases fine

/-- The loop over the arguments of a call, on memory. -/
structure Walked (types : List Unsigned) (extents : Extents) (bytes : Unsigned) (ended : Except Stop Unsigned)
    (extents' : Extents) : Prop where
  stopped : ∀ stop, looked (types.map (ranked.tree extents)) bytes = .error stop → ended = .error stop
  passed : ∀ laid last, looked (types.map (ranked.tree extents)) bytes = .ok (laid, last) →
    ended = .ok last ∧ laid = types.map (graph.head extents')
  progress : ranked.Formed extents types → ∀ other, ranked.Progress extents extents' other

namespace Walked

variable {ranked} {type : Unsigned} {rest : List Unsigned} {extents next final : Extents} {bytes : Unsigned}
  {ended : Except Stop Unsigned}

theorem done (extents : Extents) (bytes : Unsigned) : ranked.Walked [] extents bytes (.ok bytes) extents where
  stopped stop looks := by cases looks
  passed laid last looks := by
    cases looks
    exact ⟨rfl, rfl⟩
  progress _ := ranked.progress_refl extents

theorem refused {error : FfiStatus} (settled : (ranked.tree extents type).settled = .error error) :
    ranked.Walked (type :: rest) extents bytes (.error (.status .badTypedef)) next where
  stopped stop looks := by
    rw [List.map_cons, looked_refused settled] at looks
    cases looks
    rfl
  passed laid last looks := by
    rw [List.map_cons, looked_refused settled] at looks
    cases looks
  progress formed := absurd formed (ranked.not_formed settled)

theorem aborted {extent : Extent} (settled : (ranked.tree extents type).settled = .ok extent)
    (complex : graph.type type = .complex) (progress : ∀ other, ranked.Progress extents next other) :
    ranked.Walked (type :: rest) extents bytes (.error .abort) next where
  stopped stop looks := by
    rw [List.map_cons, looked_cons settled, ranked.tree_type, if_pos complex] at looks
    cases looks
    rfl
  passed laid last looks := by
    rw [List.map_cons, looked_cons settled, ranked.tree_type, if_pos complex] at looks
    cases looks
  progress _ := progress

/-- An argument is laid out, which the loop over the rest leaves as it is. -/
theorem laid (settled : (ranked.tree extents type).settled = .ok (next type)) (plain : graph.type type ≠ .complex)
    (progress : ∀ other, ranked.Progress extents next other) (kept : Kept next final)
    (walked : ranked.Walked rest next ((next type).argument bytes) ended final) :
    ranked.Walked (type :: rest) extents bytes ended final := by
  have step : looked ((type :: rest).map (ranked.tree extents)) bytes =
      (looked (rest.map (ranked.tree next)) ((next type).argument bytes)).map fun (types, bytes) =>
        (graph.head next type :: types, bytes) := by
    rw [List.map_cons, looked_cons settled, ranked.tree_type, if_neg plain, ranked.looked_trees progress, ranked.filled_tree]
  have same : graph.head final type = graph.head next type := by
    rw [Graph.head, Graph.head, kept type (ranked.settled_ne_zero settled)]
  refine ⟨fun stop looks => ?_, fun laid last looks => ?_, fun formed other => ?_⟩
  · rw [step] at looks
    cases later : looked (rest.map (ranked.tree next)) ((next type).argument bytes) with
    | error fault =>
      rw [later] at looks
      cases looks
      exact walked.stopped _ later
    | ok reached =>
      rw [later] at looks
      cases looks
  · rw [step] at looks
    cases later : looked (rest.map (ranked.tree next)) ((next type).argument bytes) with
    | error fault =>
      rw [later] at looks
      cases looks
    | ok reached =>
      obtain ⟨arrived, heads⟩ := walked.passed reached.1 reached.2 later
      rw [later] at looks
      cases looks
      exact ⟨arrived, by rw [heads, List.map_cons, same]⟩
  · refine ranked.progress_trans (fun under _ => progress under) (walked.progress (ranked.formed_progress progress ?_) other)
    exact fun element member => formed element (List.mem_cons_of_mem _ member)

end Walked

theorem prepArgs_walked {types : List Unsigned} (enough : ∀ type ∈ types, ranked.rank type < depth) (extents : Extents)
    (bytes : Unsigned) : ∃ ended extents', graph.prepArgs depth types extents bytes = some (ended, extents') ∧
      ranked.Walked types extents bytes ended extents' := by
  induction types generalizing extents bytes with
  | nil => exact ⟨.ok bytes, extents, rfl, .done extents bytes⟩
  | cons type rest ih =>
    obtain ⟨status, next, ensured, ran⟩ :=
      ranked.ensure_ran (ranked.initializeAggregate_simulates (enough type List.mem_cons_self)) extents
    rw [Graph.prepArgs, ensured]
    dsimp only [bind, Option.bind]
    cases settled : (ranked.tree extents type).settled with
    | error error =>
      obtain ⟨rfl, -⟩ := ran.refused error settled
      exact ⟨_, next, rfl, .refused settled⟩
    | ok extent =>
      obtain ⟨rfl, rfl, progress⟩ := ran.accepted extent settled
      rw [if_neg (not_not.mpr rfl)]
      by_cases complex : graph.type type = .complex
      · rw [if_pos complex]
        exact ⟨_, next, rfl, .aborted settled complex progress⟩
      · rw [if_neg complex]
        obtain ⟨ended, final, walked, outcome⟩ := ih (fun other member => enough other (List.mem_cons_of_mem _ member)) next
          ((next type).argument bytes)
        exact ⟨ended, final, walked, .laid settled complex progress (Graph.prepArgs_kept walked) outcome⟩

/-- The loop ends on memory as it ends on the types as they were at the outset. -/
theorem prepArgs_agrees {atypes : List Unsigned} (enough : ∀ type ∈ atypes, ranked.rank type < depth) {outset extents : Extents}
    (so_far : ∀ other, ranked.Progress outset extents other) (bytes : Unsigned) :
    ∃ ended final, graph.prepArgs depth atypes extents bytes = some (ended, final) ∧
      ((∃ stop, ended = .error stop ∧ Native.prepArgs (atypes.map (ranked.tree outset)) bytes = .error stop) ∨
        ∃ laids last, ended = .ok last ∧ Native.prepArgs (atypes.map (ranked.tree outset)) bytes = .ok (laids, last) ∧
          laids.map FfiType.head = atypes.map (graph.head final)) ∧
      (ranked.Formed outset atypes → ∀ other, ranked.Progress outset final other) := by
  obtain ⟨ended, final, walked, stopped, passed, further⟩ := ranked.prepArgs_walked enough extents bytes
  rw [ranked.looked_trees so_far atypes bytes, looked] at stopped passed
  refine ⟨ended, final, walked, ?_, fun formed other => ?_⟩
  · cases looped : Native.prepArgs (atypes.map (ranked.tree outset)) bytes with
    | error stop =>
      rw [looped] at stopped
      exact .inl ⟨stop, stopped stop rfl, rfl⟩
    | ok reached =>
      rw [looped] at passed
      obtain ⟨ends, heads⟩ := passed _ _ rfl
      exact .inr ⟨reached.1, reached.2, ends, rfl, heads⟩
  · exact ranked.progress_trans (fun under _ => so_far under) (further (ranked.formed_progress so_far formed) other)

/-- So does laying out one type. -/
theorem ensure_agrees {type : Unsigned} (enough : ranked.rank type < depth) {outset extents : Extents}
    (so_far : ∀ other, ranked.Progress outset extents other) :
    ∃ status next, ensure (graph.initializeAggregate depth) extents type = some (status, next) ∧
      ((∃ error, status = .badTypedef ∧ initialized (ranked.tree outset type) = .error error ∧
          ∀ types, ¬ ranked.Formed outset (type :: types)) ∨
        ∃ laid, status = .ok ∧ initialized (ranked.tree outset type) = .ok laid ∧ laid.head = graph.head next type ∧
          (next type).size ≠ 0 ∧ ∀ other, ranked.Progress outset next other) := by
  obtain ⟨status, next, ensured, ran⟩ := ranked.ensure_ran (ranked.initializeAggregate_simulates enough) extents
  obtain ⟨-, refused, accepted⟩ := ran
  rw [ranked.progress_settled fun other _ => so_far other] at refused accepted
  refine ⟨status, next, ensured, ?_⟩
  cases settled : (ranked.tree outset type).settled with
  | error error => exact .inl ⟨error, (refused error settled).1, initialized_refused settled, fun _ => ranked.not_formed settled⟩
  | ok extent =>
    obtain ⟨fine, rfl, onwards⟩ := accepted extent settled
    obtain ⟨laid, done, -, head⟩ := initialized_of_settled settled
    exact .inr ⟨laid, fine, done, head.trans (ranked.filled_tree type), ranked.settled_ne_zero settled,
      fun other => ranked.progress_trans (fun under _ => so_far under) (onwards other)⟩

/-- The driver does on memory what it does on the types as they were at the outset, whatever has been laid out since. -/
theorem core_agrees {rtype : Unsigned} {atypes : List Unsigned} (result : ranked.rank rtype < depth)
    (arguments : ∀ type ∈ atypes, ranked.rank type < depth) {outset extents : Extents}
    (so_far : ∀ other, ranked.Progress outset extents other) (cif : Cif) (abi : Nat) (isvariadic : Bool)
    (nfixedargs ntotalargs : Unsigned) :
    ∃ outcome extents', graph.ffiPrepCifCore depth extents cif abi isvariadic nfixedargs ntotalargs rtype atypes =
        some (outcome, extents') ∧
      outcome.Agrees (Native.ffiPrepCifCore cif abi isvariadic nfixedargs ntotalargs (ranked.tree outset rtype)
        (atypes.map (ranked.tree outset))) ∧
      (ranked.Formed outset (rtype :: atypes) → ∀ other, ranked.Progress outset extents' other) := by
  rw [Graph.ffiPrepCifCore, Native.ffiPrepCifCore]
  by_cases unknown : ¬ (abi > firstAbi ∧ abi < lastAbi)
  · rw [if_pos unknown, if_pos unknown]
    exact ⟨_, extents, rfl, ⟨rfl, fun accepted => FfiStatus.noConfusion accepted⟩, fun _ => so_far⟩
  rw [if_neg unknown, if_neg unknown]
  obtain ⟨status, next, ensured, ⟨error, rfl, refused, malformed⟩ | ⟨laid, rfl, done, shown, sized, progress⟩⟩ :=
    ranked.ensure_agrees result so_far
  · rw [ensured, refused]
    exact ⟨_, next, rfl, ⟨rfl, fun accepted => FfiStatus.noConfusion accepted⟩, fun formed => absurd formed (malformed atypes)⟩
  rw [ensured, done]
  dsimp only [bind, Option.bind]
  rw [if_neg (not_not.mpr rfl), (initialized_type done).trans (ranked.tree_type outset rtype)]
  by_cases complex : graph.type rtype = .complex
  · rw [if_pos complex, if_pos complex]
    exact ⟨_, next, rfl, trivial, fun _ => progress⟩
  rw [if_neg complex, if_neg complex]
  generalize (if graph.type rtype = .struct then stackArgSize 4 else 0) = bytes
  obtain ⟨ended, final, walked, ends, further⟩ := ranked.prepArgs_agrees arguments progress bytes
  have later : ranked.Formed outset (rtype :: atypes) → ∀ other, ranked.Progress outset final other :=
    fun formed => further fun type member => formed type (List.mem_cons_of_mem _ member)
  rw [walked]
  obtain ⟨stop, rfl, looped⟩ | ⟨laids, last, rfl, looped, heads⟩ := ends
  · rw [looped]
    cases stop with
    | abort => exact ⟨_, final, rfl, trivial, later⟩
    | status status => exact ⟨_, final, rfl, ⟨rfl, fun accepted => absurd accepted (prepArgs_refuses looped)⟩, later⟩
  · have same : graph.head final rtype = laid.head := by
      rw [shown, Graph.head, Graph.head, Graph.prepArgs_kept walked rtype sized]
    rw [looped]
    dsimp only
    rw [← heads, same]
    exact ⟨_, final, rfl, hook_agrees ⟨abi, ntotalargs, laids, laid, last, 0, cif.nfixedargs⟩ isvariadic nfixedargs ntotalargs, later⟩

end Graph.Ranked

namespace Request

/-- The requests in order, up to one that takes the process down. -/
def prepareAll (graph : Graph) (depth : Nat) : List Request → Extents → Option (List Outcome × Extents)
  | [], extents => some ([], extents)
  | request :: rest, extents => do
    let (outcome, extents) ← request.prepare graph depth extents
    match outcome with
    | .aborted => some ([.aborted], extents)
    | .returned status cif => do
      let (outcomes, extents) ← prepareAll graph depth rest extents
      some (.returned status cif :: outcomes, extents)

variable {graph : Graph} (ranked : graph.Ranked) {depth : Nat} (request : Request)

theorem prepare_kept {request : Request} {extents extents' : Extents} {outcome : Outcome}
    (prepared : request.prepare graph depth extents = some (outcome, extents')) : Kept extents extents' := by
  unfold prepare at prepared
  split at prepared
  · exact Graph.ffiPrepCifCore_kept prepared
  · simp only [Option.bind_eq_bind, Option.bind_eq_some_iff, Prod.exists] at prepared
    obtain ⟨driven, next, core, prepared⟩ := prepared
    have kept := Graph.ffiPrepCifCore_kept core
    cases driven with
    | aborted =>
      cases prepared
      exact kept
    | returned rc cif =>
      dsimp only at prepared
      repeat' split at prepared
      all_goals
        cases prepared
        exact kept

/-- No preparation writes a type that has a size. -/
theorem prepareAll_kept {requests : List Request} {extents extents' : Extents} {outcomes : List Outcome}
    (prepared : prepareAll graph depth requests extents = some (outcomes, extents')) : Kept extents extents' := by
  induction requests generalizing extents outcomes with
  | nil =>
    cases prepared
    exact .refl _
  | cons request rest ih =>
    simp only [prepareAll, Option.bind_eq_bind, Option.bind_eq_some_iff, Prod.exists] at prepared
    obtain ⟨outcome, next, first, prepared⟩ := prepared
    have kept := prepare_kept first
    cases outcome with
    | aborted =>
      cases prepared
      exact kept
    | returned status cif =>
      simp only [Option.bind_eq_some_iff, Prod.exists] at prepared
      obtain ⟨others, final, later, ended⟩ := prepared
      cases ended
      exact kept.trans (ih later)

def types : List Unsigned := request.rtype :: request.atypes

/-- The request prepared alone, from the types as they are declared. -/
def declared (extents : Extents) : Outcome :=
  request.alone (ranked.tree extents request.rtype) (request.atypes.map (ranked.tree extents))

theorem prepare_agrees (enough : ∀ type ∈ request.types, ranked.rank type < depth) {outset extents : Extents}
    (so_far : ∀ other, ranked.Progress outset extents other) :
    ∃ outcome extents', request.prepare graph depth extents = some (outcome, extents') ∧
      outcome.Agrees (request.declared ranked outset) ∧
      (ranked.Formed outset request.types → ∀ other, ranked.Progress outset extents' other) := by
  have result := enough request.rtype List.mem_cons_self
  have arguments : ∀ type ∈ request.atypes, ranked.rank type < depth := fun type member =>
    enough type (List.mem_cons_of_mem _ member)
  rw [prepare, declared, alone]
  cases request.preparation with
  | fixed => exact ranked.core_agrees result arguments so_far _ _ _ _ _
  | variadic nfixedargs =>
    obtain ⟨outcome, final, driven, agrees, progress⟩ :=
      ranked.core_agrees result arguments so_far request.cif request.abi true nfixedargs request.total
    dsimp only
    rw [driven, ffiPrepCifVar]
    dsimp only [bind, Option.bind]
    generalize ffiPrepCifCore request.cif request.abi true nfixedargs request.total (ranked.tree outset request.rtype)
      (request.atypes.map (ranked.tree outset)) = other at agrees
    cases outcome with
    | aborted =>
      cases other with
      | aborted => exact ⟨_, final, rfl, trivial, progress⟩
      | returned => exact agrees.elim
    | returned status cif =>
      cases other with
      | aborted => exact agrees.elim
      | returned status' cif' =>
        obtain ⟨rfl, same⟩ := agrees
        dsimp only
        by_cases accepted : status = .ok
        · have types : (cif.argTypes.drop nfixedargs.toNat).any promoted = (cif'.argTypes.drop nfixedargs.toNat).any promoted := by
            have heads : cif.argTypes.map FfiType.head = cif'.argTypes.map FfiType.head := congrArg Cif.argTypes (same accepted)
            have looks : promoted ∘ FfiType.head = promoted := rfl
            rw [← looks, ← List.any_map, ← List.any_map, List.map_drop, List.map_drop, heads]
          rw [if_neg (not_not.mpr accepted), if_neg (not_not.mpr accepted), types]
          split
          · exact ⟨_, final, rfl, ⟨rfl, fun refused => FfiStatus.noConfusion refused⟩, progress⟩
          · exact ⟨_, final, rfl, ⟨rfl, fun _ => same accepted⟩, progress⟩
        · rw [if_pos accepted, if_pos accepted]
          exact ⟨_, final, rfl, ⟨rfl, fun fine => absurd fine accepted⟩, progress⟩

/-- What is left of the outcomes when one of them ends the process. -/
def untilAborted : List Outcome → List Outcome
  | [] => []
  | .aborted :: _ => [.aborted]
  | .returned status cif :: rest => .returned status cif :: untilAborted rest

/-- However many calls share their types, each is prepared as if it were alone. -/
theorem prepareAll_agrees {requests : List Request} (enough : ∀ request ∈ requests, ∀ type ∈ request.types, ranked.rank type < depth)
    {outset extents : Extents} (formed : ∀ request ∈ requests, ranked.Formed outset request.types)
    (so_far : ∀ other, ranked.Progress outset extents other) :
    ∃ outcomes extents', prepareAll graph depth requests extents = some (outcomes, extents') ∧
      List.Forall₂ Outcome.Agrees outcomes (untilAborted (requests.map fun request => request.declared ranked outset)) := by
  induction requests generalizing extents with
  | nil => exact ⟨[], extents, rfl, .nil⟩
  | cons request rest ih =>
    obtain ⟨outcome, next, prepared, agrees, progress⟩ := request.prepare_agrees ranked (enough request List.mem_cons_self) so_far
    obtain ⟨outcomes, final, others, all⟩ := ih (fun other member => enough other (List.mem_cons_of_mem _ member))
      (fun other member => formed other (List.mem_cons_of_mem _ member)) (progress (formed request List.mem_cons_self))
    rw [prepareAll, prepared, List.map_cons]
    dsimp only [bind, Option.bind]
    generalize request.declared ranked outset = other at agrees
    cases outcome with
    | aborted =>
      cases other with
      | aborted => exact ⟨[.aborted], next, rfl, .cons trivial .nil⟩
      | returned => exact agrees.elim
    | returned status cif =>
      cases other with
      | aborted => exact agrees.elim
      | returned status' cif' =>
        dsimp only
        rw [others]
        exact ⟨_, final, rfl, .cons agrees all⟩

/-- A series from the types as they were when it began. -/
theorem series_agrees {requests : List Request} (enough : ∀ request ∈ requests, ∀ type ∈ request.types, ranked.rank type < depth)
    {extents : Extents} (formed : ∀ request ∈ requests, ranked.Formed extents request.types) :
    ∃ outcomes extents', prepareAll graph depth requests extents = some (outcomes, extents') ∧
      List.Forall₂ Outcome.Agrees outcomes (untilAborted (requests.map fun request => request.declared ranked extents)) :=
  prepareAll_agrees ranked enough formed (ranked.progress_refl extents)

end Request

/-- At 16 `struct { int i; int j; }`, with `int` at 32. -/
def pairs : Graph where
  type address := if address = 16 then .struct else .sint32
  elements address := if address = 16 then some [32, 32] else none
  float := 0

def pairsRank : pairs.Ranked where
  rank address := if address = 16 then 1 else 0
  falls := by
    intro type elements pointed element member
    unfold pairs at pointed
    dsimp only at pointed
    split at pointed
    · cases pointed
      rename_i here
      subst here
      rcases List.mem_cons.mp member with rfl | later
      · decide
      · rw [List.mem_singleton.mp later]
        decide
    · cases pointed

def pairsExtents : Extents := fun address => if address = 16 then ⟨0, 0⟩ else ⟨4, 4⟩

/-- `int f(struct pair, struct pair)` and `struct pair g(int, ...)` called with a pair -/
def both : List Request :=
  [⟨Signature.blank, wasm32, .fixed, 32, [16, 16]⟩, ⟨Signature.blank, wasm32, .variadic 1, 16, [32, 16]⟩]

theorem series_pairs : ∃ outcomes extents', Request.prepareAll pairs 2 both pairsExtents = some (outcomes, extents') ∧
    List.Forall₂ Outcome.Agrees outcomes
      (Request.untilAborted (both.map fun request => request.declared pairsRank pairsExtents)) := by
  have shallow : ∀ type, pairsRank.rank type < 2 := fun type => by
    change (if type = 16 then 1 else 0) < 2
    split <;> decide
  have laid : ∀ type ∈ [(16 : Unsigned), 32], ∃ extent, (pairsRank.tree pairsExtents type).settled = .ok extent := by
    intro type member
    rcases List.mem_cons.mp member with rfl | later
    · exact ⟨⟨8, 4⟩, rfl⟩
    · rw [List.mem_singleton.mp later]
      exact ⟨⟨4, 4⟩, rfl⟩
  refine Request.series_agrees pairsRank (fun _ _ type _ => shallow type) fun request member type inside => laid type ?_
  rcases List.mem_cons.mp member with rfl | later
  · exact (show ([32, 16, 16] : List Unsigned) ⊆ [16, 32] by decide) inside
  · rw [List.mem_singleton.mp later] at inside
    exact (show ([16, 32, 16] : List Unsigned) ⊆ [16, 32] by decide) inside

/-- A type that is refused keeps what it has reached: every later preparation takes it for laid out, exactly when the
elements before the one at fault take up room. -/
theorem Graph.Ranked.refused_spoils_iff {graph : Graph} (ranked : graph.Ranked) {depth : Nat} {type : Unsigned}
    {elements : List Unsigned} {extents : Extents} {error : FfiStatus} (enough : ranked.rank type < depth)
    (unsized : (extents type).size = 0) (pointed : graph.elements type = some elements)
    (refused : (ranked.tree extents type).settled = .error error) :
    ∃ extents', ensure (graph.initializeAggregate depth) extents type = some (.badTypedef, extents') ∧
      extents' type = leftBehind (elements.map (ranked.tree extents)) ⟨0, 0⟩ ∧
      ((∀ deep requests outcomes later, Request.prepareAll graph deep requests extents' = some (outcomes, later) →
          later type = extents' type ∧ ensure (graph.initializeAggregate deep) later type = some (.ok, later)) ↔
        Spoils (elements.map (ranked.tree extents)) ⟨0, 0⟩) := by
  obtain ⟨extents', ensured, left, sized⟩ := ranked.refused_left enough unsized pointed refused
  refine ⟨extents', ensured, left, ?_⟩
  rw [← sized]
  constructor
  · intro taken
    exact (ranked.taken_iff enough extents').mp (taken depth [] [] extents' rfl).2
  · intro size deep requests outcomes later prepared
    have same := Request.prepareAll_kept prepared type size
    exact ⟨same, if_neg (same ▸ size)⟩

/-- At 16 `struct { int i; struct { } none; }`, with `int` at 32 and the empty structure at 48. -/
def faulty : Graph where
  type address := if address = 16 ∨ address = 48 then .struct else .sint32
  elements address := if address = 16 then some [32, 48] else if address = 48 then some [] else none
  float := 0

def faultyRank : faulty.Ranked where
  rank address := if address = 16 then 1 else 0
  falls := by
    intro type elements pointed element member
    unfold faulty at pointed
    dsimp only at pointed
    split at pointed
    · cases pointed
      rename_i here
      subst here
      rcases List.mem_cons.mp member with rfl | later
      · decide
      · rw [List.mem_singleton.mp later]
        decide
    · split at pointed
      · cases pointed
        cases member
      · cases pointed

def faultyExtents : Extents := fun address => if address = 16 ∨ address = 48 then ⟨0, 0⟩ else ⟨4, 4⟩

/-- `void f(struct faulty)` -/
def faultyPassed : Request := ⟨Signature.blank, wasm32, .fixed, 32, [16]⟩

/-- Refused once, the structure is accepted as an argument from then on. -/
theorem refused_spoils_faulty : ∃ extents' cif later,
    ensure (faulty.initializeAggregate 2) faultyExtents 16 = some (.badTypedef, extents') ∧ extents' 16 = ⟨4, 4⟩ ∧
      Request.prepareAll faulty 2 [faultyPassed] extents' = some ([.returned .ok cif], later) ∧
      later 16 = ⟨4, 4⟩ ∧ ensure (faulty.initializeAggregate 2) later 16 = some (.ok, later) := by
  obtain ⟨extents', refused, left, spoils⟩ := faultyRank.refused_spoils_iff (show faultyRank.rank 16 < 2 by decide)
    (show (faultyExtents 16).size = 0 by decide) (show faulty.elements 16 = some [32, 48] from rfl)
    (show (faultyRank.tree faultyExtents 16).settled = .error .badTypedef from rfl)
  have reached : extents' 16 = ⟨4, 4⟩ := left
  have spoiled : Spoils ([32, 48].map (faultyRank.tree faultyExtents)) ⟨0, 0⟩ :=
    ⟨[faultyRank.tree faultyExtents 32], faultyRank.tree faultyExtents 48, [], rfl, ⟨.badTypedef, rfl⟩, ⟨4, 4⟩, rfl, by decide⟩
  obtain ⟨cif, later, accepted⟩ : ∃ cif later, ((ensure (faulty.initializeAggregate 2) faultyExtents 16).bind fun refusal =>
      Request.prepareAll faulty 2 [faultyPassed] refusal.2) = some ([.returned .ok cif], later) := ⟨_, _, rfl⟩
  rw [refused, Option.bind_some] at accepted
  obtain ⟨same, taken⟩ := spoils.mpr spoiled 2 _ _ later accepted
  exact ⟨extents', cif, later, refused, reached, accepted, same.trans reached, taken⟩

end WasiWheels.Native
