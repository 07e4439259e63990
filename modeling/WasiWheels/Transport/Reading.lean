import WasiWheels.Transport.Building
import WasiWheels.Transport.Buffers

/-! The response: its head, and the read loop up to its last read. -/

namespace WasiWheels.Transport

variable {H : Type}

section Response

variable (db : DuckDB H) (script : HostScript) (url : String)

theorem insertEach_emits (headers : H) (entries : List (String × String)) :
    Emits (insertEach db headers entries)
      (.fall (entries.foldl (fun headers entry => db.insert headers entry.1 entry.2) headers))
      (entries.map fun entry => .headersInsert entry.1 entry.2) := by
  induction entries generalizing headers with
  | nil => exact Block.Runs.pure headers
  | cons entry rest ih => exact (emits_perform _).bind (ih _)

/-- The calls of the read loop up to its last read. -/
def reading (contentHandler : Option ContentHandler) : List Bytes → List Bytes → List Call
  | _, [] => []
  | given, chunk :: rest =>
    [.blockingRead 65536 (.ok chunk)] ++
      (if chunk.length = 0 then []
        else contentHandler.toList.map fun handler => .contentHandler chunk (handler given chunk)) ++
      listU8Free chunk ++ reading contentHandler (if chunk.length = 0 then given else given ++ [chunk]) rest

def lastRead : List Call := [.blockingRead 65536 (.error script.readEnd)] ++ descriptions script.readEnd

/-- `read_error`: the debug string of a failed read, empty for a closed stream. -/
def StreamError.text : StreamError → String
  | .lastOperationFailed debug => debug
  | .closed => ""

theorem deliver_taken (contentHandler : Option ContentHandler) (given : List Bytes) (chunk body : Bytes)
    (takes : ∀ handler, contentHandler = some handler → chunk.length ≠ 0 →
      ∃ value, handler given chunk = .returned value) :
    Emits (deliver contentHandler given chunk body : Cpp H Bytes)
      (.fall (body ++ if contentHandler.isNone then chunk else []))
      (if chunk.length = 0 then []
        else contentHandler.toList.map fun handler => .contentHandler chunk (handler given chunk)) := by
  unfold deliver
  by_cases empty : chunk.length = 0
  · rw [if_pos empty, if_pos empty, List.length_eq_zero_iff.mp empty]
    simpa using Block.Runs.pure body
  · rw [if_neg empty, if_neg empty]
    cases contentHandler with
    | none => exact Block.Runs.pure (body ++ chunk)
    | some handler =>
      obtain ⟨value, took⟩ := takes handler rfl empty
      rw [Option.isNone_some, if_neg Bool.false_ne_true, List.append_nil]
      change Emits _ _ [.contentHandler chunk (handler given chunk)]
      dsimp only
      rw [took]
      refine (emits_perform _).bind_silent ?_
      exact Block.Runs.pure body

theorem readEach_drained (contentHandler : Option ContentHandler) (bstream : Handle) (reads given : List Bytes)
    (body : Bytes)
    (swallows : ∀ handler, contentHandler = some handler → Exchange.Swallows handler given (Exchange.chunks reads)) :
    Emits (readEach script contentHandler bstream reads given body : Cpp H (String × Bytes))
      (.fall (script.readEnd.text, body ++ if contentHandler.isNone then reads.flatten else []))
      (reading contentHandler given reads ++ lastRead script) := by
  induction reads generalizing given body with
  | nil =>
    have last : Emits (readEach script contentHandler bstream [] given body : Cpp H (String × Bytes))
        (.fall (script.readEnd.text, body)) (lastRead script) := by
      refine (emits_host bstream _).bind ((describe_emits script.readEnd).bind_silent ?_)
      cases script.readEnd with
      | lastOperationFailed debug => exact Block.Runs.pure (debug, body)
      | closed => exact Block.Runs.pure ("", body)
    simpa [reading] using last
  | cons chunk reads ih =>
    have taken := deliver_taken (H := H) contentHandler given chunk body fun handler same full => by
      have swallowed := swallows handler same
      rw [Exchange.chunks, List.filter_cons_of_pos (by simpa using full)] at swallowed
      exact swallowed.1
    have rest := ih (if chunk.length = 0 then given else given ++ [chunk])
      (body ++ if contentHandler.isNone then chunk else []) fun handler same => by
        have swallowed := swallows handler same
        by_cases empty : chunk.length = 0
        · rw [Exchange.chunks, List.filter_cons_of_neg (by simpa using empty)] at swallowed
          rw [if_pos empty]
          exact swallowed
        · rw [Exchange.chunks, List.filter_cons_of_pos (by simpa using empty)] at swallowed
          rw [if_neg empty]
          exact swallowed.2
    have grown : (body ++ if contentHandler.isNone then chunk else []) ++
        (if contentHandler.isNone then reads.flatten else []) =
          body ++ if contentHandler.isNone then (chunk :: reads).flatten else [] := by
      cases contentHandler <;> simp
    rw [grown] at rest
    have all : Emits (readEach script contentHandler bstream (chunk :: reads) given body : Cpp H (String × Bytes)) _ _ :=
      Block.Runs.bind (emits_host bstream _) (taken.bind ((emits_perform (listU8Free chunk)).bind rest))
    exact all.congr (by simp [reading])

theorem reading_cons_neat (contentHandler : Option ContentHandler) (given : List Bytes) (chunk : Bytes) :
    Neat ([.blockingRead 65536 (.ok chunk)] ++
      (if chunk.length = 0 then []
        else contentHandler.toList.map fun handler => .contentHandler chunk (handler given chunk)) ++
      listU8Free chunk) := by
  rw [listU8Free_eq]
  apply Neat.freed _ _ rfl
  split
  · exact Neat.nil
  · cases contentHandler with
    | none => exact Neat.nil
    | some handler => exact @Neat.single (.contentHandler chunk (handler given chunk)) rfl

/-- A content handler that throws ends the loop; no error was handed out, and its chunk is left behind. -/
theorem readEach_interrupted (handler : ContentHandler) (reads given : List Bytes)
    (objects : ¬ Exchange.Swallows handler given (Exchange.chunks reads)) :
    ∃ what made chunk, Quiet made ∧ Heap.Leaves (.chunk chunk) (heapActions made) ∧ ∀ bstream body,
      Emits (readEach script (some handler) bstream reads given body : Cpp H (String × Bytes)) (.throw what) made := by
  induction reads generalizing given with
  | nil => exact absurd trivial objects
  | cons chunk reads ih =>
    have read : ∀ bstream body exit made, Emits
        (do
          let body ← deliver (some handler) given chunk body
          perform (listU8Free chunk)
          readEach script (some handler) bstream reads
            (if chunk.length = 0 then given else given ++ [chunk]) body : Cpp H (String × Bytes)) exit made →
        Emits (readEach script (some handler) bstream (chunk :: reads) given body) exit
          ([.blockingRead 65536 (.ok chunk)] ++ made) :=
      fun bstream body exit made rest => Block.Runs.bind (emits_host bstream _) rest
    by_cases taken : chunk.length = 0 ∨ ∃ value, handler given chunk = .returned value
    · have delivered := fun body => deliver_taken (H := H) (some handler) given chunk body fun _ same full => by
        obtain rfl := Option.some.inj same
        exact taken.resolve_left full
      have rest : ¬ Exchange.Swallows handler (if chunk.length = 0 then given else given ++ [chunk])
          (Exchange.chunks reads) := by
        by_cases empty : chunk.length = 0
        · rw [Exchange.chunks, List.filter_cons_of_neg (by simpa using empty)] at objects
          rw [if_pos empty]
          exact objects
        · rw [Exchange.chunks, List.filter_cons_of_pos (by simpa using empty)] at objects
          rw [if_neg empty]
          exact fun swallows => objects ⟨taken.resolve_left empty, swallows⟩
      obtain ⟨what, made, left, quiet, leaves, emits⟩ := ih _ rest
      refine ⟨what, _, left, ?_, ?_, fun bstream body => read bstream body _ _
        (Block.Runs.bind (delivered body) (Block.Runs.bind (emits_perform _) (emits bstream _)))⟩
      rotate_left
      · have neat := (reading_cons_neat (some handler) given chunk).leaves leaves
        rwa [List.append_assoc, List.append_assoc] at neat
      refine Quiet.append ⟨rfl, rfl⟩ (Quiet.append ?_ ((listU8Free_quiet chunk).append quiet))
      split
      · exact Quiet.nil
      · exact ⟨rfl, rfl⟩
    · push Not at taken
      obtain ⟨full, throws⟩ := taken
      cases outcome : handler given chunk with
      | returned value => exact absurd outcome (throws value)
      | threw what =>
        have leaves : Heap.Leaves (.chunk chunk) (heapActions
            ([.blockingRead 65536 (.ok chunk)] ++ [.contentHandler chunk (.threw what)])) := by
          intro live
          simp [heapActions, Call.heapActions, Call.allocates, chunkBuffers, full, Heap.run, Heap.step]
        refine ⟨what, [.blockingRead 65536 (.ok chunk)] ++ [.contentHandler chunk (.threw what)], chunk, ⟨rfl, rfl⟩, leaves,
          fun bstream body => read bstream body _ _ (Block.Runs.bind_throw ?_)⟩
        unfold deliver
        rw [if_neg full]
        dsimp only
        rw [outcome]
        exact (emits_perform _).bind_silent (Block.Runs.throw what)

theorem reading_quiet (contentHandler : Option ContentHandler) (given reads : List Bytes) :
    Quiet (reading contentHandler given reads) := by
  induction reads generalizing given with
  | nil => exact Quiet.nil
  | cons chunk rest ih =>
    refine Quiet.append (Quiet.append (Quiet.append ⟨rfl, rfl⟩ ?_) (listU8Free_quiet chunk)) (ih _)
    split
    · exact Quiet.nil
    · cases contentHandler with
      | none => exact Quiet.nil
      | some handler => exact ⟨rfl, rfl⟩

theorem reading_neat (contentHandler : Option ContentHandler) (given reads : List Bytes) :
    Neat (reading contentHandler given reads) := by
  induction reads generalizing given with
  | nil => exact Neat.nil
  | cons chunk rest ih => exact (reading_cons_neat contentHandler given chunk).append (ih _)

theorem lastRead_neat : Neat (lastRead script) :=
  Neat.append (Neat.single rfl) (descriptions_neat script.readEnd)

end Response

namespace Exchange

variable (exchange : Exchange H)

/-- The response once its body has been read to the end. -/
def received : HTTPResponse H :=
  let resp := exchange.head
  let body := if exchange.contentHandler.isNone then exchange.script.reads.flatten else []
  if exchange.script.readEnd.text = "" then { resp with body }
  else { resp with
    body
    success := false
    requestError := "wasi:http body read failed for '" ++ exchange.url ++ "': " ++ exchange.script.readEnd.text }

def headCalls : List Call :=
  [.responseStatus exchange.script.status] ++ ([.responseHeaders] ++ ([.fieldsEntries exchange.script.entries] ++
    (exchange.script.entries.map fun entry => .headersInsert entry.1 entry.2) ++ entriesFree exchange.script.entries))

theorem readHead_emits (bresp : Handle) :
    Emits (readHead exchange.db exchange.script exchange.url bresp) (.fall exchange.head) exchange.headCalls := by
  refine (emits_host bresp _).bind ((emits_host bresp _).bind (emits_declare ?_))
  refine Block.Runs.scope (fun _ => rfl) (fun world => by rw [World.make, calls_append, calls_made]) ?_
  refine Block.Runs.bind (emits_borrow fun brh => emits_host brh _) ?_
  exact (insertEach_emits exchange.db _ _).bind_silent (Block.Runs.pure _)

theorem headCalls_quiet : Quiet exchange.headCalls := by
  refine Quiet.append ⟨rfl, rfl⟩ (Quiet.append ⟨rfl, rfl⟩ (Quiet.append (Quiet.append ⟨rfl, rfl⟩ ?_) (entriesFree_quiet _)))
  induction exchange.script.entries with
  | nil => exact Quiet.nil
  | cons entry rest ih => exact Quiet.append (show Quiet [.headersInsert entry.1 entry.2] from ⟨rfl, rfl⟩) ih

theorem headCalls_neat : Neat exchange.headCalls := by
  refine Neat.append (Neat.single rfl) (Neat.append (Neat.single rfl) ?_)
  rw [entriesFree_eq]
  apply Neat.freed _ _ rfl
  induction exchange.script.entries with
  | nil => exact Neat.nil
  | cons entry rest ih => exact Neat.append (@Neat.single (.headersInsert entry.1 entry.2) rfl) ih

def bodyCalls : List Call :=
  [.responseConsume true] ++ ([.bodyStream true] ++
    (reading exchange.contentHandler [] exchange.script.reads ++ lastRead exchange.script))

theorem bodyCalls_neat : Neat exchange.bodyCalls :=
  Neat.append (Neat.single rfl) (Neat.append (Neat.single rfl)
    ((reading_neat exchange.contentHandler [] exchange.script.reads).append (lastRead_neat exchange.script)))

theorem readBody_drained (bresp : Handle) (consumed : exchange.script.consume = true)
    (streamed : exchange.script.stream = true)
    (swallows : ∀ handler, exchange.contentHandler = some handler →
      Swallows handler [] (chunks exchange.script.reads)) :
    Emits (readBody exchange.db exchange.script exchange.url exchange.contentHandler exchange.head bresp)
      (.fall exchange.received) exchange.bodyCalls := by
  unfold readBody
  rw [consumed, streamed]
  refine (emits_ask bresp _ true).bind (emits_declare ((emits_borrow fun bbody => emits_ask bbody _ true).bind ?_))
  refine emits_declare (emits_borrow fun bstream =>
    (readEach_drained exchange.script exchange.contentHandler bstream _ [] [] swallows).bind_silent ?_)
  unfold received
  dsimp only
  split
  · exact Block.Runs.pure _
  · exact Block.Runs.pure _

theorem readBody_interrupted (handler : ContentHandler) (given : exchange.contentHandler = some handler)
    (consumed : exchange.script.consume = true) (streamed : exchange.script.stream = true)
    (objects : ¬ Swallows handler [] (chunks exchange.script.reads)) :
    ∃ what made chunk, Quiet made ∧ Heap.Leaves (.chunk chunk) (heapActions made) ∧ ∀ bresp,
      Emits (readBody exchange.db exchange.script exchange.url exchange.contentHandler exchange.head bresp)
        (.throw what) made := by
  obtain ⟨what, made, chunk, quiet, leaves, emits⟩ := readEach_interrupted (H := H) exchange.script handler _ [] objects
  refine ⟨what, [.responseConsume true] ++ ([.bodyStream true] ++ made), chunk,
    Quiet.append ⟨rfl, rfl⟩ (Quiet.append ⟨rfl, rfl⟩ quiet),
    Neat.leaves (Neat.single rfl) (Neat.leaves (Neat.single rfl) leaves), fun bresp => ?_⟩
  unfold readBody
  rw [consumed, streamed, given]
  refine (emits_ask bresp _ true).bind (emits_declare ((emits_borrow fun bbody => emits_ask bbody _ true).bind ?_))
  exact emits_declare (emits_borrow fun bstream => Block.Runs.bind_throw (emits bstream _))

theorem readBody_unopened (unopened : ¬ (exchange.script.consume = true ∧ exchange.script.stream = true)) :
    ∃ text made, text ≠ "" ∧ Quiet made ∧ Neat made ∧ ∀ bresp,
      Emits (readBody exchange.db exchange.script exchange.url exchange.contentHandler exchange.head bresp)
        (.ret (fail exchange.db text)) made := by
  unfold readBody
  cases consumed : exchange.script.consume with
  | false =>
    exact ⟨_, [.responseConsume false], quoted_ne _ _, ⟨rfl, rfl⟩, Neat.single rfl, fun bresp =>
      (emits_ask bresp _ false).bind_silent (Block.Runs.ret _)⟩
  | true =>
    cases streamed : exchange.script.stream with
    | false =>
      refine ⟨_, [.responseConsume true] ++ [.bodyStream false],
        quoted_ne "wasi:http: failed to open response body stream for '" exchange.url, ⟨rfl, rfl⟩,
        Neat.append (Neat.single rfl) (Neat.single rfl), fun bresp => ?_⟩
      exact (emits_ask bresp _ true).bind (emits_declare
        ((emits_borrow fun bbody => emits_ask bbody _ false).bind_silent (Block.Runs.ret _)))
    | true => exact absurd ⟨consumed, streamed⟩ unopened

end Exchange

end WasiWheels.Transport
