import WasiWheels.Transport.Building
import WasiWheels.Transport.Buffers
import Mathlib.Data.Nat.Find

/-! The upload: every write taken, or the first refused one ends the request. -/

namespace WasiWheels.Transport

variable {H : Type}

theorem writeErrorText_ne (url : String) (serr : StreamError) : writeErrorText url serr ≠ "" := by
  cases serr with
  | closed => exact quoted_ne _ _
  | lastOperationFailed debug =>
    intro empty
    exact quoted_ne _ _ (String.append_eq_empty_iff.mp (String.append_eq_empty_iff.mp empty).1).1

section Upload

variable (db : DuckDB H) (script : HostScript) (url : String) (body : Bytes)

/-- The writes left from offset `off`. -/
def writesLeft (off : Nat) : Nat := (body.length - off + 4095) / 4096

/-- The loop sends what is left, chunk by chunk, when every write is taken. -/
def writes (off : Nat) : List Call :=
  if off < body.length then
    let n := if 4096 < body.length - off then 4096 else body.length - off
    .blockingWriteAndFlush ((body.drop off).take n) none :: writes (off + n)
  else []
termination_by body.length - off
decreasing_by split <;> omega

theorem writeEach_accepted (bos : Handle) (off count : Nat)
    (accepts : ∀ index < writesLeft body off, script.blockingWriteAndFlush (count + index) = none) :
    Emits (writeEach db script url body bos off count) (.fall ()) (writes body off) := by
  induction off, count using writeEach.induct body with
  | case1 off count more size ih =>
    rw [writeEach, writes, if_pos more, if_pos more]
    have first : script.blockingWriteAndFlush count = none := accepts 0 (by unfold writesLeft; omega)
    rw [first]
    refine (emits_host bos _).bind (ih fun index below => ?_)
    rw [Nat.add_assoc, Nat.add_comm 1]
    refine accepts (index + 1) ?_
    unfold writesLeft at below ⊢
    dsimp only [size] at below
    split at below <;> omega
  | case2 off count done =>
    rw [writeEach, writes, if_neg done, if_neg done]
    exact Block.Runs.pure ()

/-- The first refused write ends the loop with its error. -/
theorem writeEach_refused (serr : StreamError) (off count index : Nat) (below : index < writesLeft body off)
    (earlier : ∀ before < index, script.blockingWriteAndFlush (count + before) = none)
    (refused : script.blockingWriteAndFlush (count + index) = some serr) :
    ∃ made, made.all Call.later = true ∧ made.any Call.raises = serr.failed ∧ Neat made ∧
      ∀ bos, Emits (writeEach db script url body bos off count) (.ret (fail db (writeErrorText url serr))) made := by
  induction off, count using writeEach.induct body generalizing index with
  | case1 off count more size ih =>
    cases index with
    | zero =>
      obtain ⟨later, quiet⟩ := descriptions_quiet serr
      refine ⟨[.blockingWriteAndFlush ((body.drop off).take size) (some serr)] ++ descriptions serr, ?_, ?_,
        Neat.append (Neat.single rfl) (descriptions_neat serr), fun bos => ?_⟩
      · simp [later, Call.later, Call.building]
      · rw [List.any_append, quiet]
        cases serr <;> rfl
      · rw [writeEach, if_pos more, show script.blockingWriteAndFlush count = some serr from refused]
        exact (emits_host bos _).bind ((describe_emits serr).bind_silent (Block.Runs.ret _))
    | succ index =>
      obtain ⟨made, later, raises, neat, emits⟩ := ih index
        (by unfold writesLeft at below ⊢; dsimp only [size]; split <;> omega)
        (fun before less => by rw [Nat.add_assoc, Nat.add_comm 1]; exact earlier (before + 1) (by omega))
        (by rw [Nat.add_assoc, Nat.add_comm 1]; exact refused)
      refine ⟨[.blockingWriteAndFlush ((body.drop off).take size) none] ++ made, ?_, ?_,
        Neat.append (Neat.single rfl) neat, fun bos => ?_⟩
      · simpa [Call.later, Call.building] using later
      · rw [List.any_append, raises]
        rfl
      · rw [writeEach, if_pos more, show script.blockingWriteAndFlush count = none from earlier 0 (by omega)]
        exact (emits_host bos _).bind (emits bos)
  | case2 off count done => exact absurd below (by unfold writesLeft; omega)

end Upload

namespace Exchange

variable (exchange : Exchange H)

/-- The whole upload, when the host takes it. -/
def uploads : List Call :=
  match exchange.bodyData with
  | none => []
  | some body => [.outgoingBodyWrite true] ++ (writes body 0 ++ [.outgoingBodyFinish none])

theorem upload_accepted (uploaded : ∀ body, exchange.bodyData = some body → exchange.Uploaded body) :
    Emits (upload exchange.db exchange.script exchange.url exchange.bodyData) (.fall ()) exchange.uploads := by
  unfold upload uploads
  cases given : exchange.bodyData with
  | none => exact Block.Runs.pure ()
  | some body =>
    obtain ⟨opened, written, finished⟩ := uploaded body given
    dsimp only
    rw [opened, finished]
    refine (emits_borrow fun bob => emits_ask bob _ true).bind ?_
    refine (emits_declare (emits_borrow fun bos => writeEach_accepted exchange.db exchange.script exchange.url body bos 0 0
      fun index below => by rw [Nat.zero_add]; exact written index below)).bind ?_
    exact emits_release fun consumed => (emits_host consumed _).bind_silent (Block.Runs.pure ())

/-- The first refused write of the body is answered `last-operation-failed`. -/
def WriteFails : Prop :=
  ∃ body, exchange.bodyData = some body ∧ exchange.script.write = true ∧
    ∃ index < writeCount body, (∀ earlier < index, exchange.script.blockingWriteAndFlush earlier = none) ∧
      ∃ debug, exchange.script.blockingWriteAndFlush index = some (.lastOperationFailed debug)

theorem writes_quiet (body : Bytes) (off : Nat) : Quiet (writes body off) := by
  induction off using writes.induct body with
  | case1 off more size ih =>
    rw [writes, if_pos more]
    exact Quiet.append (show Quiet [.blockingWriteAndFlush _ none] from ⟨rfl, rfl⟩) ih
  | case2 off done =>
    rw [writes, if_neg done]
    exact Quiet.nil

theorem writes_neat (body : Bytes) (off : Nat) : Neat (writes body off) := by
  induction off using writes.induct body with
  | case1 off more size ih =>
    rw [writes, if_pos more]
    exact Neat.append (@Neat.single (.blockingWriteAndFlush _ none) rfl) ih
  | case2 off done =>
    rw [writes, if_neg done]
    exact Neat.nil

theorem first_refused {answers : Nat → Option StreamError} {count : Nat}
    (refuses : ∃ index < count, answers index ≠ none) :
    ∃ index < count, (∀ earlier < index, answers earlier = none) ∧ ∃ serr, answers index = some serr := by
  obtain ⟨below, refused⟩ := Nat.find_spec refuses
  refine ⟨Nat.find refuses, below, fun earlier less => ?_, Option.ne_none_iff_exists'.mp refused⟩
  by_contra sooner
  exact Nat.find_min refuses less ⟨less.trans below, sooner⟩

/-- What is known of the calls of an upload that the host does not take. -/
structure CutOff (made : List Call) : Prop where
  asked : ∃ opened, .outgoingBodyWrite opened ∈ made
  later : made.all Call.later = true
  raises : made.any Call.raises = true ↔ exchange.WriteFails
  neat : Neat made

section Refused

variable {exchange} {body : Bytes}

/-- The first refused write decides. -/
theorem writeFails_iff (given : exchange.bodyData = some body) (opened : exchange.script.write = true) {index : Nat}
    (below : index < writeCount body) (earlier : ∀ before < index, exchange.script.blockingWriteAndFlush before = none)
    {serr : StreamError} (stopped : exchange.script.blockingWriteAndFlush index = some serr) :
    exchange.WriteFails ↔ serr.failed = true := by
  constructor
  · rintro ⟨other, same, -, index', below', earlier', debug, failed⟩
    obtain rfl : body = other := Option.some.inj (given.symm.trans same)
    rcases Nat.lt_trichotomy index index' with less | rfl | more
    · simp [earlier' index less] at stopped
    · rw [stopped] at failed
      cases failed
      rfl
    · simp [earlier index' more] at failed
  · intro failed
    cases serr with
    | closed => cases failed
    | lastOperationFailed debug => exact ⟨body, given, opened, index, below, earlier, debug, stopped⟩

theorem upload_unopened (given : exchange.bodyData = some body) (unopened : exchange.script.write = false) :
    exchange.CutOff [.outgoingBodyWrite false] ∧
      Emits (upload exchange.db exchange.script exchange.url exchange.bodyData)
        (.ret (fail exchange.db ("wasi:http: failed to open request body stream for '" ++ exchange.url ++ "'")))
        [.outgoingBodyWrite false] := by
  constructor
  · refine ⟨⟨false, List.mem_cons_self⟩, rfl, ?_, Neat.single rfl⟩
    simp [WriteFails, unopened, Call.raises, Call.produces]
  · rw [given, upload, unopened]
    exact (emits_borrow fun bob => emits_ask bob _ false).bind_silent (Block.Runs.ret _)

theorem upload_unwritten (given : exchange.bodyData = some body) (opened : exchange.script.write = true) {index : Nat}
    (below : index < writeCount body) (earlier : ∀ before < index, exchange.script.blockingWriteAndFlush before = none)
    {serr : StreamError} (stopped : exchange.script.blockingWriteAndFlush index = some serr) :
    ∃ made, exchange.CutOff made ∧ Emits (upload exchange.db exchange.script exchange.url exchange.bodyData)
      (.ret (fail exchange.db (writeErrorText exchange.url serr))) made := by
  obtain ⟨made, later, raises, neat, emits⟩ := writeEach_refused exchange.db exchange.script exchange.url body serr 0 0
    index below (fun before less => by rw [Nat.zero_add]; exact earlier before less) (by rw [Nat.zero_add]; exact stopped)
  refine ⟨[.outgoingBodyWrite true] ++ made, ⟨⟨true, List.mem_cons_self⟩, ?_, ?_, Neat.append (Neat.single rfl) neat⟩, ?_⟩
  · simpa [Call.later, Call.building] using later
  · rw [writeFails_iff given opened below earlier stopped, List.any_append, raises]
    rfl
  · rw [given, upload, opened]
    exact (emits_borrow fun bob => emits_ask bob _ true).bind (Block.Runs.bind_ret (emits_declare (emits_borrow emits)))

theorem upload_unfinished (given : exchange.bodyData = some body) (opened : exchange.script.write = true)
    (written : ∀ index < writeCount body, exchange.script.blockingWriteAndFlush index = none) {finErr : ErrorCode}
    (finished : exchange.script.finish = some finErr) :
    ∃ made, exchange.CutOff made ∧ Emits (upload exchange.db exchange.script exchange.url exchange.bodyData)
      (.ret (fail exchange.db ("wasi:http: failed to finish request body for '" ++ exchange.url ++ "'"))) made := by
  have quiet : Quiet ([.outgoingBodyWrite true] ++ (writes body 0 ++ ([.outgoingBodyFinish (some finErr)] ++
      errorCodeFree finErr))) :=
    Quiet.append ⟨rfl, rfl⟩ ((writes_quiet body 0).append (Quiet.append ⟨rfl, rfl⟩ (errorCodeFree_quiet finErr)))
  have neat : Neat ([.outgoingBodyFinish (some finErr)] ++ errorCodeFree finErr) := by
    rw [errorCodeFree_eq]
    exact @Neat.freed (.outgoingBodyFinish (some finErr)) [] _ rfl Neat.nil
  have unfailed : ¬ exchange.WriteFails := by
    rintro ⟨other, same, -, index, below, -, debug, failed⟩
    obtain rfl : body = other := Option.some.inj (given.symm.trans same)
    simp [written index below] at failed
  refine ⟨_, ⟨⟨true, List.mem_append_left _ List.mem_cons_self⟩, quiet.1, ?_,
    Neat.append (Neat.single rfl) ((writes_neat body 0).append neat)⟩, ?_⟩
  · rw [quiet.2]
    exact iff_of_false Bool.false_ne_true unfailed
  · rw [given, upload, opened, finished]
    refine (emits_borrow fun bob => emits_ask bob _ true).bind ?_
    refine (emits_declare (emits_borrow fun bos => writeEach_accepted exchange.db exchange.script exchange.url body
      bos 0 0 fun index below => by rw [Nat.zero_add]; exact written index below)).bind ?_
    exact emits_release fun consumed => (emits_host consumed _).bind ((emits_perform _).bind_silent (Block.Runs.ret _))

end Refused

/-- An upload the host does not take ends the request. -/
theorem upload_refused (refused : ¬ ∀ body, exchange.bodyData = some body → exchange.Uploaded body) :
    ∃ text made, text ≠ "" ∧ exchange.CutOff made ∧
      Emits (upload exchange.db exchange.script exchange.url exchange.bodyData) (.ret (fail exchange.db text)) made := by
  push Not at refused
  obtain ⟨body, given, incomplete⟩ := refused
  cases opened : exchange.script.write with
  | false => exact ⟨_, _, quoted_ne _ _, upload_unopened given opened⟩
  | true =>
    by_cases written : ∀ index < writeCount body, exchange.script.blockingWriteAndFlush index = none
    · obtain ⟨finErr, finished⟩ := Option.ne_none_iff_exists'.mp fun none => incomplete ⟨opened, written, none⟩
      obtain ⟨made, cutOff, emits⟩ := upload_unfinished given opened written finished
      exact ⟨_, made, quoted_ne _ _, cutOff, emits⟩
    · push Not at written
      obtain ⟨index, below, earlier, serr, stopped⟩ := first_refused written
      obtain ⟨made, cutOff, emits⟩ := upload_unwritten given opened below earlier stopped
      exact ⟨_, made, writeErrorText_ne exchange.url serr, cutOff, emits⟩

end Exchange

end WasiWheels.Transport
