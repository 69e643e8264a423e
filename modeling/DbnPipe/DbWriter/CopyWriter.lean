import DbnPipe.DbWriter.SqlCommands

/-!
# The COPY writer

`PostgresCopyWriter` of `dbwriter/src/postgres.cpp`: coroutines that call libpq, one call after the other, and wait
in between.

* `ConnectionState`, `CopyWriter`, `Session` — the shared state of a connection, and a writer on it;
* `Place` — **the call of libpq that a coroutine makes next**;
* `start`, `writeRow`, `finish`, `abort` — a method up to its first call; `destroy` — the destructor;
* `answer` — **what libpq answers**, and what the coroutine does up to its next call;
* `Placed`, `holds` — where a writer has the connection for its COPY;
* `answered_answer` — an answer keeps the flags as they are, or **gives the connection back**;
* `untouched_answer` — libpq is **not called for a closed connection**.
-/

namespace DbnPipe.DbWriter

/-! ### The state -/

/-- `PostgresConnectionState`, with the commands that libpq took.  `touched` is that libpq was called for a connection
that was closed before. -/
structure ConnectionState where
  valid : Bool := false
  copyInFlight : Bool := false
  commands : List (List Char) := []
  touched : Bool := false
deriving DecidableEq

/-- Which coroutine awaits `send_data`. -/
inductive Sender where
  | start | writeRow | finish
deriving DecidableEq

/-- The call that a coroutine makes next; where there is none, what the last one returned or threw. -/
inductive Place where
  | returned (result : Except String Unit)
  | startFlush | startBusy | startConsume
  | putData (sender : Sender) (data : List Byte)
  | flushData (sender : Sender)
  | finishPutEnd | finishFlush | finishBusy | finishConsume
  | abortPutEnd | abortFlush | abortBusy | abortConsume

/-- `ExecStatusType`, as far as it is compared. -/
inductive ExecStatus where
  | copyIn | commandOk | tuplesOk | other
deriving DecidableEq

/-- `PostgresCopyWriter`.  `copyData` is what `putCopyData` took, `copyEnds` the error messages of the calls of
`putCopyEnd` that were taken, none being the end of a whole COPY, and `results` the results that were looked at. -/
structure CopyWriter where
  table : List Char
  columns : List (List Char)
  inCopy : Bool := false
  place : Place := .returned (.ok ())
  copyData : List Byte := []
  copyEnds : List (Option String) := []
  results : List ExecStatus := []

/-- A writer and the state of its connection. -/
structure Session where
  writer : CopyWriter
  state : ConnectionState

/-- `PGresult`, as far as the writer reads it. -/
structure ExecResult where
  status : ExecStatus
  errorMessage : String

/-- What libpq answers, with what the wait behind it throws: `flush` 0, 1 and -1, `putCopyData` and `putCopyEnd` 1, 0
and -1, `isBusy` and the result behind it, `consumeInput`, and the wait before it. -/
inductive Answer where
  | flushed
  | flushMore (wait : Option String)
  | flushFailed (message : String)
  | taken
  | wouldBlock (wait : Option String)
  | putFailed (message : String)
  | busy
  | ready (result : Option ExecResult)
  | consumed
  | consumeFailed (message : String)
  | waitFailed (message : String)

/-! ### What the methods share -/

/-- The text of `check_valid`. -/
def closedText : String := "Connection closed - database was destroyed"

/-- `INT_MAX`. -/
def intMax : ℕ := 2147483647

/-- The header that `start` sends. -/
def copyHeader : List Byte := [80, 71, 67, 79, 80, 89, 10, 255, 13, 10, 0, 0, 0, 0, 0, 0, 0, 0, 0]

/-- The trailer that `finish` sends. -/
def copyTrailer : List Byte := [255, 255]

namespace Session

/-- The coroutine goes on to a call. -/
def goesTo (place : Place) (s : Session) : Session := { s with writer := { s.writer with place := place } }

/-- An exception leaves the coroutine. -/
def throws (message : String) (s : Session) : Session := s.goesTo (.returned (.error message))

/-- The coroutine returns. -/
def returns (s : Session) : Session := s.goesTo (.returned (.ok ()))

/-- `in_copy_ = false` and `copy_in_flight = false`. -/
def release (s : Session) : Session :=
  { writer := { s.writer with inCopy := false }, state := { s.state with copyInFlight := false } }

/-- The guard of `start`, on an exception. -/
def uncommitted (s : Session) : Session := { s with state := { s.state with copyInFlight := false } }

/-- libpq is called. -/
def touch (s : Session) : Session := { s with state := { s.state with touched := s.state.touched || !s.state.valid } }

/-- `check_valid`, and what follows. -/
def checkValid (next : Session → Session) (s : Session) : Session := if s.state.valid then next s else s.throws closedText

/-- `send_data`, up to its first call. -/
def sendData (sender : Sender) (data : List Byte) : Session → Session :=
  checkValid fun s =>
    if intMax < data.length then s.throws "Data size exceeds maximum allowed for PQputCopyData"
    else s.goesTo (.putData sender data)

/-- `resultStatus`. -/
def reads (status : ExecStatus) (s : Session) : Session :=
  { s with writer := { s.writer with results := s.writer.results ++ [status] } }

/-! ### The methods -/

/-- `start`, up to its first wait: `sent` is what `sendQuery` failed with, or none. -/
def start (sent : Option String) : Session → Session :=
  checkValid fun s =>
    if s.writer.inCopy then s.throws "start() already called on this CopyWriter"
    else if s.state.copyInFlight then s.throws "Another COPY operation is in progress on this connection"
    else
      let s := { s with state := { s.state with copyInFlight := true } }.touch
      match sent with
      | some message => s.uncommitted.throws message
      | none =>
        let commands := s.state.commands ++ [cString (copyCommand s.writer.table s.writer.columns)]
        { s with state := { s.state with commands := commands } }.goesTo .startFlush

/-- `write_row`. -/
def writeRow (data : List Byte) : Session → Session :=
  checkValid fun s =>
    if s.writer.inCopy then s.sendData .writeRow data else s.throws "write_row() called before start() completed"

/-- `finish`, up to its first call. -/
def finish : Session → Session :=
  checkValid fun s =>
    if s.writer.inCopy then s.sendData .finish copyTrailer else s.throws "finish() called without successful start()"

/-- `abort`, up to its first call. -/
def abort (s : Session) : Session :=
  if s.writer.inCopy && s.state.valid then s.goesTo .abortPutEnd else s.returns

/-! ### The calls of libpq -/

/-- `start`: the loop that flushes the command. -/
def startFlush (a : Answer) (s : Session) : Session :=
  if s.state.valid then
    let s := s.touch
    match a with
    | .flushed => s.goesTo .startBusy
    | .flushMore (some message) => s.uncommitted.throws message
    | .flushFailed message => s.uncommitted.throws message
    | _ => s
  else s.uncommitted.throws closedText

/-- `start`: `isBusy`, and behind the loop the result, without a look at `valid`. -/
def startBusy (a : Answer) (s : Session) : Session :=
  let s := s.touch
  match a with
  | .busy => if s.state.valid then s.goesTo .startConsume else s.uncommitted.throws closedText
  | .ready none => s.uncommitted.throws "COPY: no result received"
  | .ready (some result) =>
    let s := s.reads result.status
    if result.status = .copyIn then { s with writer := { s.writer with inCopy := true } }.sendData .start copyHeader
    else s.uncommitted.throws ("COPY failed: " ++ result.errorMessage)
  | _ => s

/-- `start`: the wait, and `consumeInput`. -/
def startConsume (a : Answer) (s : Session) : Session :=
  match a with
  | .waitFailed message => s.uncommitted.throws message
  | .consumed => s.touch.goesTo .startBusy
  | .consumeFailed message => s.touch.uncommitted.throws message
  | _ => s

/-- Behind `send_data`. -/
def sent : Sender → Session → Session
  | .start, s => s.returns
  | .writeRow, s => s.returns
  | .finish, s => s.goesTo .finishPutEnd

/-- `send_data`: `putCopyData`. -/
def putData (sender : Sender) (data : List Byte) (a : Answer) : Session → Session :=
  checkValid fun s =>
    let s := s.touch
    match a with
    | .taken => { s with writer := { s.writer with copyData := s.writer.copyData ++ data } }.goesTo (.flushData sender)
    | .wouldBlock (some message) => s.throws message
    | .putFailed message => s.throws message
    | _ => s

/-- `send_data`: the loop that flushes. -/
def flushData (sender : Sender) (a : Answer) : Session → Session :=
  checkValid fun s =>
    let s := s.touch
    match a with
    | .flushed => s.sent sender
    | .flushMore (some message) => s.throws message
    | .flushFailed message => s.throws message
    | _ => s

/-- `putCopyEnd` was taken. -/
def putEnd (message : Option String) (s : Session) : Session :=
  { s with writer := { s.writer with copyEnds := s.writer.copyEnds ++ [message] } }

/-- `finish`: `putCopyEnd`. -/
def finishPutEnd (a : Answer) : Session → Session :=
  checkValid fun s =>
    let s := s.touch
    match a with
    | .taken => (s.putEnd none).goesTo .finishFlush
    | .wouldBlock (some message) => s.throws message
    | .putFailed message => s.release.throws message
    | _ => s

/-- `finish`: the loop that flushes the end. -/
def finishFlush (a : Answer) : Session → Session :=
  checkValid fun s =>
    let s := s.touch
    match a with
    | .flushed => s.goesTo .finishBusy
    | .flushMore (some message) => s.throws message
    | .flushFailed message => s.release.throws message
    | _ => s

/-- `finish`: `isBusy`, and behind the loop the result, without a look at `valid`. -/
def finishBusy (a : Answer) (s : Session) : Session :=
  let s := s.touch
  match a with
  | .busy => s.checkValid (goesTo .finishConsume)
  | .ready none => s.release.throws "COPY finish: no result received"
  | .ready (some result) =>
    let s := s.reads result.status
    if result.status = .commandOk then s.release.returns
    else s.release.throws ("COPY finish failed: " ++ result.errorMessage)
  | _ => s

/-- `finish`: the wait, and `consumeInput`. -/
def finishConsume (a : Answer) (s : Session) : Session :=
  match a with
  | .waitFailed message => s.throws message
  | .consumed => s.touch.goesTo .finishBusy
  | .consumeFailed message => s.touch.throws message
  | _ => s

/-- `abort`: `putCopyEnd`; a failure is passed over. -/
def abortPutEnd (a : Answer) (s : Session) : Session :=
  if s.state.valid then
    let s := s.touch
    match a with
    | .taken => (s.putEnd (some "aborted by client")).goesTo .abortFlush
    | .wouldBlock (some message) => s.release.throws message
    | .putFailed _ => s.goesTo .abortFlush
    | _ => s
  else s.release.returns

/-- `abort`: the loop that flushes. -/
def abortFlush (a : Answer) (s : Session) : Session :=
  if s.state.valid then
    let s := s.touch
    match a with
    | .flushed => s.goesTo .abortBusy
    | .flushMore (some message) => s.release.throws message
    | .flushFailed _ => s.goesTo .abortBusy
    | _ => s
  else s.release.returns

/-- `abort`: `isBusy`, and behind the loop what is left. -/
def abortBusy (a : Answer) (s : Session) : Session :=
  if s.state.valid then
    let s := s.touch
    match a with
    | .busy => s.goesTo .abortConsume
    | .ready _ => s.release.returns
    | _ => s
  else s.release.returns

/-- `abort`: the wait, and `consumeInput`. -/
def abortConsume (a : Answer) (s : Session) : Session :=
  match a with
  | .waitFailed message => s.release.throws message
  | .consumed => if s.state.valid then s.touch.goesTo .abortBusy else s.release.returns
  | .consumeFailed _ => if s.state.valid then s.touch.release.returns else s.release.returns
  | _ => s

/-- **An answer**, and what the coroutine does up to its next call. -/
def answer (a : Answer) (s : Session) : Session :=
  match s.writer.place with
  | .returned _ => s
  | .startFlush => s.startFlush a
  | .startBusy => s.startBusy a
  | .startConsume => s.startConsume a
  | .putData sender data => s.putData sender data a
  | .flushData sender => s.flushData sender a
  | .finishPutEnd => s.finishPutEnd a
  | .finishFlush => s.finishFlush a
  | .finishBusy => s.finishBusy a
  | .finishConsume => s.finishConsume a
  | .abortPutEnd => s.abortPutEnd a
  | .abortFlush => s.abortFlush a
  | .abortBusy => s.abortBusy a
  | .abortConsume => s.abortConsume a

/-- The destructor, with whether its `putCopyEnd` was taken. -/
def destroy (taken : Bool) (s : Session) : Session :=
  if s.writer.inCopy && s.state.valid then
    let s := if taken then s.touch.putEnd (some "aborted") else s.touch
    { s with state := { s.state with copyInFlight := false } }
  else s

end Session

/-! ### Holding the connection -/

/-- No coroutine is suspended. -/
def Place.ended : Place → Bool
  | .returned _ => true
  | _ => false

/-- In `abort`. -/
def Place.aborting : Place → Bool
  | .abortPutEnd | .abortFlush | .abortBusy | .abortConsume => true
  | _ => false

/-- Between the command of `start` and its result. -/
def Place.starting : Place → Bool
  | .startFlush | .startBusy | .startConsume => true
  | _ => false

/-- In a wait for a result that libpq is asked for without a look at `valid`. -/
def Place.waits : Place → Bool
  | .startBusy | .startConsume | .finishBusy | .finishConsume => true
  | _ => false

/-- **The writer has the connection for its COPY.** -/
def CopyWriter.holds (w : CopyWriter) : Bool := w.inCopy || w.place.starting

/-- Where a coroutine can be: `in_copy_` is not set before the result of `start`, and set behind it. -/
def CopyWriter.Placed (w : CopyWriter) : Prop :=
  match w.place with
  | .returned _ => True
  | .startFlush | .startBusy | .startConsume => w.inCopy = false
  | _ => w.inCopy = true

namespace Session

/-- What a call or an answer does to the flags: **they stay, or the connection is given back**. -/
structure Answered (s s' : Session) : Prop where
  placed : s'.writer.Placed
  valid : s'.state.valid = s.state.valid
  held : (s'.writer.holds = s.writer.holds ∧ s'.state.copyInFlight = s.state.copyInFlight) ∨
    (s.writer.holds = true ∧ s'.writer.holds = false ∧ s'.state.copyInFlight = false)

variable {s : Session}

theorem answered_refl (h : s.writer.Placed) : Answered s s := ⟨h, rfl, .inl ⟨rfl, rfl⟩⟩

/-- The connection is given back once. -/
theorem Answered.trans {s' s'' : Session} (h : Answered s s') (h' : Answered s' s'') : Answered s s'' := by
  refine ⟨h'.placed, h'.valid.trans h.valid, ?_⟩
  rcases h.held with ⟨hholds, hflag⟩ | ⟨hholds, hfree, hflag⟩
  · rcases h'.held with ⟨hholds', hflag'⟩ | ⟨hholds', hfree', hflag'⟩
    · exact .inl ⟨hholds'.trans hholds, hflag'.trans hflag⟩
    · exact .inr ⟨hholds.symm.trans hholds', hfree', hflag'⟩
  · rcases h'.held with ⟨hholds', hflag'⟩ | ⟨hholds', -, -⟩
    · exact .inr ⟨hholds, hholds'.trans hfree, hflag'.trans hflag⟩
    · exact absurd (hfree.symm.trans hholds') Bool.false_ne_true

/-- A call of libpq changes neither flag. -/
theorem answered_touch {s' : Session} (h : Answered s.touch s') : Answered s s' := ⟨h.placed, h.valid, h.held⟩

/-- A coroutine that holds the connection ends, and stays in the COPY. -/
theorem answered_returned {s' : Session} {result : Except String Unit} (hplace : s'.writer.place = .returned result)
    (hholds : s.writer.holds = s'.writer.inCopy) (hstate : s'.state.copyInFlight = s.state.copyInFlight)
    (hvalid : s'.state.valid = s.state.valid) : Answered s s' := by
  refine ⟨?_, hvalid, .inl ⟨?_, hstate⟩⟩
  · rw [CopyWriter.Placed, hplace]
    trivial
  · rw [CopyWriter.holds, hplace, hholds]
    exact Bool.or_false _

/-- **The connection is given back.** -/
theorem answered_freed {s' : Session} {result : Except String Unit} (hplace : s'.writer.place = .returned result)
    (hholds : s.writer.holds = true) (hinCopy : s'.writer.inCopy = false) (hstate : s'.state.copyInFlight = false)
    (hvalid : s'.state.valid = s.state.valid) : Answered s s' := by
  refine ⟨?_, hvalid, .inr ⟨hholds, ?_, hstate⟩⟩
  · rw [CopyWriter.Placed, hplace]
    trivial
  · rw [CopyWriter.holds, hplace, hinCopy]
    rfl

/-- A coroutine goes on in the COPY. -/
theorem answered_inCopy {s' : Session} (hplaced : s'.writer.Placed) (hinCopy : s.writer.inCopy = true)
    (hinCopy' : s'.writer.inCopy = true) (hstate : s'.state.copyInFlight = s.state.copyInFlight)
    (hvalid : s'.state.valid = s.state.valid) : Answered s s' := by
  refine ⟨hplaced, hvalid, .inl ⟨?_, hstate⟩⟩
  rw [CopyWriter.holds, CopyWriter.holds, hinCopy, hinCopy']
  rfl

/-- A coroutine goes on before the result of `start`. -/
theorem answered_starting {s' : Session} (hinCopy : s'.writer.inCopy = false)
    (hholds : s.writer.holds = true) (hstarting : s'.writer.place.starting = true)
    (hstate : s'.state.copyInFlight = s.state.copyInFlight) (hvalid : s'.state.valid = s.state.valid) :
    Answered s s' := by
  refine ⟨?_, hvalid, .inl ⟨?_, hstate⟩⟩
  · revert hstarting
    rw [CopyWriter.Placed]
    cases s'.writer.place with
    | startFlush | startBusy | startConsume => exact fun _ => hinCopy
    | _ => exact fun h => absurd h Bool.false_ne_true
  · rw [CopyWriter.holds, hinCopy, hstarting, hholds]
    rfl

/-- `send_data` in the COPY. -/
theorem answered_sendData {s' : Session} (sender : Sender) (data : List Byte) (hholds : s.writer.holds = true)
    (hinCopy : s'.writer.inCopy = true) (hstate : s'.state.copyInFlight = s.state.copyInFlight)
    (hvalid : s'.state.valid = s.state.valid) : Answered s (s'.sendData sender data) := by
  rw [sendData, checkValid]
  split
  · split
    · exact answered_returned rfl (hholds.trans hinCopy.symm) hstate hvalid
    · refine ⟨hinCopy, hvalid, .inl ⟨?_, hstate⟩⟩
      rw [hholds]
      exact Bool.or_eq_true_iff.mpr (.inl hinCopy)
  · exact answered_returned rfl (hholds.trans hinCopy.symm) hstate hvalid

/-- `check_valid`: what follows, or the exception. -/
theorem checkValid_cases {P : Session → Prop} {next : Session → Session} (hnext : s.state.valid = true → P (next s))
    (hclosed : P (s.throws closedText)) : P (s.checkValid next) := by
  rw [checkValid]
  split
  · exact hnext (by assumption)
  · exact hclosed

/-- A method that sends in the COPY, and throws outside: **it goes to `putCopyData`, or throws at once**. -/
theorem sends_cases (sender : Sender) (data : List Byte) (message : String) :
    (s.checkValid fun s => if s.writer.inCopy then s.sendData sender data else s.throws message) =
        s.goesTo (.putData sender data) ∨
      ∃ text, (s.checkValid fun s => if s.writer.inCopy then s.sendData sender data else s.throws message) =
        s.throws text := by
  cases hvalid : s.state.valid with
  | false =>
    refine .inr ⟨closedText, ?_⟩
    rw [checkValid, if_neg (by rw [hvalid]; exact Bool.false_ne_true)]
  | true =>
    rw [checkValid, if_pos hvalid]
    split
    · rw [sendData, checkValid, if_pos hvalid]
      split
      · exact .inr ⟨_, rfl⟩
      · exact .inl rfl
    · exact .inr ⟨_, rfl⟩

/-- `start` sends its command, or throws at once. -/
theorem start_cases (sent : Option String) :
    (s.start sent).writer = { s.writer with place := .startFlush } ∨
      ∃ text, (s.start sent).writer = { s.writer with place := .returned (.error text) } := by
  rw [start, checkValid]
  split
  · split
    · exact .inr ⟨_, rfl⟩
    · split
      · exact .inr ⟨_, rfl⟩
      · cases sent with
        | none => exact .inl rfl
        | some message => exact .inr ⟨message, rfl⟩
  · exact .inr ⟨_, rfl⟩

/-! ### Every answer -/

section Start

variable (hinCopy : s.writer.inCopy = false) (hstarting : s.writer.place.starting = true)
include hstarting

theorem holds_of_starting : s.writer.holds = true := by
  rw [CopyWriter.holds, hstarting]
  exact Bool.or_true _

include hinCopy

theorem answered_startFlush (a : Answer) : Answered s (s.startFlush a) := by
  have hholds := holds_of_starting hstarting
  unfold startFlush
  split
  · cases a with
    | flushed => exact answered_starting hinCopy hholds rfl rfl rfl
    | flushMore wait =>
      cases wait with
      | none => exact answered_starting hinCopy hholds hstarting rfl rfl
      | some message => exact answered_freed rfl hholds hinCopy rfl rfl
    | flushFailed message => exact answered_freed rfl hholds hinCopy rfl rfl
    | _ => exact answered_starting hinCopy hholds hstarting rfl rfl
  · exact answered_freed rfl hholds hinCopy rfl rfl

theorem answered_startBusy (a : Answer) : Answered s (s.startBusy a) := by
  have hholds := holds_of_starting hstarting
  unfold startBusy
  cases a with
  | busy =>
    simp only
    split
    · exact answered_starting hinCopy hholds rfl rfl rfl
    · exact answered_freed rfl hholds hinCopy rfl rfl
  | ready result =>
    cases result with
    | none => exact answered_freed rfl hholds hinCopy rfl rfl
    | some result =>
      simp only
      split
      · exact answered_sendData .start copyHeader hholds rfl rfl rfl
      · exact answered_freed rfl hholds hinCopy rfl rfl
  | _ => exact answered_starting hinCopy hholds hstarting rfl rfl

theorem answered_startConsume (a : Answer) : Answered s (s.startConsume a) := by
  have hholds := holds_of_starting hstarting
  unfold startConsume
  cases a with
  | waitFailed message => exact answered_freed rfl hholds hinCopy rfl rfl
  | consumed => exact answered_starting hinCopy hholds rfl rfl rfl
  | consumeFailed message => exact answered_freed rfl hholds hinCopy rfl rfl
  | _ => exact answered_starting hinCopy hholds hstarting rfl rfl

end Start

section InCopy

variable (hplaced : s.writer.Placed) (hinCopy : s.writer.inCopy = true)
include hinCopy

theorem holds_of_inCopy : s.writer.holds = true := by
  rw [CopyWriter.holds, hinCopy]
  rfl

/-- An exception that does not end the COPY. -/
theorem answered_throws (message : String) : Answered s (s.throws message) :=
  answered_returned rfl ((holds_of_inCopy hinCopy).trans hinCopy.symm) rfl rfl

/-- The end of the COPY, with an exception or without one. -/
theorem answered_release (result : Except String Unit) : Answered s (s.release.goesTo (.returned result)) :=
  answered_freed rfl (holds_of_inCopy hinCopy) rfl rfl rfl

/-- `check_valid` in front of a call. -/
theorem answered_checkValid {next : Session → Session} (hnext : Answered s (next s)) :
    Answered s (s.checkValid next) :=
  checkValid_cases (fun _ => hnext) (answered_throws hinCopy closedText)

/-- The loops of `abort`, which end where the connection is gone. -/
theorem answered_abortLoop {s' : Session} (h : Answered s s') :
    Answered s (if s.state.valid then s' else s.release.returns) := by
  split
  · exact h
  · exact answered_release hinCopy (.ok ())

include hplaced

theorem answered_putData (sender : Sender) (data : List Byte) (a : Answer) : Answered s (s.putData sender data a) := by
  refine answered_checkValid hinCopy (answered_touch ?_)
  cases a with
  | taken => exact answered_inCopy hinCopy hinCopy hinCopy rfl rfl
  | wouldBlock wait =>
    cases wait with
    | none => exact answered_refl (s := s.touch) hplaced
    | some message => exact answered_throws (s := s.touch) hinCopy message
  | putFailed message => exact answered_throws (s := s.touch) hinCopy message
  | _ => exact answered_refl (s := s.touch) hplaced

theorem answered_flushData (sender : Sender) (a : Answer) : Answered s (s.flushData sender a) := by
  refine answered_checkValid hinCopy (answered_touch ?_)
  cases a with
  | flushed =>
    cases sender with
    | start | writeRow => exact answered_returned rfl ((holds_of_inCopy hinCopy).trans hinCopy.symm) rfl rfl
    | finish => exact answered_inCopy hinCopy hinCopy hinCopy rfl rfl
  | flushMore wait =>
    cases wait with
    | none => exact answered_refl (s := s.touch) hplaced
    | some message => exact answered_throws (s := s.touch) hinCopy message
  | flushFailed message => exact answered_throws (s := s.touch) hinCopy message
  | _ => exact answered_refl (s := s.touch) hplaced

theorem answered_finishPutEnd (a : Answer) : Answered s (s.finishPutEnd a) := by
  refine answered_checkValid hinCopy (answered_touch ?_)
  cases a with
  | taken => exact answered_inCopy hinCopy hinCopy hinCopy rfl rfl
  | wouldBlock wait =>
    cases wait with
    | none => exact answered_refl (s := s.touch) hplaced
    | some message => exact answered_throws (s := s.touch) hinCopy message
  | putFailed message => exact answered_release (s := s.touch) hinCopy (.error message)
  | _ => exact answered_refl (s := s.touch) hplaced

theorem answered_finishFlush (a : Answer) : Answered s (s.finishFlush a) := by
  refine answered_checkValid hinCopy (answered_touch ?_)
  cases a with
  | flushed => exact answered_inCopy hinCopy hinCopy hinCopy rfl rfl
  | flushMore wait =>
    cases wait with
    | none => exact answered_refl (s := s.touch) hplaced
    | some message => exact answered_throws (s := s.touch) hinCopy message
  | flushFailed message => exact answered_release (s := s.touch) hinCopy (.error message)
  | _ => exact answered_refl (s := s.touch) hplaced

theorem answered_finishBusy (a : Answer) : Answered s (s.finishBusy a) := by
  have hholds := holds_of_inCopy hinCopy
  unfold finishBusy
  cases a with
  | busy =>
    simp only [checkValid]
    split
    · exact answered_inCopy hinCopy hinCopy hinCopy rfl rfl
    · exact answered_returned rfl (hholds.trans hinCopy.symm) rfl rfl
  | ready result =>
    cases result with
    | none => exact answered_freed rfl hholds rfl rfl rfl
    | some result =>
      simp only
      split <;> exact answered_freed rfl hholds rfl rfl rfl
  | _ => exact answered_inCopy hplaced hinCopy hinCopy rfl rfl

theorem answered_finishConsume (a : Answer) : Answered s (s.finishConsume a) := by
  unfold finishConsume
  cases a with
  | waitFailed message => exact answered_throws hinCopy message
  | consumed => exact answered_inCopy hinCopy hinCopy hinCopy rfl rfl
  | consumeFailed message =>
    exact answered_returned rfl ((holds_of_inCopy hinCopy).trans hinCopy.symm) rfl rfl
  | _ => exact answered_refl hplaced

theorem answered_abortPutEnd (a : Answer) : Answered s (s.abortPutEnd a) := by
  unfold abortPutEnd
  refine answered_abortLoop hinCopy (answered_touch ?_)
  cases a with
  | taken => exact answered_inCopy hinCopy hinCopy hinCopy rfl rfl
  | wouldBlock wait =>
    cases wait with
    | none => exact answered_refl (s := s.touch) hplaced
    | some message => exact answered_release (s := s.touch) hinCopy (.error message)
  | putFailed message => exact answered_inCopy hinCopy hinCopy hinCopy rfl rfl
  | _ => exact answered_refl (s := s.touch) hplaced

theorem answered_abortFlush (a : Answer) : Answered s (s.abortFlush a) := by
  unfold abortFlush
  refine answered_abortLoop hinCopy (answered_touch ?_)
  cases a with
  | flushed => exact answered_inCopy hinCopy hinCopy hinCopy rfl rfl
  | flushMore wait =>
    cases wait with
    | none => exact answered_refl (s := s.touch) hplaced
    | some message => exact answered_release (s := s.touch) hinCopy (.error message)
  | flushFailed message => exact answered_inCopy hinCopy hinCopy hinCopy rfl rfl
  | _ => exact answered_refl (s := s.touch) hplaced

theorem answered_abortBusy (a : Answer) : Answered s (s.abortBusy a) := by
  unfold abortBusy
  refine answered_abortLoop hinCopy (answered_touch ?_)
  cases a with
  | busy => exact answered_inCopy hinCopy hinCopy hinCopy rfl rfl
  | ready result => exact answered_release (s := s.touch) hinCopy (.ok ())
  | _ => exact answered_refl (s := s.touch) hplaced

theorem answered_abortConsume (a : Answer) : Answered s (s.abortConsume a) := by
  unfold abortConsume
  cases a with
  | waitFailed message => exact answered_release hinCopy (.error message)
  | consumed =>
    simp only
    split
    · exact answered_inCopy hinCopy hinCopy hinCopy rfl rfl
    · exact answered_release hinCopy (.ok ())
  | consumeFailed message =>
    simp only
    split
    · exact answered_touch (answered_release (s := s.touch) hinCopy (.ok ()))
    · exact answered_release hinCopy (.ok ())
  | _ => exact answered_refl hplaced

end InCopy

/-- **An answer keeps the flags as they are, or gives the connection back.** -/
theorem answered_answer (h : s.writer.Placed) (a : Answer) : Answered s (s.answer a) := by
  have hplaced := h
  rw [answer]
  rw [CopyWriter.Placed] at h
  cases hplace : s.writer.place with
  | returned result => exact answered_refl hplaced
  | startFlush => exact answered_startFlush (by rwa [hplace] at h) (by rw [hplace]; rfl) a
  | startBusy => exact answered_startBusy (by rwa [hplace] at h) (by rw [hplace]; rfl) a
  | startConsume => exact answered_startConsume (by rwa [hplace] at h) (by rw [hplace]; rfl) a
  | putData sender data => exact answered_putData hplaced (by rwa [hplace] at h) sender data a
  | flushData sender => exact answered_flushData hplaced (by rwa [hplace] at h) sender a
  | finishPutEnd => exact answered_finishPutEnd hplaced (by rwa [hplace] at h) a
  | finishFlush => exact answered_finishFlush hplaced (by rwa [hplace] at h) a
  | finishBusy => exact answered_finishBusy hplaced (by rwa [hplace] at h) a
  | finishConsume => exact answered_finishConsume hplaced (by rwa [hplace] at h) a
  | abortPutEnd => exact answered_abortPutEnd hplaced (by rwa [hplace] at h) a
  | abortFlush => exact answered_abortFlush hplaced (by rwa [hplace] at h) a
  | abortBusy => exact answered_abortBusy hplaced (by rwa [hplace] at h) a
  | abortConsume => exact answered_abortConsume hplaced (by rwa [hplace] at h) a

/-! ### Every call -/

/-- `start` takes the connection, which nobody has. -/
structure Taken (s s' : Session) : Prop where
  placed : s'.writer.Placed
  opened : s.state.valid = true
  valid : s'.state.valid = s.state.valid
  free : s.state.copyInFlight = false
  holds : s'.writer.holds = true
  held : s'.state.copyInFlight = true

section Calls

variable {result : Except String Unit} (hplace : s.writer.place = .returned result)
include hplace

theorem holds_of_returned : s.writer.holds = s.writer.inCopy := by
  rw [CopyWriter.holds, hplace]
  exact Bool.or_false _

/-- A call that throws at once. -/
theorem answered_throws_call (message : String) : Answered s (s.throws message) :=
  answered_returned rfl (holds_of_returned hplace) rfl rfl

theorem answered_start (sent : Option String) : Answered s (s.start sent) ∨ Taken s (s.start sent) := by
  have hthrows := answered_throws_call hplace
  refine checkValid_cases (P := fun s' => Answered s s' ∨ Taken s s') (fun hvalid => ?_) (.inl (hthrows closedText))
  cases hinCopy : s.writer.inCopy with
  | true => exact .inl (hthrows _)
  | false =>
    cases hflag : s.state.copyInFlight with
    | true => exact .inl (hthrows _)
    | false =>
      cases sent with
      | none => exact .inr ⟨hinCopy, hvalid, rfl, hflag, Bool.or_true _, rfl⟩
      | some message => exact .inl (answered_returned rfl (holds_of_returned hplace) hflag.symm rfl)

theorem answered_sendData_call (sender : Sender) (data : List Byte) (hinCopy : s.writer.inCopy = true) :
    Answered s (s.sendData sender data) :=
  answered_sendData sender data ((holds_of_returned hplace).trans hinCopy) hinCopy rfl rfl

/-- A method that sends in the COPY, and throws outside. -/
theorem answered_sends (sender : Sender) (data : List Byte) (message : String) :
    Answered s (s.checkValid fun s => if s.writer.inCopy then s.sendData sender data else s.throws message) := by
  refine checkValid_cases (fun _ => ?_) (answered_throws_call hplace closedText)
  split
  · exact answered_sendData_call hplace sender data (by assumption)
  · exact answered_throws_call hplace message

theorem answered_writeRow (data : List Byte) : Answered s (s.writeRow data) := answered_sends hplace .writeRow data _

theorem answered_finish : Answered s s.finish := answered_sends hplace .finish copyTrailer _

theorem answered_abort : Answered s s.abort := by
  rw [abort]
  split
  · rename_i hin
    have hinCopy := (Bool.and_eq_true_iff.mp hin).1
    exact answered_inCopy hinCopy hinCopy hinCopy rfl rfl
  · exact answered_returned rfl (holds_of_returned hplace) rfl rfl

end Calls

/-! ### What `abort` ends with -/

/-- The coroutine has ended, and the connection was given back. -/
structure Freed (s : Session) : Prop where
  returned : ∃ result, s.writer.place = .returned result
  inCopy : s.writer.inCopy = false
  copyInFlight : s.state.copyInFlight = false

theorem Freed.holds (h : Freed s) : s.writer.holds = false := by
  obtain ⟨result, hplace⟩ := h.returned
  rw [CopyWriter.holds, hplace, h.inCopy]
  rfl

/-- **`abort` gives the connection back wherever it ends**, also with an exception. -/
theorem aborted (haborting : s.writer.place.aborting = true) (a : Answer) :
    (s.answer a).writer.place.aborting = true ∨ Freed (s.answer a) := by
  unfold answer
  cases hplace : s.writer.place with
  | abortPutEnd =>
    simp only [abortPutEnd]
    split
    · cases a with
      | wouldBlock wait => cases wait with
        | none => exact .inl haborting
        | some message => exact .inr ⟨⟨_, rfl⟩, rfl, rfl⟩
      | taken | putFailed message => exact .inl rfl
      | _ => exact .inl haborting
    · exact .inr ⟨⟨_, rfl⟩, rfl, rfl⟩
  | abortFlush =>
    simp only [abortFlush]
    split
    · cases a with
      | flushMore wait => cases wait with
        | none => exact .inl haborting
        | some message => exact .inr ⟨⟨_, rfl⟩, rfl, rfl⟩
      | flushed | flushFailed message => exact .inl rfl
      | _ => exact .inl haborting
    · exact .inr ⟨⟨_, rfl⟩, rfl, rfl⟩
  | abortBusy =>
    simp only [abortBusy]
    split
    · cases a with
      | busy => exact .inl rfl
      | ready result => exact .inr ⟨⟨_, rfl⟩, rfl, rfl⟩
      | _ => exact .inl haborting
    · exact .inr ⟨⟨_, rfl⟩, rfl, rfl⟩
  | abortConsume =>
    simp only [abortConsume]
    cases a with
    | consumed =>
      simp only
      split
      · exact .inl rfl
      · exact .inr ⟨⟨_, rfl⟩, rfl, rfl⟩
    | waitFailed message => exact .inr ⟨⟨_, rfl⟩, rfl, rfl⟩
    | consumeFailed message =>
      simp only
      split <;> exact .inr ⟨⟨_, rfl⟩, rfl, rfl⟩
    | _ => exact .inl haborting
  | _ =>
    rw [hplace] at haborting
    exact absurd haborting Bool.false_ne_true

/-- What `abort` gives libpq: **no data, and no end but with a message**. -/
structure Unended (s s' : Session) : Prop where
  copyData : s'.writer.copyData = s.writer.copyData
  copyEnds : none ∈ s'.writer.copyEnds → none ∈ s.writer.copyEnds

theorem unended_of {s' : Session} (hdata : s'.writer.copyData = s.writer.copyData)
    (hends : s'.writer.copyEnds = s.writer.copyEnds) : Unended s s' := ⟨hdata, fun hnone => hends ▸ hnone⟩

theorem unended_putEnd (message : String) (place : Place) : Unended s ((s.touch.putEnd (some message)).goesTo place) := by
  refine ⟨rfl, fun hnone => ?_⟩
  rcases List.mem_append.mp hnone with h | h
  · exact h
  · exact absurd (List.mem_singleton.mp h) (Option.some_ne_none message).symm

theorem unended_answer (haborting : s.writer.place.aborting = true) (a : Answer) : Unended s (s.answer a) := by
  unfold answer
  cases hplace : s.writer.place with
  | abortPutEnd =>
    simp only [abortPutEnd]
    split
    · cases a with
      | wouldBlock wait => cases wait <;> exact unended_of rfl rfl
      | taken => exact unended_putEnd "aborted by client" .abortFlush
      | _ => exact unended_of rfl rfl
    · exact unended_of rfl rfl
  | abortFlush =>
    simp only [abortFlush]
    split
    · cases a with
      | flushMore wait => cases wait <;> exact unended_of rfl rfl
      | _ => exact unended_of rfl rfl
    · exact unended_of rfl rfl
  | abortBusy =>
    simp only [abortBusy]
    split
    · cases a <;> exact unended_of rfl rfl
    · exact unended_of rfl rfl
  | abortConsume =>
    simp only [abortConsume]
    cases a with
    | consumed | consumeFailed message =>
      simp only
      split <;> exact unended_of rfl rfl
    | _ => exact unended_of rfl rfl
  | _ =>
    rw [hplace] at haborting
    exact absurd haborting Bool.false_ne_true

/-! ### Calls for a closed connection -/

/-- What a step does not do: **call libpq for a closed connection**, or wait for a result on one. -/
structure Untouched (s s' : Session) : Prop where
  touched : s'.state.touched = s.state.touched
  waits : s.state.valid = false → s'.writer.place.waits = false

theorem touch_of_valid (h : s.state.valid = true) : s.touch = s := by
  rw [touch, h, Bool.not_true, Bool.or_false]

theorem untouched_open {s' : Session} (h : s.state.valid = true) (htouched : s'.state.touched = s.touch.state.touched) :
    Untouched s s' := by
  rw [touch_of_valid h] at htouched
  exact ⟨htouched, fun hclosed => absurd (h.symm.trans hclosed) (by simp)⟩

/-- `check_valid` throws on a closed connection. -/
theorem untouched_checkValid {next : Session → Session}
    (h : s.state.valid = true → (next s).state.touched = s.touch.state.touched) : Untouched s (s.checkValid next) := by
  rw [checkValid]
  split
  · rename_i hvalid
    exact untouched_open hvalid (h hvalid)
  · exact ⟨rfl, fun _ => rfl⟩

/-- The loops of `abort` look at the connection too. -/
theorem untouched_abortLoop {s' : Session} (h : s'.state.touched = s.touch.state.touched) :
    Untouched s (if s.state.valid then s' else s.release.returns) := by
  split
  · exact untouched_open (by assumption) h
  · exact ⟨rfl, fun _ => rfl⟩

theorem touched_sendData (sender : Sender) (data : List Byte) :
    (s.sendData sender data).state.touched = s.state.touched := by
  unfold sendData checkValid
  split
  · beta_reduce
    split <;> rfl
  · rfl

theorem untouched_start (sent : Option String) : Untouched s (s.start sent) := by
  refine untouched_checkValid fun hvalid => ?_
  have hnone : s.state.touched = s.touch.state.touched := by rw [touch_of_valid hvalid]
  cases s.writer.inCopy with
  | true => exact hnone
  | false =>
    cases s.state.copyInFlight with
    | true => exact hnone
    | false => cases sent <;> rfl

theorem untouched_sends (sender : Sender) (data : List Byte) (message : String) :
    Untouched s (s.checkValid fun s => if s.writer.inCopy then s.sendData sender data else s.throws message) := by
  refine untouched_checkValid fun hvalid => ?_
  rw [touch_of_valid hvalid]
  split
  · exact touched_sendData sender data
  · rfl

theorem untouched_abort : Untouched s s.abort := by
  rw [abort]
  split
  · rename_i h
    have hvalid := (Bool.and_eq_true_iff.mp h).2
    exact untouched_open hvalid (by rw [touch_of_valid hvalid]; rfl)
  · exact ⟨rfl, fun _ => rfl⟩

/-- **The destructor** looks at the connection before it ends a COPY. -/
theorem touched_destroy (taken : Bool) : (s.destroy taken).state.touched = s.state.touched := by
  rw [destroy]
  split
  · rename_i h
    rw [touch_of_valid (Bool.and_eq_true_iff.mp h).2]
    cases taken <;> rfl
  · rfl

/-! ### The places where the connection is looked at before libpq is called -/

theorem untouched_startFlush (a : Answer) : Untouched s (s.startFlush a) := by
  unfold startFlush
  split
  · refine untouched_open (by assumption) ?_
    cases a with
    | flushMore wait => cases wait <;> rfl
    | _ => rfl
  · exact ⟨rfl, fun _ => rfl⟩

theorem untouched_putData (sender : Sender) (data : List Byte) (a : Answer) : Untouched s (s.putData sender data a) := by
  refine untouched_checkValid fun _ => ?_
  cases a with
  | wouldBlock wait => cases wait <;> rfl
  | _ => rfl

theorem untouched_flushData (sender : Sender) (a : Answer) : Untouched s (s.flushData sender a) := by
  refine untouched_checkValid fun _ => ?_
  cases a with
  | flushed => cases sender <;> rfl
  | flushMore wait => cases wait <;> rfl
  | _ => rfl

theorem untouched_finishPutEnd (a : Answer) : Untouched s (s.finishPutEnd a) := by
  refine untouched_checkValid fun _ => ?_
  cases a with
  | wouldBlock wait => cases wait <;> rfl
  | _ => rfl

theorem untouched_finishFlush (a : Answer) : Untouched s (s.finishFlush a) := by
  refine untouched_checkValid fun _ => ?_
  cases a with
  | flushMore wait => cases wait <;> rfl
  | _ => rfl

theorem untouched_abortPutEnd (a : Answer) : Untouched s (s.abortPutEnd a) := by
  refine untouched_abortLoop ?_
  cases a with
  | wouldBlock wait => cases wait <;> rfl
  | _ => rfl

theorem untouched_abortFlush (a : Answer) : Untouched s (s.abortFlush a) := by
  refine untouched_abortLoop ?_
  cases a with
  | flushMore wait => cases wait <;> rfl
  | _ => rfl

theorem untouched_abortBusy (a : Answer) : Untouched s (s.abortBusy a) := by
  refine untouched_abortLoop ?_
  cases a <;> rfl

theorem untouched_abortConsume (hwaits : s.writer.place.waits = false) (a : Answer) :
    Untouched s (s.abortConsume a) := by
  unfold abortConsume
  cases a with
  | waitFailed message => exact ⟨rfl, fun _ => rfl⟩
  | consumed | consumeFailed message => exact untouched_abortLoop rfl
  | _ => exact ⟨rfl, fun _ => hwaits⟩

/-! ### The places where it is not -/

section Waits

variable (hvalid : s.state.valid = true)
include hvalid

theorem untouched_startBusy (a : Answer) : Untouched s (s.startBusy a) := by
  refine untouched_open hvalid ?_
  unfold startBusy
  cases a with
  | busy =>
    simp only
    split <;> rfl
  | ready result =>
    cases result with
    | none => rfl
    | some result =>
      simp only
      split
      · exact touched_sendData .start copyHeader
      · rfl
  | _ => rfl

theorem untouched_startConsume (a : Answer) : Untouched s (s.startConsume a) := by
  refine untouched_open hvalid ?_
  cases a with
  | consumed | consumeFailed message => rfl
  | _ =>
    rw [touch_of_valid hvalid]
    rfl

theorem untouched_finishBusy (a : Answer) : Untouched s (s.finishBusy a) := by
  refine untouched_open hvalid ?_
  unfold finishBusy checkValid
  cases a with
  | busy =>
    simp only
    split <;> rfl
  | ready result =>
    cases result with
    | none => rfl
    | some result =>
      simp only
      split <;> rfl
  | _ => rfl

theorem untouched_finishConsume (a : Answer) : Untouched s (s.finishConsume a) := by
  refine untouched_open hvalid ?_
  cases a with
  | consumed | consumeFailed message => rfl
  | _ =>
    rw [touch_of_valid hvalid]
    rfl

end Waits

/-- **An answer** leaves libpq alone on a closed connection, unless the coroutine waits for a result. -/
theorem untouched_answer (h : s.state.valid = true ∨ s.writer.place.waits = false) (a : Answer) :
    Untouched s (s.answer a) := by
  have hopen : s.writer.place.waits = true → s.state.valid = true := fun hw =>
    h.resolve_right (by rw [hw]; simp)
  unfold answer
  cases hplace : s.writer.place with
  | returned result => exact ⟨rfl, fun _ => by rw [hplace]; rfl⟩
  | startFlush => exact untouched_startFlush a
  | startBusy => exact untouched_startBusy (hopen (by rw [hplace]; rfl)) a
  | startConsume => exact untouched_startConsume (hopen (by rw [hplace]; rfl)) a
  | putData sender data => exact untouched_putData sender data a
  | flushData sender => exact untouched_flushData sender a
  | finishPutEnd => exact untouched_finishPutEnd a
  | finishFlush => exact untouched_finishFlush a
  | finishBusy => exact untouched_finishBusy (hopen (by rw [hplace]; rfl)) a
  | finishConsume => exact untouched_finishConsume (hopen (by rw [hplace]; rfl)) a
  | abortPutEnd => exact untouched_abortPutEnd a
  | abortFlush => exact untouched_abortFlush a
  | abortBusy => exact untouched_abortBusy a
  | abortConsume => exact untouched_abortConsume (by rw [hplace]; rfl) a

end Session

end DbnPipe.DbWriter
