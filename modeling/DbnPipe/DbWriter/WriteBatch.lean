import DbnPipe.DbWriter.CopyWriter
import DbnPipe.Library.Runs
import DbnPipe.Pg.CopyFormat

/-!
# A batch on its way to the table

`BatchWriter::write_batch`: the rows of the batches go through a COPY to a staging table, in pieces of a megabyte, and
from there to the target by one statement.

* `WriteBatch`, `Stage` — the locals of the coroutine, its writer, and **what it awaits**;
* `fill` — the loop over the records, up to the next piece;
* `Event`, `step` — what happens: a statement ends, libpq answers, others use the connection, or it is closed;
* `Inv` — what libpq took so far, and what is still in the buffer, is **the header and the rows encoded so far**;
* `written_whole` — the end of the COPY is only given behind all rows of all batches, and the statement that moves
  them only behind the server's consent.
-/

namespace DbnPipe.DbWriter

open DbnPipe.Pg (LogicalType NativeOrder Row encodeRow)

/-! ### The state -/

/-- The statements that are executed. -/
inductive Statement where
  | dropStaging | createStaging | insert | dropStaged
deriving DecidableEq

/-- Their texts. -/
def Statement.sql (target : List Char) : Statement → List Char
  | .dropStaging => dropStagingSql target
  | .createStaging => createStagingSql target
  | .insert => insertSql target
  | .dropStaged => dropStagedSql target

/-- What the coroutine awaits; an exception that is to be thrown again is kept. -/
inductive Stage where
  | dropOld | createStaging | starting | writing | flushing | finishing
  | aborting (ex : String)
  | cleaning (ex : String)
  | inserting
  | dropping (inserted : ℕ)
  | ended (result : Except String ℕ)

/-- `write_batch`: the target, the records that are not encoded yet, `buf` and `batch_rows`, the statements that it had
executed, and its writer with the connection. -/
structure WriteBatch (Record : Type*) where
  target : List Char
  records : List Record
  buf : List Byte := []
  batchRows : ℕ := 0
  executed : List Statement := []
  session : Session
  stage : Stage := .dropOld

/-- `kFlushThreshold`. -/
def kFlushThreshold : ℕ := 1024 * 1024

/-- Where the loop over the records is left. -/
inductive Filled (Record : Type*) where
  | threw (message : String) (batchRows : ℕ)
  | full (records : List Record) (buf : List Byte) (batchRows : ℕ)
  | all (buf : List Byte) (batchRows : ℕ)

section Coroutine

variable {Record : Type*} (native : NativeOrder) (types : List LogicalType) (transform : Record → Except String (Row types))

/-- The loop over the records, up to the next `write_row` or its end. -/
def fill : List Record → List Byte → ℕ → Filled Record
  | [], buf, batchRows => .all buf batchRows
  | record :: records, buf, batchRows =>
    match transform record with
    | .error message => .threw message batchRows
    | .ok row =>
      let buf := encodeRow native types row buf
      if kFlushThreshold ≤ buf.length then .full records buf (batchRows + 1) else fill records buf (batchRows + 1)

namespace WriteBatch

/-- A statement is sent. -/
def execute (statement : Statement) (stage : Stage) (b : WriteBatch Record) : WriteBatch Record :=
  { b with executed := b.executed ++ [statement], stage := stage }

/-- The coroutine ends, and with it the writer. -/
def ends (result : Except String ℕ) (b : WriteBatch Record) : WriteBatch Record :=
  { b with session := b.session.destroy true, stage := .ended result }

/-- Behind `abort`. -/
def clean (ex : String) (b : WriteBatch Record) : WriteBatch Record :=
  b.execute .dropStaging (.cleaning ex)

/-- The exception is kept, and the COPY aborted. -/
def abort (ex : String) (b : WriteBatch Record) : WriteBatch Record :=
  let b := { b with session := b.session.abort, stage := .aborting ex }
  if b.session.writer.place.ended then b.clean ex else b

/-- A method of the writer is awaited, which may throw at once; none returns at once. -/
def awaits (stage : Stage) (method : Session → Session) (b : WriteBatch Record) : WriteBatch Record :=
  let b := { b with session := method b.session, stage := stage }
  match b.session.writer.place with
  | .returned (.error message) => b.abort message
  | _ => b

/-- Behind a piece: the loop goes on. -/
def goOn (b : WriteBatch Record) : WriteBatch Record :=
  match fill native types transform b.records b.buf b.batchRows with
  | .threw message batchRows => { b with batchRows := batchRows }.abort message
  | .full records buf batchRows =>
    { b with records := records, buf := buf, batchRows := batchRows }.awaits .writing (Session.writeRow buf)
  | .all buf batchRows =>
    let b := { b with records := [], buf := buf, batchRows := batchRows }
    if 0 < buf.length then b.awaits .flushing (Session.writeRow buf) else b.awaits .finishing Session.finish

/-- A method of the writer has returned. -/
def returned (b : WriteBatch Record) : WriteBatch Record :=
  match b.stage with
  | .starting => b.goOn native types transform
  | .writing => { b with buf := [] }.goOn native types transform
  | .flushing => b.awaits .finishing Session.finish
  | .finishing => b.execute .insert .inserting
  | .aborting ex => b.clean ex
  | _ => b

/-- A method of the writer has thrown. -/
def threw (message : String) (b : WriteBatch Record) : WriteBatch Record :=
  match b.stage with
  | .aborting ex => b.clean ex
  | _ => b.abort message

/-- The coroutine goes on where the method of the writer has ended. -/
def resumes (b : WriteBatch Record) : WriteBatch Record :=
  match b.session.writer.place with
  | .returned (.ok ()) => b.returned native types transform
  | .returned (.error message) => b.threw message
  | _ => b

/-- libpq answers to the coroutine of the writer, which may end. -/
def answer (a : Answer) (b : WriteBatch Record) : WriteBatch Record :=
  if b.session.writer.place.ended then b else { b with session := b.session.answer a }.resumes native types transform

/-- A statement has ended, with the number of rows that `execute_count` reports.  Behind `CREATE`, `begin_copy` may throw,
and `sendQuery` may fail. -/
def executedSql (result : Except String ℕ) (begun sent : Option String) (b : WriteBatch Record) : WriteBatch Record :=
  match b.stage, result with
  | .dropOld, .ok _ => b.execute .createStaging .createStaging
  | .createStaging, .ok _ =>
    match begun with
    | some message => b.ends (.error message)
    | none => b.awaits .starting (Session.start sent)
  | .cleaning ex, _ => b.ends (.error ex)
  | .inserting, .ok inserted => b.execute .dropStaged (.dropping inserted)
  | .dropping inserted, .ok _ => b.ends (.ok inserted)
  | .dropOld, .error message | .createStaging, .error message | .inserting, .error message
  | .dropping _, .error message => b.ends (.error message)
  | _, _ => b

/-- Others begin or end a COPY on the connection, which they cannot while this writer has it. -/
def others (copyInFlight : Bool) (b : WriteBatch Record) : WriteBatch Record :=
  if b.session.writer.holds then b
  else { b with session := { b.session with state := { b.session.state with copyInFlight := copyInFlight } } }

/-- The database is destroyed. -/
def closed (b : WriteBatch Record) : WriteBatch Record :=
  { b with session := { b.session with state := { b.session.state with valid := false } } }

/-- What happens. -/
inductive Event where
  | executed (result : Except String ℕ) (begun sent : Option String)
  | answer (a : Answer)
  | others (copyInFlight : Bool)
  | closed

/-- One event. -/
def step (b : WriteBatch Record) : Event → WriteBatch Record
  | .executed result begun sent => b.executedSql result begun sent
  | .answer a => b.answer native types transform a
  | .others copyInFlight => b.others copyInFlight
  | .closed => b.closed

/-- `write_batch` is called: the first statement is sent. -/
def init (target : List Char) (columns : List (List Char)) (batches : List (List Record)) (state : ConnectionState) :
    WriteBatch Record where
  target := target
  records := batches.flatten
  executed := [.dropStaging]
  session := ⟨{ table := stagingName target, columns := columns }, state⟩

end WriteBatch

/-! ### The bytes -/

/-- The header, and rows behind it. -/
def encoded (rows : List (Row types)) : List Byte := copyHeader ++ rows.flatMap fun row => encodeRow native types row []

theorem encoded_append (rows more : List (Row types)) :
    encoded native types (rows ++ more) =
      encoded native types rows ++ more.flatMap fun row => encodeRow native types row [] := by
  rw [encoded, encoded, List.flatMap_append, List.append_assoc]

theorem mapM_append_ok {done more : List Record} {rows rows' : List (Row types)}
    (h : done.mapM transform = .ok rows) (h' : more.mapM transform = .ok rows') :
    (done ++ more).mapM transform = .ok (rows ++ rows') := by
  rw [List.mapM_append, h, h']
  rfl

/-- Where the loop is left, the records before are in the buffer. -/
def Filled.Covers (records : List Record) (buf : List Byte) (batchRows : ℕ) : Filled Record → Prop
  | .threw _ _ => True
  | .full records' buf' batchRows' => ∃ done rows, records = done ++ records' ∧ done.mapM transform = .ok rows ∧
      batchRows' = batchRows + rows.length ∧ buf' = buf ++ rows.flatMap fun row => encodeRow native types row []
  | .all buf' batchRows' => ∃ rows, records.mapM transform = .ok rows ∧ batchRows' = batchRows + rows.length ∧
      buf' = buf ++ rows.flatMap fun row => encodeRow native types row []

/-- **The loop encodes the records**, one after the other, up to where it is left. -/
theorem fill_covers (records : List Record) (buf : List Byte) (batchRows : ℕ) :
    (fill native types transform records buf batchRows).Covers native types transform records buf batchRows := by
  induction records generalizing buf batchRows with
  | nil => exact ⟨[], rfl, rfl, (List.append_nil buf).symm⟩
  | cons record records ih =>
    rw [fill]
    cases hrow : transform record with
    | error message => trivial
    | ok row =>
      have hone : [record].mapM transform = .ok [row] := by
        rw [List.mapM_cons, hrow]
        rfl
      have hbuf : encodeRow native types row buf = buf ++ encodeRow native types row [] := by
        rw [Pg.encodeRow_eq, Pg.encodeRow_eq native types row [], List.nil_append]
      have hcons : ∀ rows : List (Row types), encodeRow native types row buf ++
          (rows.flatMap fun row => encodeRow native types row []) =
            buf ++ (row :: rows).flatMap fun row => encodeRow native types row [] := fun rows => by
        rw [hbuf, List.flatMap_cons, List.append_assoc]
      simp only
      by_cases hfull : kFlushThreshold ≤ (encodeRow native types row buf).length
      · rw [if_pos hfull]
        exact ⟨[record], [row], rfl, hone, rfl, by rw [← hcons, List.flatMap_nil, List.append_nil]⟩
      · rw [if_neg hfull]
        have hrest := ih (encodeRow native types row buf) (batchRows + 1)
        cases hfill : fill native types transform records (encodeRow native types row buf) (batchRows + 1) with
        | threw message n => trivial
        | full records' buf' n =>
          rw [hfill] at hrest
          obtain ⟨done, rows, hrecords, hdone, hn, hbuf'⟩ := hrest
          refine ⟨record :: done, row :: rows, by rw [hrecords]; rfl, mapM_append_ok types transform hone hdone, ?_, ?_⟩
          · rw [hn, List.length_cons]
            omega
          · rw [hbuf', hcons]
        | all buf' n =>
          rw [hfill] at hrest
          obtain ⟨rows, hdone, hn, hbuf'⟩ := hrest
          refine ⟨row :: rows, mapM_append_ok types transform hone hdone, ?_, ?_⟩
          · rw [hn, List.length_cons]
            omega
          · rw [hbuf', hcons]

/-! ### The invariant -/

namespace WriteBatch

variable (all : List Record)

/-- The bytes are the header and the rows of the records that were encoded. -/
def Upto (b : WriteBatch Record) (out : List Byte) : Prop :=
  ∃ done rows, all = done ++ b.records ∧ done.mapM transform = .ok rows ∧ b.batchRows = rows.length ∧
    out = encoded native types rows

/-- **libpq took everything**: the header, the rows of all records and the trailer. -/
def Whole (b : WriteBatch Record) : Prop :=
  ∃ rows, all.mapM transform = .ok rows ∧ b.batchRows = rows.length ∧
    b.session.writer.copyData = encoded native types rows ++ copyTrailer

/-- The end of the COPY was not given before. -/
def Safe (b : WriteBatch Record) : Prop := none ∈ b.session.writer.copyEnds → Whole native types transform all b

/-- The connection was given back, if it is there. -/
def Freed (b : WriteBatch Record) : Prop := b.session.state.valid = true → b.session.writer.inCopy = false

/-- The COPY was ended once, the server agreed, and the writer is out of it. -/
structure Done (b : WriteBatch Record) : Prop where
  whole : Whole native types transform all b
  copyEnds : b.session.writer.copyEnds = [none]
  results : b.session.writer.results = [.copyIn, .commandOk]
  inCopy : b.session.writer.inCopy = false

/-- What libpq took and answered. -/
def ledger (b : WriteBatch Record) : List Byte × List (Option String) × List ExecStatus :=
  (b.session.writer.copyData, b.session.writer.copyEnds, b.session.writer.results)

/-- Before the COPY. -/
structure New (b : WriteBatch Record) : Prop where
  records : b.records = all
  buf : b.buf = []
  batchRows : b.batchRows = 0
  ledger : b.ledger = ([], [], [])
  inCopy : b.session.writer.inCopy = false
  ended : b.session.writer.place.ended = true

/-- In `start`. -/
def AtStart (b : WriteBatch Record) : Prop :=
  match b.session.writer.place with
  | .startFlush | .startBusy | .startConsume => b.ledger = ([], [], [])
  | .putData .start data => data = copyHeader ∧ b.ledger = ([], [], [.copyIn])
  | .flushData .start => b.ledger = (copyHeader, [], [.copyIn])
  | _ => False

/-- In `write_row`. -/
def AtPiece (b : WriteBatch Record) : Prop :=
  b.session.writer.copyEnds = [] ∧ b.session.writer.results = [.copyIn] ∧
    match b.session.writer.place with
    | .putData .writeRow data => Upto native types transform all b (b.session.writer.copyData ++ data)
    | .flushData .writeRow => Upto native types transform all b b.session.writer.copyData
    | _ => False

/-- In `finish`. -/
def AtEnd (b : WriteBatch Record) : Prop :=
  b.session.writer.results = [.copyIn] ∧
    match b.session.writer.place with
    | .putData .finish data => data = copyTrailer ∧ b.session.writer.copyEnds = [] ∧
        Upto native types transform all b b.session.writer.copyData
    | .flushData .finish | .finishPutEnd => b.session.writer.copyEnds = [] ∧ Whole native types transform all b
    | .finishFlush | .finishBusy | .finishConsume =>
      b.session.writer.copyEnds = [none] ∧ Whole native types transform all b
    | _ => False

/-- The statements before the COPY. -/
def begun : List Statement := [.dropStaging, .createStaging]

/-- **What holds at each stage.** -/
def Inv (b : WriteBatch Record) : Prop :=
  match b.stage with
  | .dropOld => New all b ∧ b.executed = [.dropStaging]
  | .createStaging => New all b ∧ b.executed = begun
  | .starting => b.executed = begun ∧ b.records = all ∧ b.buf = [] ∧ b.batchRows = 0 ∧ AtStart b
  | .writing => b.executed = begun ∧ AtPiece native types transform all b
  | .flushing => b.executed = begun ∧ b.records = [] ∧ AtPiece native types transform all b
  | .finishing => b.executed = begun ∧ b.records = [] ∧ AtEnd native types transform all b
  | .aborting _ => b.executed = begun ∧ b.session.writer.place.aborting = true ∧ Safe native types transform all b
  | .cleaning _ => b.executed = begun ++ [.dropStaging] ∧ b.session.writer.place.ended = true ∧
      Safe native types transform all b ∧ Freed b
  | .inserting => b.executed = begun ++ [.insert] ∧ b.session.writer.place.ended = true ∧
      Done native types transform all b
  | .dropping _ => b.executed = begun ++ [.insert, .dropStaged] ∧ b.session.writer.place.ended = true ∧
      Done native types transform all b
  | .ended result => b.session.writer.place.ended = true ∧ Safe native types transform all b ∧ Freed b ∧
      (Statement.insert ∈ b.executed → Done native types transform all b) ∧
      (result.toOption.isSome = true → b.executed = begun ++ [.insert, .dropStaged])

variable {native types transform all} {b : WriteBatch Record}

/-- **The COPY is aborted** behind an exception. -/
theorem inv_abort (hexecuted : b.executed = begun) (hsafe : Safe native types transform all b) (ex : String) :
    Inv native types transform all (b.abort ex) := by
  rw [abort, Session.abort]
  cases hin : b.session.writer.inCopy && b.session.state.valid with
  | true => exact ⟨hexecuted, rfl, hsafe⟩
  | false =>
    refine ⟨congrArg (· ++ [Statement.dropStaging]) hexecuted, rfl, hsafe, fun hvalid => ?_⟩
    have hvalid' : b.session.state.valid = true := hvalid
    rw [hvalid', Bool.and_true] at hin
    exact hin

/-- **A method that sends** is awaited, or throws at once. -/
theorem inv_awaits {stage : Stage} {sender : Sender} {data : List Byte} {message : String}
    (hgo : Inv native types transform all
      { b with session := b.session.goesTo (.putData sender data), stage := stage })
    (hexecuted : b.executed = begun) (hsafe : Safe native types transform all b) :
    Inv native types transform all (b.awaits stage fun s =>
      s.checkValid fun s => if s.writer.inCopy then s.sendData sender data else s.throws message) := by
  have hthrow : ∀ text, Inv native types transform all (b.awaits stage fun s => s.throws text) := fun text =>
    inv_abort (b := { b with session := b.session.throws text, stage := stage }) hexecuted hsafe text
  rcases Session.sends_cases (s := b.session) sender data message with hgoes | ⟨text, hthrows⟩
  · rw [awaits]
    simp only [hgoes]
    exact hgo
  · rw [awaits]
    simp only [hthrows]
    exact hthrow text

/-- Where no end was given. -/
theorem safe_of_nil (h : b.session.writer.copyEnds = []) : Safe native types transform all b := fun hnone => by
  rw [h] at hnone
  exact absurd hnone List.not_mem_nil

/-- **`finish`** behind the last row. -/
theorem inv_finish (hexecuted : b.executed = begun) (hrecords : b.records = [])
    (hends : b.session.writer.copyEnds = []) (hresults : b.session.writer.results = [.copyIn])
    (hupto : Upto native types transform all b b.session.writer.copyData) :
    Inv native types transform all (b.awaits .finishing Session.finish) :=
  inv_awaits ⟨hexecuted, hrecords, hresults, rfl, hends, hupto⟩ hexecuted (safe_of_nil hends)

/-- **The loop goes on** with an empty buffer. -/
theorem inv_goOn (hexecuted : b.executed = begun) (hbuf : b.buf = []) (hends : b.session.writer.copyEnds = [])
    (hresults : b.session.writer.results = [.copyIn])
    (hupto : Upto native types transform all b b.session.writer.copyData) :
    Inv native types transform all (b.goOn native types transform) := by
  obtain ⟨done, rows, hall, hdone, hn, hout⟩ := hupto
  have hfill := fill_covers native types transform b.records b.buf b.batchRows
  rw [goOn]
  cases hleft : fill native types transform b.records b.buf b.batchRows with
  | threw message n => exact inv_abort (b := { b with batchRows := n }) hexecuted (safe_of_nil hends) message
  | full records buf n =>
    rw [hleft] at hfill
    obtain ⟨more, rows', hrecords, hmore, hn', hbuf'⟩ := hfill
    refine inv_awaits ⟨hexecuted, hends, hresults, done ++ more, rows ++ rows', ?_,
      mapM_append_ok types transform hdone hmore, ?_, ?_⟩ hexecuted (safe_of_nil hends)
    · rw [hall, hrecords, List.append_assoc]
    · exact hn'.trans (by rw [hn, List.length_append])
    · show b.session.writer.copyData ++ buf = _
      rw [hout, hbuf', hbuf, List.nil_append, encoded_append]
  | all buf n =>
    rw [hleft] at hfill
    obtain ⟨rows', hmore, hn', hbuf'⟩ := hfill
    have hwhole : all.mapM transform = .ok (rows ++ rows') := by
      rw [hall]
      exact mapM_append_ok types transform hdone hmore
    have hcount : n = (rows ++ rows').length := by rw [hn', hn, List.length_append]
    have hbytes : b.session.writer.copyData ++ buf = encoded native types (rows ++ rows') := by
      rw [hout, hbuf', hbuf, List.nil_append, encoded_append]
    simp only
    split
    · exact inv_awaits ⟨hexecuted, rfl, hends, hresults, all, rows ++ rows', (List.append_nil all).symm, hwhole, hcount,
        hbytes⟩ hexecuted (safe_of_nil hends)
    · rename_i hempty
      have hnil : buf = [] := List.eq_nil_of_length_eq_zero (by omega)
      rw [hnil, List.append_nil] at hbytes
      exact inv_finish hexecuted rfl hends hresults ⟨all, rows ++ rows', (List.append_nil all).symm, hwhole, hcount, hbytes⟩

/-! ### Every answer -/

/-- **An exception of the writer**, where the coroutine is not in `abort`. -/
theorem inv_threw {s : Session} {message : String} (hplace : s.writer.place = .returned (.error message))
    (hexecuted : b.executed = begun) (hstage : ∀ ex, b.stage ≠ .aborting ex)
    (hsafe : Safe native types transform all { b with session := s }) :
    Inv native types transform all ({ b with session := s }.resumes native types transform) := by
  rw [resumes, hplace]
  simp only
  rw [threw]
  split
  · rename_i ex hex
    exact absurd hex (hstage ex)
  · exact inv_abort (b := { b with session := s }) hexecuted hsafe message

/-- Where no coroutine of the writer has ended, nothing resumes. -/
theorem resumes_goes (hplace : b.session.writer.place.ended = false) : b.resumes native types transform = b := by
  rw [resumes]
  cases hp : b.session.writer.place with
  | returned result =>
    rw [hp] at hplace
    exact absurd hplace Bool.noConfusion
  | _ => rfl

/-! #### In `start` -/

section Starting

variable (hstage : b.stage = .starting) (hexecuted : b.executed = begun)
include hstage hexecuted

/-- `start` throws. -/
theorem starting_threw {s : Session} {message : String} (hplace : s.writer.place = .returned (.error message))
    (hends : s.writer.copyEnds = []) :
    Inv native types transform all ({ b with session := s }.resumes native types transform) :=
  inv_threw hplace hexecuted (fun _ h => Stage.noConfusion (hstage.symm.trans h)) (safe_of_nil hends)

variable (hrecords : b.records = all) (hbuf : b.buf = []) (hn : b.batchRows = 0)
include hrecords hbuf hn

/-- `start` goes on. -/
theorem starting_goes {s : Session} (hplace : s.writer.place.ended = false) (h : AtStart { b with session := s }) :
    Inv native types transform all ({ b with session := s }.resumes native types transform) := by
  rw [resumes_goes hplace, Inv, hstage]
  exact ⟨hexecuted, hrecords, hbuf, hn, h⟩

/-- The header is out: the rows follow. -/
theorem starting_returned {s : Session} (hplace : s.writer.place = .returned (.ok ()))
    (h : (s.writer.copyData, s.writer.copyEnds, s.writer.results) = (copyHeader, [], [.copyIn])) :
    Inv native types transform all ({ b with session := s }.resumes native types transform) := by
  obtain ⟨hdata, hends, hresults⟩ : s.writer.copyData = copyHeader ∧ s.writer.copyEnds = [] ∧
      s.writer.results = [.copyIn] := by simpa using h
  rw [resumes, hplace]
  simp only
  rw [returned, hstage]
  refine inv_goOn hexecuted hbuf hends hresults ⟨[], [], hrecords.symm, rfl, hn, ?_⟩
  exact hdata.trans (List.append_nil copyHeader).symm

variable (h : AtStart b)
include h

/-- The command is flushed. -/
theorem inv_startFlush (hplace : b.session.writer.place = .startFlush) (a : Answer) :
    Inv native types transform all ({ b with session := b.session.startFlush a }.resumes native types transform) := by
  have hat := h
  rw [AtStart, hplace] at h
  have hends : b.session.writer.copyEnds = [] := congrArg (·.2.1) h
  have hstays : Inv native types transform all
      ({ b with session := b.session.touch }.resumes native types transform) :=
    starting_goes hstage hexecuted hrecords hbuf hn (congrArg Place.ended hplace) hat
  unfold Session.startFlush
  split
  · cases a with
    | flushed => exact starting_goes hstage hexecuted hrecords hbuf hn rfl h
    | flushMore wait => cases wait with
      | none => exact hstays
      | some message => exact starting_threw hstage hexecuted rfl hends
    | flushFailed message => exact starting_threw hstage hexecuted rfl hends
    | _ => exact hstays
  · exact starting_threw hstage hexecuted rfl hends

/-- The result of the command. -/
theorem inv_startBusy (hplace : b.session.writer.place = .startBusy) (a : Answer) :
    Inv native types transform all ({ b with session := b.session.startBusy a }.resumes native types transform) := by
  have hat := h
  rw [AtStart, hplace] at h
  have hends : b.session.writer.copyEnds = [] := congrArg (·.2.1) h
  have hstays : Inv native types transform all
      ({ b with session := b.session.touch }.resumes native types transform) :=
    starting_goes hstage hexecuted hrecords hbuf hn (congrArg Place.ended hplace) hat
  unfold Session.startBusy
  cases a with
  | busy =>
    simp only
    split
    · exact starting_goes hstage hexecuted hrecords hbuf hn rfl h
    · exact starting_threw hstage hexecuted rfl hends
  | ready result =>
    cases result with
    | none => exact starting_threw hstage hexecuted rfl hends
    | some result =>
      simp only
      split
      · rename_i hstatus
        have hread : (b.session.writer.copyData, b.session.writer.copyEnds,
            b.session.writer.results ++ [result.status]) = ([], [], [.copyIn]) := by
          simpa [ledger, hstatus] using h
        rw [Session.sendData, Session.checkValid]
        split
        · exact starting_goes hstage hexecuted hrecords hbuf hn rfl ⟨rfl, hread⟩
        · exact starting_threw hstage hexecuted rfl hends
      · exact starting_threw hstage hexecuted rfl hends
  | _ => exact hstays

theorem inv_startConsume (hplace : b.session.writer.place = .startConsume) (a : Answer) :
    Inv native types transform all ({ b with session := b.session.startConsume a }.resumes native types transform) := by
  have hat := h
  rw [AtStart, hplace] at h
  have hends : b.session.writer.copyEnds = [] := congrArg (·.2.1) h
  unfold Session.startConsume
  cases a with
  | waitFailed message | consumeFailed message => exact starting_threw hstage hexecuted rfl hends
  | consumed => exact starting_goes hstage hexecuted hrecords hbuf hn rfl h
  | _ => exact starting_goes hstage hexecuted hrecords hbuf hn (congrArg Place.ended hplace) hat

/-- The header. -/
theorem inv_start_putData {bytes : List Byte} (hplace : b.session.writer.place = .putData .start bytes) (a : Answer) :
    Inv native types transform all
      ({ b with session := b.session.putData .start bytes a }.resumes native types transform) := by
  have hat := h
  rw [AtStart, hplace] at h
  obtain ⟨hbytes, hledger⟩ := h
  obtain ⟨hdata, hends, hresults⟩ : b.session.writer.copyData = [] ∧ b.session.writer.copyEnds = [] ∧
      b.session.writer.results = [.copyIn] := by simpa [ledger] using hledger
  have hstays : Inv native types transform all
      ({ b with session := b.session.touch }.resumes native types transform) :=
    starting_goes hstage hexecuted hrecords hbuf hn (congrArg Place.ended hplace) hat
  unfold Session.putData Session.checkValid
  split
  · cases a with
    | taken =>
      have htaken : (b.session.writer.copyData ++ bytes, b.session.writer.copyEnds, b.session.writer.results) =
          (copyHeader, [], [.copyIn]) := by
        rw [hdata, hbytes, hends, hresults, List.nil_append]
      exact starting_goes hstage hexecuted hrecords hbuf hn rfl htaken
    | wouldBlock wait => cases wait with
      | none => exact hstays
      | some message => exact starting_threw hstage hexecuted rfl hends
    | putFailed message => exact starting_threw hstage hexecuted rfl hends
    | _ => exact hstays
  · exact starting_threw hstage hexecuted rfl hends

/-- The header is flushed. -/
theorem inv_start_flushData (hplace : b.session.writer.place = .flushData .start) (a : Answer) :
    Inv native types transform all
      ({ b with session := b.session.flushData .start a }.resumes native types transform) := by
  have hat := h
  rw [AtStart, hplace] at h
  have hends : b.session.writer.copyEnds = [] := congrArg (·.2.1) h
  have hstays : Inv native types transform all
      ({ b with session := b.session.touch }.resumes native types transform) :=
    starting_goes hstage hexecuted hrecords hbuf hn (congrArg Place.ended hplace) hat
  unfold Session.flushData Session.checkValid
  split
  · cases a with
    | flushed => exact starting_returned hstage hexecuted hrecords hbuf hn rfl h
    | flushMore wait => cases wait with
      | none => exact hstays
      | some message => exact starting_threw hstage hexecuted rfl hends
    | flushFailed message => exact starting_threw hstage hexecuted rfl hends
    | _ => exact hstays
  · exact starting_threw hstage hexecuted rfl hends

/-- An answer in `start`. -/
theorem inv_answer_starting (a : Answer) :
    Inv native types transform all ({ b with session := b.session.answer a }.resumes native types transform) := by
  have hat := h
  rw [AtStart] at hat
  unfold Session.answer
  cases hplace : b.session.writer.place with
  | startFlush => exact inv_startFlush hstage hexecuted hrecords hbuf hn h hplace a
  | startBusy => exact inv_startBusy hstage hexecuted hrecords hbuf hn h hplace a
  | startConsume => exact inv_startConsume hstage hexecuted hrecords hbuf hn h hplace a
  | putData sender bytes =>
    cases sender with
    | start => exact inv_start_putData hstage hexecuted hrecords hbuf hn h hplace a
    | _ =>
      rw [hplace] at hat
      exact hat.elim
  | flushData sender =>
    cases sender with
    | start => exact inv_start_flushData hstage hexecuted hrecords hbuf hn h hplace a
    | _ =>
      rw [hplace] at hat
      exact hat.elim
  | _ =>
    rw [hplace] at hat
    exact hat.elim

end Starting

/-- An answer in `write_row`, whatever comes behind the piece. -/
theorem inv_answer_piece (hexecuted : b.executed = begun) (hstage : b.stage = .writing ∨ b.stage = .flushing)
    (hrecords : b.stage = .flushing → b.records = []) (h : AtPiece native types transform all b) (a : Answer) :
    Inv native types transform all ({ b with session := b.session.answer a }.resumes native types transform) := by
  obtain ⟨target, records, buf, n, executed, ⟨⟨table, columns, inCopy, place, data, ends, results⟩, state⟩, stage⟩ := b
  obtain ⟨hends, hresults, hplace⟩ := h
  obtain rfl : ends = [] := hends
  obtain rfl : results = [.copyIn] := hresults
  have hthrew : ∀ {s : Session} {message : String}, s.writer.place = .returned (.error message) →
      s.writer.copyEnds = [] → Inv native types transform all
        ((⟨target, records, buf, n, executed, s, stage⟩ : WriteBatch Record).resumes native types transform) :=
    fun hplace hends => inv_threw (b := ⟨target, records, buf, n, executed, _, stage⟩) hplace hexecuted
      (fun ex hex => by rcases hstage with hs | hs <;> exact Stage.noConfusion (hs.symm.trans hex)) (safe_of_nil hends)
  have hgoes : ∀ s : Session, AtPiece native types transform all
      (⟨target, records, buf, n, executed, s, stage⟩ : WriteBatch Record) →
      Inv native types transform all ⟨target, records, buf, n, executed, s, stage⟩ := by
    intro s hat
    rcases hstage with hs | hs
    · obtain rfl : stage = .writing := hs
      exact ⟨hexecuted, hat⟩
    · obtain rfl : stage = .flushing := hs
      exact ⟨hexecuted, hrecords rfl, hat⟩
  cases place with
  | putData sender bytes =>
    cases sender with
    | writeRow =>
      simp only [Session.answer, Session.putData, Session.checkValid]
      split
      · cases a with
        | taken => exact hgoes _ ⟨rfl, rfl, hplace⟩
        | wouldBlock wait => cases wait with
          | none => exact hgoes _ ⟨rfl, rfl, hplace⟩
          | some message => exact hthrew rfl rfl
        | putFailed message => exact hthrew rfl rfl
        | _ => exact hgoes _ ⟨rfl, rfl, hplace⟩
      · exact hthrew rfl rfl
    | _ => exact hplace.elim
  | flushData sender =>
    cases sender with
    | writeRow =>
      have hstays := hgoes (Session.touch ⟨⟨table, columns, inCopy, .flushData .writeRow, data, [], [.copyIn]⟩, state⟩)
        ⟨rfl, rfl, hplace⟩
      simp only [Session.answer, Session.flushData, Session.checkValid]
      split
      · cases a with
        | flushed =>
          rcases hstage with hs | hs
          · obtain rfl : stage = .writing := hs
            exact inv_goOn (b := ⟨target, records, [], n, executed, _, .writing⟩) hexecuted rfl rfl rfl hplace
          · obtain rfl : stage = .flushing := hs
            exact inv_finish (b := ⟨target, records, buf, n, executed, _, .flushing⟩) hexecuted (hrecords rfl) rfl rfl
              hplace
        | flushMore wait => cases wait with
          | none => exact hstays
          | some message => exact hthrew rfl rfl
        | flushFailed message => exact hthrew rfl rfl
        | _ => exact hstays
      · exact hthrew rfl rfl
    | _ => exact hplace.elim
  | _ => exact hplace.elim

/-! #### In `finish` -/

section Finishing

variable (hstage : b.stage = .finishing) (hexecuted : b.executed = begun)
include hstage hexecuted

/-- `finish` throws. -/
theorem finishing_threw {s : Session} {message : String} (hplace : s.writer.place = .returned (.error message))
    (hsafe : Safe native types transform all { b with session := s }) :
    Inv native types transform all ({ b with session := s }.resumes native types transform) :=
  inv_threw hplace hexecuted (fun _ h => Stage.noConfusion (hstage.symm.trans h)) hsafe

/-- The server agreed: the rows are inserted. -/
theorem finishing_returned {s : Session} (hplace : s.writer.place = .returned (.ok ()))
    (hdone : Done native types transform all { b with session := s }) :
    Inv native types transform all ({ b with session := s }.resumes native types transform) := by
  rw [resumes, hplace]
  simp only
  rw [returned, hstage]
  simp only
  exact ⟨congrArg (· ++ [Statement.insert]) hexecuted, congrArg Place.ended hplace, hdone.whole, hdone.copyEnds,
    hdone.results, hdone.inCopy⟩

variable (hrecords : b.records = [])
include hrecords

/-- `finish` goes on. -/
theorem finishing_goes {s : Session} (hplace : s.writer.place.ended = false)
    (h : AtEnd native types transform all { b with session := s }) :
    Inv native types transform all ({ b with session := s }.resumes native types transform) := by
  rw [resumes_goes hplace, Inv, hstage]
  exact ⟨hexecuted, hrecords, h⟩

variable (h : AtEnd native types transform all b)
include h

/-- The trailer. -/
theorem inv_finish_putData {bytes : List Byte} (hplace : b.session.writer.place = .putData .finish bytes)
    (a : Answer) : Inv native types transform all
      ({ b with session := b.session.putData .finish bytes a }.resumes native types transform) := by
  have hat := h
  rw [AtEnd, hplace] at h
  obtain ⟨hresults, hbytes, hends, done, rows, hall, hdone, hn, hdata⟩ := h
  rw [hrecords, List.append_nil] at hall
  have hthrew : ∀ message, Inv native types transform all
      ({ b with session := b.session.touch.throws message }.resumes native types transform) := fun message =>
    finishing_threw hstage hexecuted rfl (safe_of_nil hends)
  have hstays := finishing_goes (s := b.session.touch) hstage hexecuted hrecords (congrArg Place.ended hplace) hat
  unfold Session.putData Session.checkValid
  split
  · cases a with
    | taken =>
      have hdata' : b.session.writer.copyData ++ bytes = encoded native types rows ++ copyTrailer := by
        rw [hdata, hbytes]
      exact finishing_goes hstage hexecuted hrecords rfl ⟨hresults, hends, rows, hall ▸ hdone, hn, hdata'⟩
    | wouldBlock wait => cases wait with
      | none => exact hstays
      | some message => exact hthrew message
    | putFailed message => exact hthrew message
    | _ => exact hstays
  · exact finishing_threw hstage hexecuted rfl (safe_of_nil hends)

/-- The trailer is flushed. -/
theorem inv_finish_flushData (hplace : b.session.writer.place = .flushData .finish) (a : Answer) :
    Inv native types transform all
      ({ b with session := b.session.flushData .finish a }.resumes native types transform) := by
  have hat := h
  rw [AtEnd, hplace] at h
  obtain ⟨hresults, hends, hwhole⟩ := h
  have hstays := finishing_goes (s := b.session.touch) hstage hexecuted hrecords (congrArg Place.ended hplace) hat
  unfold Session.flushData Session.checkValid
  split
  · cases a with
    | flushed => exact finishing_goes hstage hexecuted hrecords rfl ⟨hresults, hends, hwhole⟩
    | flushMore wait => cases wait with
      | none => exact hstays
      | some message => exact finishing_threw hstage hexecuted rfl (safe_of_nil hends)
    | flushFailed message => exact finishing_threw hstage hexecuted rfl (safe_of_nil hends)
    | _ => exact hstays
  · exact finishing_threw hstage hexecuted rfl (safe_of_nil hends)

theorem inv_finishPutEnd (hplace : b.session.writer.place = .finishPutEnd) (a : Answer) :
    Inv native types transform all ({ b with session := b.session.finishPutEnd a }.resumes native types transform) := by
  have hat := h
  rw [AtEnd, hplace] at h
  obtain ⟨hresults, hends, hwhole⟩ := h
  have hstays := finishing_goes (s := b.session.touch) hstage hexecuted hrecords (congrArg Place.ended hplace) hat
  unfold Session.finishPutEnd Session.checkValid
  split
  · cases a with
    | taken =>
      have hends' : b.session.writer.copyEnds ++ [none] = [none] := by rw [hends, List.nil_append]
      exact finishing_goes hstage hexecuted hrecords rfl ⟨hresults, hends', hwhole⟩
    | wouldBlock wait => cases wait with
      | none => exact hstays
      | some message => exact finishing_threw hstage hexecuted rfl (safe_of_nil hends)
    | putFailed message => exact finishing_threw hstage hexecuted rfl (safe_of_nil hends)
    | _ => exact hstays
  · exact finishing_threw hstage hexecuted rfl (safe_of_nil hends)

/-- Behind the end of the COPY **nothing is lost** where `finish` throws. -/
theorem inv_finishFlush (hplace : b.session.writer.place = .finishFlush) (a : Answer) :
    Inv native types transform all ({ b with session := b.session.finishFlush a }.resumes native types transform) := by
  have hat := h
  rw [AtEnd, hplace] at h
  obtain ⟨hresults, hends, hwhole⟩ := h
  have hstays := finishing_goes (s := b.session.touch) hstage hexecuted hrecords (congrArg Place.ended hplace) hat
  unfold Session.finishFlush Session.checkValid
  split
  · cases a with
    | flushed => exact finishing_goes hstage hexecuted hrecords rfl ⟨hresults, hends, hwhole⟩
    | flushMore wait => cases wait with
      | none => exact hstays
      | some message => exact finishing_threw hstage hexecuted rfl fun _ => hwhole
    | flushFailed message => exact finishing_threw hstage hexecuted rfl fun _ => hwhole
    | _ => exact hstays
  · exact finishing_threw hstage hexecuted rfl fun _ => hwhole

theorem inv_finishBusy (hplace : b.session.writer.place = .finishBusy) (a : Answer) :
    Inv native types transform all ({ b with session := b.session.finishBusy a }.resumes native types transform) := by
  have hat := h
  rw [AtEnd, hplace] at h
  obtain ⟨hresults, hends, hwhole⟩ := h
  have hstays := finishing_goes (s := b.session.touch) hstage hexecuted hrecords (congrArg Place.ended hplace) hat
  unfold Session.finishBusy
  cases a with
  | busy =>
    simp only [Session.checkValid]
    split
    · exact finishing_goes hstage hexecuted hrecords rfl ⟨hresults, hends, hwhole⟩
    · exact finishing_threw hstage hexecuted rfl fun _ => hwhole
  | ready result =>
    cases result with
    | none => exact finishing_threw hstage hexecuted rfl fun _ => hwhole
    | some result =>
      simp only
      split
      · rename_i hstatus
        have hresults' : b.session.writer.results ++ [result.status] = [.copyIn, .commandOk] := by
          rw [hresults, hstatus]
          rfl
        exact finishing_returned hstage hexecuted rfl ⟨hwhole, hends, hresults', rfl⟩
      · exact finishing_threw hstage hexecuted rfl fun _ => hwhole
  | _ => exact hstays

theorem inv_finishConsume (hplace : b.session.writer.place = .finishConsume) (a : Answer) :
    Inv native types transform all ({ b with session := b.session.finishConsume a }.resumes native types transform) := by
  have hat := h
  rw [AtEnd, hplace] at h
  obtain ⟨hresults, hends, hwhole⟩ := h
  have hstays := finishing_goes (s := b.session) hstage hexecuted hrecords (congrArg Place.ended hplace) hat
  unfold Session.finishConsume
  cases a with
  | waitFailed message | consumeFailed message => exact finishing_threw hstage hexecuted rfl fun _ => hwhole
  | consumed => exact finishing_goes hstage hexecuted hrecords rfl ⟨hresults, hends, hwhole⟩
  | _ => exact hstays

/-- An answer in `finish`. -/
theorem inv_answer_finishing (a : Answer) :
    Inv native types transform all ({ b with session := b.session.answer a }.resumes native types transform) := by
  have hat := h
  rw [AtEnd] at hat
  unfold Session.answer
  cases hplace : b.session.writer.place with
  | putData sender bytes =>
    cases sender with
    | finish => exact inv_finish_putData hstage hexecuted hrecords h hplace a
    | _ =>
      rw [hplace] at hat
      exact hat.2.elim
  | flushData sender =>
    cases sender with
    | finish => exact inv_finish_flushData hstage hexecuted hrecords h hplace a
    | _ =>
      rw [hplace] at hat
      exact hat.2.elim
  | finishPutEnd => exact inv_finishPutEnd hstage hexecuted hrecords h hplace a
  | finishFlush => exact inv_finishFlush hstage hexecuted hrecords h hplace a
  | finishBusy => exact inv_finishBusy hstage hexecuted hrecords h hplace a
  | finishConsume => exact inv_finishConsume hstage hexecuted hrecords h hplace a
  | _ =>
    rw [hplace] at hat
    exact hat.2.elim

end Finishing

/-- An answer in `abort`. -/
theorem inv_answer_aborting {ex : String} (hstage : b.stage = .aborting ex) (hexecuted : b.executed = begun)
    (haborting : b.session.writer.place.aborting = true) (hsafe : Safe native types transform all b) (a : Answer) :
    Inv native types transform all ({ b with session := b.session.answer a }.resumes native types transform) := by
  have hunended := Session.unended_answer haborting a
  have hsafe' : Safe native types transform all { b with session := b.session.answer a } := fun hnone => by
    obtain ⟨rows, hrows, hn, hdata⟩ := hsafe (hunended.copyEnds hnone)
    exact ⟨rows, hrows, hn, hunended.copyData.trans hdata⟩
  rcases Session.aborted haborting a with hmore | hfreed
  · have hstays : { b with session := b.session.answer a }.resumes native types transform =
        { b with session := b.session.answer a } := by
      rw [resumes]
      cases hplace : (b.session.answer a).writer.place with
      | returned result =>
        rw [hplace] at hmore
        exact absurd hmore Bool.false_ne_true
      | _ => rfl
    rw [hstays, Inv, hstage]
    exact ⟨hexecuted, hmore, hsafe'⟩
  · obtain ⟨result, hplace⟩ := hfreed.returned
    have hcleans : { b with session := b.session.answer a }.resumes native types transform =
        { b with session := b.session.answer a }.clean ex := by
      rw [resumes, hplace]
      cases result <;> simp only [returned, threw, hstage]
    rw [hcleans]
    exact ⟨congrArg (· ++ [Statement.dropStaging]) hexecuted, congrArg Place.ended hplace, hsafe', fun _ => hfreed.inCopy⟩

/-- **Every answer.** -/
theorem Inv.answer (h : Inv native types transform all b) (a : Answer) :
    Inv native types transform all (b.answer native types transform a) := by
  have hended : b.session.writer.place.ended = true → Inv native types transform all (b.answer native types transform a) :=
    fun hended => by
      rw [WriteBatch.answer, if_pos hended]
      exact h
  cases hplace : b.session.writer.place.ended with
  | true => exact hended hplace
  | false =>
    rw [WriteBatch.answer, if_neg (by rw [hplace]; exact Bool.false_ne_true)]
    have hinv := h
    rw [Inv] at hinv
    obtain ⟨stage, hstage⟩ : ∃ stage, b.stage = stage := ⟨_, rfl⟩
    cases stage with
    | starting =>
      rw [hstage] at hinv
      exact inv_answer_starting hstage hinv.1 hinv.2.1 hinv.2.2.1 hinv.2.2.2.1 hinv.2.2.2.2 a
    | writing =>
      rw [hstage] at hinv
      exact inv_answer_piece hinv.1 (.inl hstage) (fun hs => Stage.noConfusion (hstage.symm.trans hs)) hinv.2 a
    | flushing =>
      rw [hstage] at hinv
      exact inv_answer_piece hinv.1 (.inr hstage) (fun _ => hinv.2.1) hinv.2.2 a
    | finishing =>
      rw [hstage] at hinv
      exact inv_answer_finishing hstage hinv.1 hinv.2.1 hinv.2.2 a
    | aborting ex =>
      rw [hstage] at hinv
      exact inv_answer_aborting hstage hinv.1 hinv.2.1 hinv.2.2 a
    | dropOld | createStaging =>
      rw [hstage] at hinv
      exact absurd (hplace.symm.trans hinv.1.ended) Bool.false_ne_true
    | cleaning ex | inserting | dropping inserted =>
      rw [hstage] at hinv
      exact absurd (hplace.symm.trans hinv.2.1) Bool.false_ne_true
    | ended result =>
      rw [hstage] at hinv
      exact absurd (hplace.symm.trans hinv.1) Bool.false_ne_true

/-! ### Every statement -/

/-- The destructor of a writer that gave its connection back does nothing. -/
theorem ends_of_freed (h : Freed b) (result : Except String ℕ) :
    b.ends result = { b with stage := .ended result } := by
  have hnothing : (b.session.writer.inCopy && b.session.state.valid) = false := by
    cases hvalid : b.session.state.valid with
    | true => rw [h hvalid, Bool.false_and]
    | false => exact Bool.and_false _
  rw [ends, Session.destroy, hnothing]
  rfl

theorem Done.congr {b' : WriteBatch Record} (h : Done native types transform all b)
    (hwriter : b'.session.writer = b.session.writer) (hn : b'.batchRows = b.batchRows) :
    Done native types transform all b' := by
  obtain ⟨⟨rows, hrows, hcount, hdata⟩, hends, hresults, hinCopy⟩ := h
  rw [← hwriter] at hdata hends hresults hinCopy
  exact ⟨⟨rows, hrows, hn.trans hcount, hdata⟩, hends, hresults, hinCopy⟩

/-- **The coroutine ends** without a COPY that is still there. -/
theorem inv_ends {result : Except String ℕ} (hended : b.session.writer.place.ended = true)
    (hsafe : Safe native types transform all b) (hfreed : Freed b)
    (hinsert : Statement.insert ∈ b.executed → Done native types transform all b)
    (hok : result.toOption.isSome = true → b.executed = begun ++ [.insert, .dropStaged]) :
    Inv native types transform all (b.ends result) := by
  rw [ends_of_freed hfreed]
  exact ⟨hended, hsafe, hfreed, fun hin => (hinsert hin).congr rfl rfl, hok⟩

theorem Done.safe (h : Done native types transform all b) : Safe native types transform all b := fun _ => h.whole

theorem Done.freed (h : Done native types transform all b) : Freed b := fun _ => h.inCopy

theorem New.copyEnds (h : New all b) : b.session.writer.copyEnds = [] := congrArg (fun l => l.2.1) h.ledger

/-- An exception before the COPY. -/
theorem inv_ends_new (h : New all b) (hinsert : Statement.insert ∉ b.executed) (message : String) :
    Inv native types transform all (b.ends (.error message)) :=
  inv_ends h.ended (safe_of_nil h.copyEnds) (fun _ => h.inCopy) (fun hin => absurd hin hinsert)
    fun hsome => absurd hsome Bool.false_ne_true

/-- `start` is awaited. -/
theorem inv_start (h : New all b) (hexecuted : b.executed = begun) (sent : Option String) :
    Inv native types transform all (b.awaits .starting (Session.start sent)) := by
  rw [awaits]
  rcases Session.start_cases (s := b.session) sent with hwriter | ⟨text, hwriter⟩
  · simp only [hwriter]
    refine ⟨hexecuted, h.records, h.buf, h.batchRows, ?_⟩
    simp only [AtStart, ledger, hwriter]
    exact h.ledger
  · simp only [hwriter]
    refine inv_abort (b := { b with session := b.session.start sent, stage := .starting }) hexecuted (safe_of_nil ?_) text
    simp only [hwriter]
    exact h.copyEnds

/-- **Every statement that ends.** -/
theorem Inv.executedSql (h : Inv native types transform all b) (result : Except String ℕ) (begun sent : Option String) :
    Inv native types transform all (b.executedSql result begun sent) := by
  have hinv := h
  rw [Inv] at hinv
  unfold WriteBatch.executedSql
  cases hstage : b.stage with
  | dropOld =>
    rw [hstage] at hinv
    obtain ⟨hnew, hexecuted⟩ := hinv
    cases result with
    | ok inserted =>
      exact ⟨⟨hnew.records, hnew.buf, hnew.batchRows, hnew.ledger, hnew.inCopy, hnew.ended⟩,
        congrArg (· ++ [Statement.createStaging]) hexecuted⟩
    | error message => exact inv_ends_new hnew (by rw [hexecuted]; decide) message
  | createStaging =>
    rw [hstage] at hinv
    obtain ⟨hnew, hexecuted⟩ := hinv
    have hinsert : Statement.insert ∉ b.executed := by
      rw [hexecuted]
      decide
    cases result with
    | ok inserted =>
      cases begun with
      | none => exact inv_start hnew hexecuted sent
      | some message => exact inv_ends_new hnew hinsert message
    | error message => exact inv_ends_new hnew hinsert message
  | cleaning ex =>
    rw [hstage] at hinv
    obtain ⟨hexecuted, hended, hsafe, hfreed⟩ := hinv
    have hinsert : Statement.insert ∉ b.executed := by
      rw [hexecuted]
      decide
    exact inv_ends hended hsafe hfreed (fun hin => absurd hin hinsert) fun hsome => absurd hsome Bool.false_ne_true
  | inserting =>
    rw [hstage] at hinv
    obtain ⟨hexecuted, hended, hdone⟩ := hinv
    cases result with
    | ok inserted =>
      exact ⟨congrArg (· ++ [Statement.dropStaged]) hexecuted, hended, hdone.congr rfl rfl⟩
    | error message =>
      exact inv_ends hended hdone.safe hdone.freed (fun _ => hdone) fun hsome => absurd hsome Bool.false_ne_true
  | dropping inserted =>
    rw [hstage] at hinv
    obtain ⟨hexecuted, hended, hdone⟩ := hinv
    cases result with
    | ok _ => exact inv_ends hended hdone.safe hdone.freed (fun _ => hdone) fun _ => hexecuted
    | error message =>
      exact inv_ends hended hdone.safe hdone.freed (fun _ => hdone) fun hsome => absurd hsome Bool.false_ne_true
  | _ => exact h

/-! ### Every event -/

/-- What others do to the connection does not matter, but that it is closed. -/
theorem Inv.withState (h : Inv native types transform all b) {state : ConnectionState}
    (hvalid : state.valid = true → b.session.state.valid = true) :
    Inv native types transform all { b with session := { b.session with state := state } } := by
  rw [Inv] at h
  rw [Inv]
  cases hstage : b.stage with
  | dropOld | createStaging =>
    rw [hstage] at h
    exact ⟨⟨h.1.records, h.1.buf, h.1.batchRows, h.1.ledger, h.1.inCopy, h.1.ended⟩, h.2⟩
  | cleaning ex =>
    rw [hstage] at h
    exact ⟨h.1, h.2.1, h.2.2.1, fun hopen => h.2.2.2 (hvalid hopen)⟩
  | inserting | dropping inserted =>
    rw [hstage] at h
    exact ⟨h.1, h.2.1, h.2.2.congr rfl rfl⟩
  | ended result =>
    rw [hstage] at h
    exact ⟨h.1, h.2.1, fun hopen => h.2.2.1 (hvalid hopen), fun hin => (h.2.2.2.1 hin).congr rfl rfl, h.2.2.2.2⟩
  | _ =>
    rw [hstage] at h
    exact h

theorem Inv.step (h : Inv native types transform all b) (e : Event) :
    Inv native types transform all (b.step native types transform e) := by
  cases e with
  | executed result begun sent => exact h.executedSql result begun sent
  | answer a => exact h.answer a
  | others copyInFlight =>
    show Inv native types transform all (b.others copyInFlight)
    rw [WriteBatch.others]
    split
    · exact h
    · exact h.withState id
  | closed => exact h.withState fun hopen => absurd hopen Bool.false_ne_true

theorem inv_init (target : List Char) (columns : List (List Char)) (batches : List (List Record))
    (state : ConnectionState) : Inv native types transform batches.flatten (init target columns batches state) :=
  ⟨⟨rfl, rfl, rfl, rfl, rfl, rfl⟩, rfl⟩

/-! ### Giving the connection back -/

theorem session_abort (ex : String) (b : WriteBatch Record) : (b.abort ex).session = b.session.abort := by
  rw [abort]
  dsimp only
  split <;> rfl

/-- A method of the writer, and `abort` behind its exception. -/
theorem answered_awaits {s : Session} (hsession : b.session = s) {stage : Stage} {method : Session → Session}
    (h : Session.Answered s (method s)) : Session.Answered s (b.awaits stage method).session := by
  subst hsession
  rw [awaits]
  dsimp only
  split
  · rename_i hplace
    rw [session_abort]
    exact h.trans (Session.answered_abort hplace)
  · exact h

theorem answered_goOn {result : Except String Unit} (hplace : b.session.writer.place = .returned result) :
    Session.Answered b.session (b.goOn native types transform).session := by
  rw [goOn]
  split
  · rw [session_abort]
    exact Session.answered_abort hplace
  · exact answered_awaits (by rfl) (Session.answered_writeRow hplace _)
  · dsimp only
    split
    · exact answered_awaits (by rfl) (Session.answered_writeRow hplace _)
    · exact answered_awaits (by rfl) (Session.answered_finish hplace)

theorem answered_resumes (h : b.session.writer.Placed) :
    Session.Answered b.session (b.resumes native types transform).session := by
  rw [resumes]
  split
  · rename_i hplace
    rw [returned]
    split
    · exact answered_goOn hplace
    · exact answered_goOn (b := { b with buf := [] }) hplace
    · exact answered_awaits (by rfl) (Session.answered_finish hplace)
    all_goals exact Session.answered_refl h
  · rename_i hplace
    rw [threw]
    split
    · exact Session.answered_refl h
    · rw [session_abort]
      exact Session.answered_abort hplace
  · exact Session.answered_refl h

/-- **An answer** leaves the flags as they are, or the connection is given back. -/
theorem answered_answer (h : b.session.writer.Placed) (a : Answer) :
    Session.Answered b.session (b.answer native types transform a).session := by
  rw [WriteBatch.answer]
  split
  · exact Session.answered_refl h
  · have hanswer := Session.answered_answer h a
    exact hanswer.trans (answered_resumes (b := { b with session := b.session.answer a }) hanswer.placed)

/-- `start` takes the connection, or its exception is kept. -/
theorem placed_start (hended : b.session.writer.place.ended = true) (sent : Option String) :
    (b.awaits .starting (Session.start sent)).session.writer.Placed := by
  obtain ⟨place, hplace⟩ : ∃ place, b.session.writer.place = place := ⟨_, rfl⟩
  rw [hplace] at hended
  cases place with
  | returned result =>
    rw [awaits]
    dsimp only
    split
    · rename_i hthrown
      rw [session_abort]
      exact (Session.answered_abort hthrown).placed
    · exact (Session.answered_start hplace sent).elim (fun h => h.placed) fun h => h.placed
  | _ => exact absurd hended Bool.false_ne_true

/-- A statement that ends leaves writer and connection alone, but before the COPY. -/
theorem session_executedSql (h : Inv native types transform all b) (result : Except String ℕ)
    (begun sent : Option String) :
    (b.executedSql result begun sent).session = b.session ∨
      New all b ∧ (b.executedSql result begun sent) = b.awaits .starting (Session.start sent) := by
  have hends : Freed b → ∀ result, (b.ends result).session = b.session := fun hfreed result => by
    rw [ends_of_freed hfreed]
  rw [Inv] at h
  unfold WriteBatch.executedSql
  cases hstage : b.stage with
  | dropOld =>
    rw [hstage] at h
    cases result with
    | ok inserted => exact .inl rfl
    | error message => exact .inl (hends (fun _ => h.1.inCopy) _)
  | createStaging =>
    rw [hstage] at h
    cases result with
    | ok inserted => cases begun with
      | none => exact .inr ⟨h.1, rfl⟩
      | some message => exact .inl (hends (fun _ => h.1.inCopy) _)
    | error message => exact .inl (hends (fun _ => h.1.inCopy) _)
  | cleaning ex =>
    rw [hstage] at h
    exact .inl (hends h.2.2.2 _)
  | inserting =>
    rw [hstage] at h
    cases result with
    | ok inserted => exact .inl rfl
    | error message => exact .inl (hends h.2.2.freed _)
  | dropping inserted =>
    rw [hstage] at h
    cases result with
    | ok _ => exact .inl (hends h.2.2.freed _)
    | error message => exact .inl (hends h.2.2.freed _)
  | _ => exact .inl rfl

theorem New.holds (h : New all b) : b.session.writer.holds = false := by
  obtain ⟨place, hplace⟩ : ∃ place, b.session.writer.place = place := ⟨_, rfl⟩
  have hended := h.ended
  rw [hplace] at hended
  rw [CopyWriter.holds, h.inCopy, hplace]
  cases place with
  | returned result => rfl
  | _ => exact absurd hended Bool.false_ne_true

/-- The connection as the writer leaves it. -/
structure Passed (b b' : WriteBatch Record) : Prop where
  placed : b'.session.writer.Placed
  released : b.session.writer.holds = true → b'.session.writer.holds = false →
    b'.session.state.copyInFlight = false

/-- **Where the writer lets go of the connection, the flag is cleared**: another COPY can begin. -/
theorem Inv.passed (h : Inv native types transform all b) (hplaced : b.session.writer.Placed) (e : Event) :
    Passed b (b.step native types transform e) := by
  have hsame : ∀ b' : WriteBatch Record, b'.session.writer = b.session.writer → Passed b b' := fun b' hwriter =>
    ⟨hwriter ▸ hplaced, fun hholds hfree => absurd (hholds.symm.trans (hwriter ▸ hfree)) (by simp)⟩
  cases e with
  | executed result begun sent =>
    rcases session_executedSql h result begun sent with hsession | ⟨hnew, hstart⟩
    · exact hsame _ (congrArg Session.writer hsession)
    · refine ⟨?_, fun hholds => absurd (hnew.holds.symm.trans hholds) (by simp)⟩
      show (b.executedSql result begun sent).session.writer.Placed
      rw [hstart]
      exact placed_start hnew.ended sent
  | answer a =>
    have hanswer : Session.Answered b.session (b.answer native types transform a).session := answered_answer hplaced a
    refine ⟨hanswer.placed, fun hholds hfree => ?_⟩
    rcases hanswer.held with ⟨hstay, -⟩ | ⟨-, -, hflag⟩
    · exact absurd ((hstay.trans hholds).symm.trans hfree) (by simp)
    · exact hflag
  | others copyInFlight =>
    refine hsame _ ?_
    show (b.others copyInFlight).session.writer = b.session.writer
    rw [WriteBatch.others]
    split <;> rfl
  | closed => exact hsame _ rfl

/-! ### Every run -/

theorem insert_done (h : Inv native types transform all b) (hinsert : Statement.insert ∈ b.executed) :
    Done native types transform all b := by
  rw [Inv] at h
  obtain ⟨stage, hstage⟩ : ∃ stage, b.stage = stage := ⟨_, rfl⟩
  have hbefore : ∀ statements, Statement.insert ∉ statements → b.executed = statements →
      Done native types transform all b := fun _ hnot hexecuted => absurd (hexecuted ▸ hinsert) hnot
  cases stage with
  | dropOld =>
    rw [hstage] at h
    exact hbefore [.dropStaging] (by decide) h.2
  | createStaging =>
    rw [hstage] at h
    exact hbefore begun (by decide) h.2
  | starting | writing | flushing | finishing | aborting ex =>
    rw [hstage] at h
    exact hbefore begun (by decide) h.1
  | cleaning ex =>
    rw [hstage] at h
    exact hbefore (begun ++ [.dropStaging]) (by decide) h.1
  | inserting | dropping inserted =>
    rw [hstage] at h
    exact h.2.2
  | ended result =>
    rw [hstage] at h
    exact h.2.2.2.1 hinsert

theorem atStart_copyEnds (h : AtStart b) : b.session.writer.copyEnds = [] := by
  rw [AtStart] at h
  obtain ⟨place, hplace⟩ : ∃ place, b.session.writer.place = place := ⟨_, rfl⟩
  rw [hplace] at h
  cases place with
  | startFlush | startBusy | startConsume => exact congrArg (fun l => l.2.1) h
  | putData sender data => cases sender with
    | start => exact congrArg (fun l => l.2.1) h.2
    | _ => exact h.elim
  | flushData sender => cases sender with
    | start => exact congrArg (fun l => l.2.1) h
    | _ => exact h.elim
  | _ => exact h.elim

theorem atEnd_safe (h : AtEnd native types transform all b) : Safe native types transform all b := by
  rw [AtEnd] at h
  obtain ⟨place, hplace⟩ : ∃ place, b.session.writer.place = place := ⟨_, rfl⟩
  rw [hplace] at h
  cases place with
  | putData sender data => cases sender with
    | finish => exact safe_of_nil h.2.2.1
    | _ => exact h.2.elim
  | flushData sender => cases sender with
    | finish => exact safe_of_nil h.2.1
    | _ => exact h.2.elim
  | finishPutEnd => exact safe_of_nil h.2.1
  | finishFlush | finishBusy | finishConsume => exact fun _ => h.2.2
  | _ => exact h.2.elim

/-- The end of the COPY is never given early. -/
theorem Inv.safe (h : Inv native types transform all b) : Safe native types transform all b := by
  rw [Inv] at h
  obtain ⟨stage, hstage⟩ : ∃ stage, b.stage = stage := ⟨_, rfl⟩
  rw [hstage] at h
  cases stage with
  | dropOld | createStaging => exact safe_of_nil h.1.copyEnds
  | starting => exact safe_of_nil (atStart_copyEnds h.2.2.2.2)
  | writing => exact safe_of_nil h.2.1
  | flushing => exact safe_of_nil h.2.2.1
  | finishing => exact atEnd_safe h.2.2
  | aborting ex => exact h.2.2
  | cleaning ex => exact h.2.2.1
  | inserting | dropping inserted => exact h.2.2.safe
  | ended result => exact h.2.1

/-- The bytes of a whole COPY. -/
theorem encoded_copyTrailer (rows : List (Row types)) :
    encoded native types rows ++ copyTrailer = Pg.copyStream native types rows := by
  have hheader : copyHeader = Pg.writeCopyHeader native [] := by cases native <;> decide
  have htrailer : copyTrailer = Pg.writeCopyTrailer native [] := by cases native <;> decide
  rw [Pg.copyStream_eq, encoded, hheader, htrailer, List.append_assoc]

/-- `write_batch` behind what has happened. -/
def after (native : NativeOrder) (types : List LogicalType) (transform : Record → Except String (Row types))
    (target : List Char) (columns : List (List Char)) (batches : List (List Record)) (state : ConnectionState)
    (events : List Event) : WriteBatch Record :=
  Runs.run (step native types transform) (init target columns batches state) events

theorem inv_after (target : List Char) (columns : List (List Char)) (batches : List (List Record))
    (state : ConnectionState) (events : List Event) :
    Inv native types transform batches.flatten (after native types transform target columns batches state events) :=
  Runs.run_invariant (fun _ e h => h.step e) (inv_init target columns batches state) events

theorem placed_after (target : List Char) (columns : List (List Char)) (batches : List (List Record))
    (state : ConnectionState) (events : List Event) :
    (after native types transform target columns batches state events).session.writer.Placed := by
  have hstep : ∀ (b : WriteBatch Record) e,
      (Inv native types transform batches.flatten b ∧ b.session.writer.Placed) →
        Inv native types transform batches.flatten (step native types transform b e) ∧
          (step native types transform b e).session.writer.Placed :=
    fun _ e h => ⟨h.1.step e, (h.1.passed h.2 e).placed⟩
  exact (Runs.run_invariant hstep ⟨inv_init target columns batches state, trivial⟩ events).2

theorem whole_copyStream (h : Whole native types transform all b) :
    ∃ rows, all.mapM transform = .ok rows ∧ b.batchRows = rows.length ∧
      b.session.writer.copyData = Pg.copyStream native types rows := by
  obtain ⟨rows, hrows, hn, hdata⟩ := h
  exact ⟨rows, hrows, hn, hdata.trans (encoded_copyTrailer rows)⟩

variable (native types transform all) in
/-- **What the rest of the program relies on**: the end of the COPY is given, and the rows are moved to the target, only
behind the rows of all records; they are moved only where the server took the COPY; a coroutine that is over has given
the connection back, and returned a number only behind all four statements; and a writer that lets go of the connection
has cleared its flag. -/
structure Written (b : WriteBatch Record) : Prop where
  rows : none ∈ b.session.writer.copyEnds ∨ .insert ∈ b.executed →
    ∃ rows, all.mapM transform = .ok rows ∧ b.batchRows = rows.length ∧
      b.session.writer.copyData = Pg.copyStream native types rows
  agreed : .insert ∈ b.executed →
    b.session.writer.copyEnds = [none] ∧ b.session.writer.results = [.copyIn, .commandOk]
  freed : ∀ result, b.stage = .ended result → b.session.state.valid = true → b.session.writer.holds = false
  released : ∀ e, b.session.writer.holds = true → (b.step native types transform e).session.writer.holds = false →
    (b.step native types transform e).session.state.copyInFlight = false
  returned : ∀ inserted, b.stage = .ended (.ok inserted) →
    b.executed = [.dropStaging, .createStaging, .insert, .dropStaged]

theorem Inv.written (h : Inv native types transform all b) (hplaced : b.session.writer.Placed) :
    Written native types transform all b where
  released e := (h.passed hplaced e).released
  rows hgiven := by
    rcases hgiven with hnone | hinsert
    · exact whole_copyStream (h.safe hnone)
    · exact whole_copyStream (insert_done h hinsert).whole
  agreed hinsert := ⟨(insert_done h hinsert).copyEnds, (insert_done h hinsert).results⟩
  freed result hended hvalid := by
    rw [Inv, hended] at h
    obtain ⟨hplace, _, hfreed, _, _⟩ := h
    rw [CopyWriter.holds, hfreed hvalid, Bool.false_or]
    cases hp : b.session.writer.place with
    | returned result => rfl
    | _ =>
      rw [hp] at hplace
      exact absurd hplace Bool.false_ne_true
  returned inserted hended := by
    rw [Inv, hended] at h
    exact h.2.2.2.2 rfl

/-- **Whatever libpq and the server answer**, and whatever else happens on the connection. -/
theorem written_whole (target : List Char) (columns : List (List Char)) (batches : List (List Record))
    (state : ConnectionState) (events : List Event) :
    Written native types transform batches.flatten
      (after native types transform target columns batches state events) :=
  (inv_after target columns batches state events).written (placed_after target columns batches state events)

/-- A batch of one record, over a server that agrees. -/
example : (after .little [.bool] (fun record : Bool => .ok (record, ())) ['t'] [] [[true]] ⟨true, false, [], false⟩
    [.executed (.ok 0) none none, .executed (.ok 0) none none, .answer .flushed, .answer (.ready (some ⟨.copyIn, ""⟩)),
      .answer .taken, .answer .flushed, .answer .taken, .answer .flushed, .answer .taken, .answer .flushed,
      .answer .taken, .answer .flushed, .answer (.ready (some ⟨.commandOk, ""⟩)), .executed (.ok 1) none none,
      .executed (.ok 0) none none]).stage = .ended (.ok 1) := rfl

end WriteBatch

end Coroutine

end DbnPipe.DbWriter
