import DbnPipe.DbWriter.CopyWriter
import DbnPipe.Library.Runs
import DbnPipe.Storage.ParseRanges

/-!
# One connection, many coroutines

`PostgresDatabase` of `dbwriter/src/postgres.cpp` with the writers that `begin_copy` made: all of them call libpq for
one connection, in any order.

* `PostgresDatabase` — the flags, the operation that is suspended, and the writers;
* `operate`, `answerOperation` — `query`, `execute` and `execute_count`, one function in three versions;
* `Action`, `step` — **what happens**: a call, an answer of libpq to one of the coroutines, a destructor;
* `Inv` — at most one writer has the connection, and the flag says whether one does;
* `exclusive` — that, after every run; and **nothing overlaps a COPY exactly where no COPY was started during an
  operation**;
* `untouched` — libpq is not called for a closed connection, if the database is not destroyed while a writer waits
  for a result.
-/

namespace DbnPipe.DbWriter

/-! ### The state -/

/-- `query`, `execute`, `execute_count`. -/
inductive Operation where
  | query | execute | executeCount
deriving DecidableEq

/-- The name of an operation in its errors. -/
def Operation.title : Operation → String
  | .query => "Query"
  | .execute | .executeCount => "Execute"

/-- The status that an operation wants. -/
def Operation.status : Operation → ExecStatus
  | .query => .tuplesOk
  | .execute | .executeCount => .commandOk

/-- The call that an operation makes next. -/
inductive OperationPlace where
  | flush | busy | consume
deriving DecidableEq

/-- `PostgresRow`. -/
structure PostgresRow where
  values : List (List Char)
  nulls : List Bool
deriving DecidableEq

/-- `get_string`. -/
def PostgresRow.getString (col : ℕ) (r : PostgresRow) : List Char :=
  match r.values[col]? with
  | none => []
  | some value => if r.nulls.getD col false then [] else value

/-- What an operation returns. -/
inductive OperationResult where
  | rows (rows : List PostgresRow)
  | done
  | count (n : UInt64)
deriving DecidableEq

/-- `PGresult`, as far as the operations read it: a field that is NULL is none. -/
structure QueryResult where
  status : ExecStatus
  errorMessage : String := ""
  rows : List (List (Option (List Char))) := []
  cmdTuples : Option (List Char) := none

/-- What libpq answers to an operation, with what the wait behind it throws. -/
inductive OperationAnswer where
  | flushed
  | flushMore (wait : Option String)
  | flushFailed (message : String)
  | busy
  | ready (result : Option QueryResult)
  | consumed
  | waitFailed (message : String)

/-- `PostgresDatabase`, and the writers of `begin_copy`; `operation_in_flight_` is that there is an operation.
`returned` is what the last call to end returned or threw; a writer that was destroyed is none. -/
structure PostgresDatabase where
  state : ConnectionState := {}
  operation : Option (Operation × OperationPlace) := none
  returned : Option (Except String OperationResult) := none
  writers : List (Option CopyWriter) := []
  destroyed : Bool := false

namespace PostgresDatabase

/-! ### The operations -/

/-- libpq is called. -/
def touch (d : PostgresDatabase) : PostgresDatabase :=
  { d with state := { d.state with touched := d.state.touched || !d.state.valid } }

/-- The operation ends. -/
def ends (result : Except String OperationResult) (d : PostgresDatabase) : PostgresDatabase :=
  { d with operation := none, returned := some result }

/-- A call throws before the operation begins. -/
def refuses (message : String) (d : PostgresDatabase) : PostgresDatabase := { d with returned := some (.error message) }

/-- The checks in front of `query`, `execute`, `execute_count` and `begin_copy`: `is_connected`, with the status that
libpq answers, and `check_no_operation_in_flight`. -/
def checked (statusOk : Bool) (next : PostgresDatabase → PostgresDatabase) (d : PostgresDatabase) : PostgresDatabase :=
  if (d.state.valid && statusOk) = false then d.refuses "Not connected to database"
  else if d.operation.isSome then
    d.refuses ("Concurrent database operation detected. PostgresDatabase only " ++
      "supports one operation at a time. Serialize calls to query(), " ++ "execute(), and begin_copy().")
  else if d.state.copyInFlight then
    d.refuses ("COPY operation in progress. Cannot execute query/execute/begin_copy " ++
      "while a COPY is active. Call finish() or abort() on the CopyWriter first.")
  else next d

/-- `query`, `execute` or `execute_count`, up to its first wait: `sent` is what `sendQuery` failed with, or none, and
`socket` that libpq has a socket. -/
def operate (op : Operation) (sql : List Char) (statusOk : Bool) (sent : Option String) (socket : Bool) :
    PostgresDatabase → PostgresDatabase :=
  checked statusOk fun d =>
    let d := d.touch
    match sent with
    | some message => d.refuses message
    | none =>
      let d := { d with state := { d.state with commands := d.state.commands ++ [cString sql] } }
      if socket then { d with operation := some (op, .flush) }
      else d.refuses "Invalid socket from libpq connection"

/-- The row that is made of a row of a result. -/
def rowOf (fields : List (Option (List Char))) : PostgresRow where
  values := fields.map fun field => field.getD []
  nulls := fields.map Option.isNone

/-- The number of rows that a command reports. -/
def countOf (tuples : Option (List Char)) : Except String OperationResult :=
  match tuples with
  | none => .ok (.count 0)
  | some [] => .ok (.count 0)
  | some tuples => match Storage.stoull tuples with
    | some n => .ok (.count n)
    | none => .error "stoull"

/-- What an operation makes of its result. -/
def outcome (op : Operation) (result : Option QueryResult) : Except String OperationResult :=
  match result with
  | none => .error (op.title ++ ": no result received")
  | some result =>
    if result.status = op.status then
      match op with
      | .query => .ok (.rows (result.rows.map rowOf))
      | .execute => .ok .done
      | .executeCount => countOf result.cmdTuples
    else .error (op.title ++ " failed: " ++ result.errorMessage)

/-- **An answer to the operation**; `consumeInput` is not checked. -/
def answerOperation (a : OperationAnswer) (d : PostgresDatabase) : PostgresDatabase :=
  match d.operation with
  | none => d
  | some (op, .flush) =>
    let d := d.touch
    match a with
    | .flushed => { d with operation := some (op, .busy) }
    | .flushMore (some message) => d.ends (.error message)
    | .flushFailed message => d.ends (.error message)
    | _ => d
  | some (op, .busy) =>
    let d := d.touch
    match a with
    | .busy => { d with operation := some (op, .consume) }
    | .ready result => d.ends (outcome op result)
    | _ => d
  | some (op, .consume) =>
    let d := d.touch
    match a with
    | .consumed => { d with operation := some (op, .busy) }
    | .waitFailed message => d.ends (.error message)
    | _ => d

/-! ### The database -/

/-- `connect`, with what it fails with, or none. -/
def connect (failure : Option String) (d : PostgresDatabase) : PostgresDatabase :=
  match failure with
  | some message => d.refuses message
  | none => { d with state := { d.state with valid := true } }

/-- `begin_copy`. -/
def beginCopy (statusOk : Bool) (table : List Char) (columns : List (List Char)) : PostgresDatabase → PostgresDatabase :=
  checked statusOk fun d => { d with writers := d.writers ++ [some { table, columns }] }

/-- The destructor. -/
def destroy (d : PostgresDatabase) : PostgresDatabase :=
  { d with state := { d.state with valid := false }, destroyed := true }

/-! ### Runs -/

/-- A call of a writer. -/
inductive WriterCall where
  | start (sent : Option String)
  | writeRow (data : List Byte)
  | finish
  | abort

/-- What a call does to a writer and its connection. -/
def WriterCall.run : WriterCall → Session → Session
  | .start sent => Session.start sent
  | .writeRow data => Session.writeRow data
  | .finish => Session.finish
  | .abort => Session.abort

/-- What happens. -/
inductive Action where
  | connect (failure : Option String)
  | beginCopy (statusOk : Bool) (table : List Char) (columns : List (List Char))
  | operate (op : Operation) (sql : List Char) (statusOk : Bool) (sent : Option String) (socket : Bool)
  | answerOperation (a : OperationAnswer)
  | call (i : ℕ) (c : WriterCall)
  | answer (i : ℕ) (a : Answer)
  | destroyWriter (i : ℕ) (taken : Bool)
  | destroy

/-- A writer, where there is one. -/
def writer (i : ℕ) (d : PostgresDatabase) : Option CopyWriter := d.writers[i]?.join

/-- A writer and the state change. -/
def put (i : ℕ) (w : Option CopyWriter) (state : ConnectionState) (d : PostgresDatabase) : PostgresDatabase :=
  { d with state := state, writers := d.writers.set i w }

/-- A writer goes on, with the connection. -/
def withWriter (i : ℕ) (f : Session → Session) (d : PostgresDatabase) : PostgresDatabase :=
  match d.writer i with
  | none => d
  | some w => d.put i (some (f ⟨w, d.state⟩).writer) (f ⟨w, d.state⟩).state

/-- The destructor of a writer. -/
def destroyWriter (i : ℕ) (taken : Bool) (d : PostgresDatabase) : PostgresDatabase :=
  match d.writer i with
  | none => d
  | some w => if w.place.ended then d.put i none (Session.destroy taken ⟨w, d.state⟩).state else d

/-- One action; one that cannot happen changes nothing.  A writer is called, and destroyed, when no coroutine of it is
suspended, and the database when no operation is. -/
def step (d : PostgresDatabase) : Action → PostgresDatabase
  | .connect failure => if d.destroyed then d else d.connect failure
  | .beginCopy statusOk table columns => if d.destroyed then d else d.beginCopy statusOk table columns
  | .operate op sql statusOk sent socket => if d.destroyed then d else d.operate op sql statusOk sent socket
  | .answerOperation a => d.answerOperation a
  | .call i c => d.withWriter i fun s => if s.writer.place.ended then c.run s else s
  | .answer i a => d.withWriter i (Session.answer a)
  | .destroyWriter i taken => d.destroyWriter i taken
  | .destroy => if d.operation.isSome then d else d.destroy

/-! ### The invariant -/

/-- A writer has the connection. -/
def Held (d : PostgresDatabase) : Prop := ∃ i w, d.writer i = some w ∧ w.holds = true

/-- **One writer has the connection, or none**, and the flag tells. -/
structure Inv (d : PostgresDatabase) : Prop where
  placed : ∀ i w, d.writer i = some w → w.Placed
  alone : ∀ i j w v, d.writer i = some w → d.writer j = some v → w.holds = true → v.holds = true → i = j
  flagged : d.Held → d.state.copyInFlight = true
  held : d.state.valid = true → d.state.copyInFlight = true → d.Held
  fresh : d.destroyed = false → d.state.valid = false → d.state.copyInFlight = false
  closed : d.destroyed = true → d.state.valid = false

theorem inv_init : Inv {} where
  placed _ _ h := absurd h (by simp [writer])
  alone _ _ _ _ h := absurd h (by simp [writer])
  flagged := fun ⟨_, _, h, _⟩ => absurd h (by simp [writer])
  held h := absurd h (by simp)
  fresh _ _ := rfl
  closed h := absurd h (by simp)

variable {d : PostgresDatabase} {i : ℕ} {w : CopyWriter}

theorem writer_put (h : d.writer i = some w) (w' : Option CopyWriter) (state : ConnectionState) (j : ℕ) :
    (d.put i w' state).writer j = if j = i then w' else d.writer j := by
  have hlt : i < d.writers.length := by
    by_contra hge
    rw [writer, List.getElem?_eq_none (Nat.not_lt.mp hge)] at h
    exact absurd h (by simp)
  rw [writer, put, List.getElem?_set]
  by_cases hj : j = i
  · rw [if_pos hj.symm, if_pos (hj ▸ hlt), if_pos hj]
    rfl
  · rw [if_neg (Ne.symm hj), if_neg hj]
    rfl

/-- **An answer**, or a call that does not take the connection. -/
theorem Inv.put_answered (h : Inv d) (hw : d.writer i = some w) {s : Session}
    (ha : Session.Answered ⟨w, d.state⟩ s) : Inv (d.put i (some s.writer) s.state) := by
  have hget := writer_put hw (some s.writer) s.state
  have hkeep : ∀ j v, (d.put i (some s.writer) s.state).writer j = some v → v.holds = true →
      ∃ v', d.writer j = some v' ∧ v'.holds = true := by
    intro j v hv hholds
    rw [hget] at hv
    split at hv
    · rename_i hj
      obtain rfl := Option.some.inj hv
      rcases ha.held with ⟨hsame, -⟩ | ⟨-, hnot, -⟩
      · exact ⟨w, hj ▸ hw, hsame.symm.trans hholds⟩
      · exact absurd (hholds.symm.trans hnot) (by simp)
    · exact ⟨v, hv, hholds⟩
  refine ⟨fun j v hv => ?_, fun j k v u hv hu hholds hholds' => ?_, fun ⟨j, v, hv, hholds⟩ => ?_, fun hvalid hflag => ?_,
    fun hd hvalid => ?_, fun hd => ha.valid.trans (h.closed hd)⟩
  · rw [hget] at hv
    split at hv
    · exact Option.some.inj hv ▸ ha.placed
    · exact h.placed j v hv
  · obtain ⟨v', hv', h1⟩ := hkeep j v hv hholds
    obtain ⟨u', hu', h2⟩ := hkeep k u hu hholds'
    exact h.alone j k v' u' hv' hu' h1 h2
  · -- the holder after the step held before, so the flag was not cleared by this writer
    obtain ⟨v', hv', h1⟩ := hkeep j v hv hholds
    rcases ha.held with ⟨-, hflag⟩ | ⟨hw', hnot, -⟩
    · exact hflag.trans (h.flagged ⟨j, v', hv', h1⟩)
    · obtain rfl := h.alone j i v' w hv' hw h1 hw'
      rw [hget, if_pos rfl] at hv
      obtain rfl := Option.some.inj hv
      exact absurd (hholds.symm.trans hnot) (by simp)
  · rcases ha.held with ⟨hsame, hsameflag⟩ | ⟨-, -, hclear⟩
    · obtain ⟨j, v, hv, hholds⟩ := h.held (ha.valid.symm.trans hvalid) (hsameflag.symm.trans hflag)
      by_cases hj : j = i
      · obtain rfl := Option.some.inj ((hj ▸ hv).symm.trans hw)
        exact ⟨i, s.writer, by rw [hget, if_pos rfl], hsame.trans hholds⟩
      · exact ⟨j, v, by rw [hget, if_neg hj]; exact hv, hholds⟩
    · exact absurd (hflag.symm.trans hclear) (by simp)
  · have hbefore := h.fresh hd (ha.valid.symm.trans hvalid)
    rcases ha.held with ⟨-, hflag⟩ | ⟨-, -, hclear⟩
    · exact hflag.trans hbefore
    · exact hclear

/-- **`start` takes the connection.** -/
theorem Inv.put_taken (h : Inv d) (hw : d.writer i = some w) {s : Session} (ht : Session.Taken ⟨w, d.state⟩ s) :
    Inv (d.put i (some s.writer) s.state) := by
  have hget := writer_put hw (some s.writer) s.state
  have hnone : ∀ j v, d.writer j = some v → v.holds = false := fun j v hv => by
    by_contra hholds
    exact absurd ((h.flagged ⟨j, v, hv, Bool.not_eq_false _ ▸ hholds⟩).symm.trans ht.free) (by simp)
  have honly : ∀ j v, (d.put i (some s.writer) s.state).writer j = some v → v.holds = true → j = i := by
    intro j v hv hholds
    by_contra hj
    rw [hget, if_neg hj] at hv
    exact absurd (hholds.symm.trans (hnone j v hv)) (by simp)
  refine ⟨fun j v hv => ?_, fun j k v u hv hu h1 h2 => (honly j v hv h1).trans (honly k u hu h2).symm, fun _ => ht.held,
    fun _ _ => ⟨i, s.writer, by rw [hget, if_pos rfl], ht.holds⟩, fun _ hvalid => ?_, fun hd => ?_⟩
  · rw [hget] at hv
    split at hv
    · exact Option.some.inj hv ▸ ht.placed
    · exact h.placed j v hv
  · exact absurd (ht.valid.symm.trans hvalid) (by rw [ht.opened]; simp)
  · exact ht.valid.trans (h.closed hd)

/-- A writer is destroyed. -/
theorem Inv.put_destroyed (h : Inv d) (hw : d.writer i = some w) (hplace : w.place.ended = true) (taken : Bool) :
    Inv (d.put i none (Session.destroy taken ⟨w, d.state⟩).state) := by
  have hget := writer_put hw none (Session.destroy taken ⟨w, d.state⟩).state
  have hholds : w.holds = w.inCopy := by
    cases hp : w.place with
    | returned result => exact Session.holds_of_returned (s := ⟨w, d.state⟩) hp
    | _ =>
      rw [hp] at hplace
      exact absurd hplace Bool.false_ne_true
  -- the flag goes only with a COPY of this writer, and with every one of them
  obtain ⟨hvalid, hflag⟩ : (Session.destroy taken ⟨w, d.state⟩).state.valid = d.state.valid ∧
      (Session.destroy taken ⟨w, d.state⟩).state.copyInFlight =
        (if (w.inCopy && d.state.valid) = true then false else d.state.copyInFlight) := by
    rw [Session.destroy]
    split <;> (cases taken <;> exact ⟨rfl, rfl⟩)
  have hkeep : ∀ j v, (d.put i none (Session.destroy taken ⟨w, d.state⟩).state).writer j = some v →
      j ≠ i ∧ d.writer j = some v := by
    intro j v hv
    rw [hget] at hv
    split at hv
    · exact absurd hv (by simp)
    · exact ⟨by assumption, hv⟩
  refine ⟨fun j v hv => h.placed j v (hkeep j v hv).2,
    fun j k v u hv hu => h.alone j k v u (hkeep j v hv).2 (hkeep k u hu).2, ?_, fun hv hf => ?_, fun hd hv => ?_,
    fun hd => hvalid.trans (h.closed hd)⟩
  · rintro ⟨j, v, hv, h1⟩
    obtain ⟨hj, hv'⟩ := hkeep j v hv
    refine hflag.trans ?_
    rw [if_neg]
    · exact h.flagged ⟨j, v, hv', h1⟩
    · intro hin
      exact hj (h.alone j i v w hv' hw h1 (hholds.trans (Bool.and_eq_true_iff.mp hin).1))
  · replace hv := hvalid.symm.trans hv
    replace hf := hflag.symm.trans hf
    split at hf
    · exact absurd hf Bool.false_ne_true
    · rename_i hin
      obtain ⟨j, v, hv', h1⟩ := h.held hv hf
      have hj : j ≠ i := by
        rintro rfl
        obtain rfl := Option.some.inj (hv'.symm.trans hw)
        exact hin (Bool.and_eq_true_iff.mpr ⟨hholds.symm.trans h1, hv⟩)
      exact ⟨j, v, by rw [hget, if_neg hj]; exact hv', h1⟩
  · refine hflag.trans ?_
    rw [h.fresh hd (hvalid.symm.trans hv), ite_self]

/-- What is beside the writers and the flags. -/
theorem Inv.beside {e : PostgresDatabase} (h : Inv d) (hwriters : e.writers = d.writers)
    (hvalid : e.state.valid = d.state.valid) (hflag : e.state.copyInFlight = d.state.copyInFlight)
    (hdestroyed : e.destroyed = d.destroyed) : Inv e := by
  have hwriter : ∀ j, e.writer j = d.writer j := fun j => by rw [writer, writer, hwriters]
  have hheld : e.Held ↔ d.Held := by simp only [Held, hwriter]
  refine ⟨fun j v hv => h.placed j v ((hwriter j).symm.trans hv),
    fun j k v u hv hu => h.alone j k v u ((hwriter j).symm.trans hv) ((hwriter k).symm.trans hu),
    fun hh => hflag.trans (h.flagged (hheld.mp hh)),
    fun hv hf => hheld.mpr (h.held (hvalid.symm.trans hv) (hflag.symm.trans hf)),
    fun hd hv => hflag.trans (h.fresh (hdestroyed.symm.trans hd) (hvalid.symm.trans hv)),
    fun hd => hvalid.trans (h.closed (hdestroyed.symm.trans hd))⟩

/-- The checks pass only where nothing is in flight. -/
theorem checked_cases {P : PostgresDatabase → Prop} {statusOk : Bool} {next : PostgresDatabase → PostgresDatabase}
    (hrefuses : ∀ message, P (d.refuses message))
    (hnext : d.state.valid = true → d.operation = none → d.state.copyInFlight = false → P (next d)) :
    P (d.checked statusOk next) := by
  rw [checked]
  split
  · exact hrefuses _
  · rename_i hvalid
    split
    · exact hrefuses _
    · rename_i hop
      split
      · exact hrefuses _
      · rename_i hflag
        refine hnext ?_ ?_ (Bool.not_eq_true _ ▸ hflag)
        · exact (Bool.and_eq_true_iff.mp (Bool.not_eq_false _ ▸ hvalid)).1
        · cases ho : d.operation with
          | none => rfl
          | some o => exact absurd (by rw [ho]; rfl) hop

theorem Inv.operate (h : Inv d) (op : Operation) (sql : List Char) (statusOk : Bool) (sent : Option String)
    (socket : Bool) : Inv (d.operate op sql statusOk sent socket) := by
  refine checked_cases (fun _ => h.beside rfl rfl rfl rfl) fun _ _ _ => ?_
  cases sent with
  | some message => exact h.beside rfl rfl rfl rfl
  | none => cases socket <;> exact h.beside rfl rfl rfl rfl

/-- What an answer to an operation leaves alone; **libpq is called for an operation only**. -/
structure Beside (d e : PostgresDatabase) : Prop where
  writers : e.writers = d.writers
  valid : e.state.valid = d.state.valid
  copyInFlight : e.state.copyInFlight = d.state.copyInFlight
  destroyed : e.destroyed = d.destroyed
  operation : e.operation.isSome = true → d.operation.isSome = true
  touched : (d.operation.isSome = true → d.state.valid = true) → e.state.touched = d.state.touched

theorem touch_of_valid (h : d.state.valid = true) : d.touch = d := by
  rw [touch, h, Bool.not_true, Bool.or_false]

/-- With an operation, an answer touches the connection and nothing else of it. -/
theorem beside_touch {e : PostgresDatabase} (hop : d.operation.isSome = true) (hwriters : e.writers = d.writers)
    (hstate : e.state = d.touch.state) (hdestroyed : e.destroyed = d.destroyed) : Beside d e := by
  refine ⟨hwriters, ?_, ?_, hdestroyed, fun _ => hop, fun hvalid => ?_⟩
  · rw [hstate]
    rfl
  · rw [hstate]
    rfl
  · rw [hstate, touch_of_valid (hvalid hop)]

theorem answerOperation_beside (a : OperationAnswer) (d : PostgresDatabase) : Beside d (d.answerOperation a) := by
  unfold answerOperation
  cases hop : d.operation with
  | none => exact ⟨rfl, rfl, rfl, rfl, id, fun _ => rfl⟩
  | some o =>
    have hsome : d.operation.isSome = true := by rw [hop]; rfl
    obtain ⟨op, place⟩ := o
    cases place with
    | flush =>
      cases a with
      | flushMore wait => cases wait <;> exact beside_touch hsome rfl rfl rfl
      | _ => exact beside_touch hsome rfl rfl rfl
    | busy => cases a <;> exact beside_touch hsome rfl rfl rfl
    | consume => cases a <;> exact beside_touch hsome rfl rfl rfl

theorem Inv.beginCopy (h : Inv d) (statusOk : Bool) (table : List Char) (columns : List (List Char)) :
    Inv (d.beginCopy statusOk table columns) := by
  refine checked_cases (fun _ => h.beside rfl rfl rfl rfl) fun _ _ hflag => ?_
  have hnew : ∀ j v, ({ d with writers := d.writers ++ [some { table, columns }] } : PostgresDatabase).writer j = some v →
      d.writer j = some v ∨ (v.place.ended = true ∧ v.inCopy = false) := by
    intro j v hv
    rw [writer] at hv
    rcases Nat.lt_or_ge j d.writers.length with hj | hj
    · rw [List.getElem?_append_left hj] at hv
      exact .inl hv
    · rw [List.getElem?_append_right hj] at hv
      rcases Nat.eq_zero_or_pos (j - d.writers.length) with hz | hp
      · rw [hz] at hv
        obtain rfl : _ = v := Option.some.inj hv
        exact .inr ⟨rfl, rfl⟩
      · rw [List.getElem?_eq_none (by rw [List.length_singleton]; omega)] at hv
        exact absurd hv (by simp)
  have hnone : ∀ j v, d.writer j = some v → v.holds = false := fun j v hv => by
    by_contra hholds
    exact absurd ((h.flagged ⟨j, v, hv, Bool.not_eq_false _ ▸ hholds⟩).symm.trans hflag) (by simp)
  have hended : ∀ v : CopyWriter, v.place.ended = true → v.inCopy = false → v.Placed ∧ v.holds = false := by
    intro v hv hinCopy
    cases hp : v.place with
    | returned result => exact ⟨by rw [CopyWriter.Placed, hp]; trivial, by rw [CopyWriter.holds, hp, hinCopy]; rfl⟩
    | _ =>
      rw [hp] at hv
      exact absurd hv Bool.false_ne_true
  have hfree : ∀ j v, ({ d with writers := d.writers ++ [some { table, columns }] } : PostgresDatabase).writer j = some v →
      v.holds = false := fun j v hv => (hnew j v hv).elim (hnone j v) fun hv => (hended v hv.1 hv.2).2
  refine ⟨fun j v hv => (hnew j v hv).elim (h.placed j v) fun hv => (hended v hv.1 hv.2).1,
    fun j k v u hv _ hholds => absurd (hholds.symm.trans (hfree j v hv)) (by simp), ?_,
    fun _ hf => absurd (hf.symm.trans hflag) (by simp), h.fresh, h.closed⟩
  rintro ⟨j, v, hv, hholds⟩
  exact absurd (hholds.symm.trans (hfree j v hv)) (by simp)

/-- **One action** keeps the invariant. -/
theorem Inv.step (h : Inv d) (a : Action) : Inv (d.step a) := by
  cases a with
  | connect failure =>
    rw [PostgresDatabase.step]
    split
    · exact h
    · rename_i hd
      have hdestroyed : d.destroyed = false := Bool.not_eq_true _ ▸ hd
      cases failure with
      | some message => exact h.beside rfl rfl rfl rfl
      | none =>
        -- a connection is made where there is none, with the flag clear
        refine ⟨h.placed, h.alone, h.flagged, fun _ hf => ?_, fun _ hv => absurd hv (by simp [connect]),
          fun hd' => absurd (hd'.symm.trans hdestroyed) (by simp)⟩
        cases hv : d.state.valid with
        | true => exact h.held hv hf
        | false => exact absurd (Eq.symm hf |>.trans (h.fresh hdestroyed hv)) (by simp)
  | beginCopy statusOk table columns =>
    rw [PostgresDatabase.step]
    split
    · exact h
    · exact h.beginCopy statusOk table columns
  | operate op sql statusOk sent socket =>
    rw [PostgresDatabase.step]
    split
    · exact h
    · exact h.operate op sql statusOk sent socket
  | answerOperation a =>
    have hbeside := answerOperation_beside a d
    exact h.beside hbeside.writers hbeside.valid hbeside.copyInFlight hbeside.destroyed
  | call i c =>
    rw [PostgresDatabase.step, withWriter]
    cases hw : d.writer i with
    | none => exact h
    | some w =>
      simp only
      cases hplace : w.place with
      | returned result =>
        cases c with
        | start sent =>
          rcases Session.answered_start (s := ⟨w, d.state⟩) hplace sent with ha | ht
          · exact h.put_answered hw ha
          · exact h.put_taken hw ht
        | writeRow data => exact h.put_answered hw (Session.answered_writeRow (s := ⟨w, d.state⟩) hplace data)
        | finish => exact h.put_answered hw (Session.answered_finish (s := ⟨w, d.state⟩) hplace)
        | abort => exact h.put_answered hw (Session.answered_abort (s := ⟨w, d.state⟩) hplace)
      | _ => exact h.put_answered hw (Session.answered_refl (s := ⟨w, d.state⟩) (h.placed i w hw))
  | answer i a =>
    rw [PostgresDatabase.step, withWriter]
    cases hw : d.writer i with
    | none => exact h
    | some w => exact h.put_answered hw (Session.answered_answer (s := ⟨w, d.state⟩) (h.placed i w hw) a)
  | destroyWriter i taken =>
    rw [PostgresDatabase.step, destroyWriter]
    cases hw : d.writer i with
    | none => exact h
    | some w =>
      simp only
      split
      · exact h.put_destroyed hw (by assumption) taken
      · exact h
  | destroy =>
    rw [PostgresDatabase.step]
    split
    · exact h
    · exact ⟨h.placed, h.alone, h.flagged, fun hv => absurd hv (by simp [destroy]),
        fun hd => absurd hd (by simp [destroy]), fun _ => rfl⟩

/-! ### Nothing beside a COPY -/

/-- An operation and a COPY at the same time. -/
def Overlaps (d : PostgresDatabase) : Prop := d.operation.isSome = true ∧ d.Held

/-- A call of `start` whose command goes out. -/
def Starts (d : PostgresDatabase) : Action → Prop
  | .call i (.start none) => ∃ w, d.writer i = some w ∧ w.place.ended = true ∧ w.inCopy = false ∧
      d.state.valid = true ∧ d.state.copyInFlight = false
  | _ => False

/-- **No COPY is started during an operation.** -/
def Careful (d : PostgresDatabase) (a : Action) : Prop := d.operation.isSome = true → ¬d.Starts a

/-- A holder after an answer held before. -/
theorem held_of_answered (hw : d.writer i = some w) {s : Session} (ha : Session.Answered ⟨w, d.state⟩ s)
    (h : (d.put i (some s.writer) s.state).Held) : d.Held := by
  obtain ⟨j, v, hv, hholds⟩ := h
  rw [writer_put hw] at hv
  split at hv
  · obtain rfl := Option.some.inj hv
    rcases ha.held with ⟨hsame, -⟩ | ⟨-, hnot, -⟩
    · exact ⟨i, w, hw, hsame.symm.trans hholds⟩
    · exact absurd (hholds.symm.trans hnot) (by simp)
  · exact ⟨j, v, hv, hholds⟩

/-- An operation begins, and a writer is made, where no writer has the connection. -/
theorem not_held_of_free (h : Inv d) (hflag : d.state.copyInFlight = false) : ¬d.Held := fun hheld =>
  absurd ((h.flagged hheld).symm.trans hflag) (by simp)

/-- The call of `start` that takes the connection is one whose command goes out. -/
theorem starts_of_taken {sent : Option String} (hw : d.writer i = some w) (hplace : w.place.ended = true)
    (ht : Session.Taken ⟨w, d.state⟩ (Session.start sent ⟨w, d.state⟩)) : d.Starts (.call i (.start sent)) := by
  have hheld := ht.held
  rw [Session.start, Session.checkValid, if_pos ht.opened] at hheld
  cases sent with
  | none =>
    refine ⟨w, hw, hplace, ?_, ht.opened, ht.free⟩
    by_contra hin
    rw [if_pos (Bool.not_eq_false _ ▸ hin)] at hheld
    exact absurd (hheld.symm.trans ht.free) (by simp)
  | some message =>
    split at hheld
    · exact absurd (hheld.symm.trans ht.free) (by simp)
    · rw [if_neg (by rw [ht.free]; simp)] at hheld
      exact absurd hheld Bool.false_ne_true

/-- A COPY that is started is held. -/
theorem held_of_starts {a : Action} (h : d.Starts a) : (d.step a).Held ∧ (d.step a).operation = d.operation := by
  unfold Starts at h
  split at h
  · rename_i i
    obtain ⟨w, hw, hplace, hin, hvalid, hflag⟩ := h
    have hstart : Session.start none ⟨w, d.state⟩ = Session.start none ⟨w, d.state⟩ := rfl
    rw [step, withWriter, hw]
    simp only [hplace, if_true, WriterCall.run]
    refine ⟨⟨i, _, by rw [writer_put hw, if_pos rfl], ?_⟩, rfl⟩
    rw [Session.start, Session.checkValid, if_pos hvalid, if_neg (by rw [hin]; simp), if_neg (by rw [hflag]; simp)]
    exact Bool.or_true _
  · exact h.elim

section NotOverlaps

variable (hno : ¬d.Overlaps)
include hno

/-- No operation begins, and no writer takes the connection. -/
theorem not_overlaps_of {e : PostgresDatabase} (hop : e.operation.isSome = true → d.operation.isSome = true)
    (hheld : e.Held → d.Held) : ¬e.Overlaps := fun hover => hno ⟨hop hover.1, hheld hover.2⟩

/-- A writer gets an answer, or a call that does not take the connection. -/
theorem not_overlaps_put (hw : d.writer i = some w) {s : Session} (ha : Session.Answered ⟨w, d.state⟩ s) :
    ¬(d.put i (some s.writer) s.state).Overlaps := not_overlaps_of hno id (held_of_answered hw ha)

theorem not_overlaps_beginCopy (statusOk : Bool) (table : List Char) (columns : List (List Char)) :
    ¬(d.beginCopy statusOk table columns).Overlaps := by
  refine checked_cases (P := fun e => ¬e.Overlaps) (fun _ => not_overlaps_of hno id id) fun _ hnone _ hover => ?_
  have hop : d.operation.isSome = true := hover.1
  rw [hnone] at hop
  exact Bool.false_ne_true hop

/-- An operation begins where no writer has the connection. -/
theorem not_overlaps_operate (h : Inv d) (op : Operation) (sql : List Char) (statusOk : Bool) (sent : Option String)
    (socket : Bool) : ¬(d.operate op sql statusOk sent socket).Overlaps := by
  refine checked_cases (P := fun e => ¬e.Overlaps) (fun _ => not_overlaps_of hno id id) fun _ _ hflag hover => ?_
  refine not_held_of_free h hflag ?_
  cases sent with
  | some message => exact hover.2
  | none => cases socket <;> exact hover.2

theorem not_overlaps_answerOperation (a : OperationAnswer) : ¬(d.answerOperation a).Overlaps := by
  have hbeside := answerOperation_beside a d
  refine not_overlaps_of hno hbeside.operation ?_
  rintro ⟨j, v, hv, hholds⟩
  exact ⟨j, v, by rw [writer, ← hbeside.writers]; exact hv, hholds⟩

/-- **Only `start` takes the connection**, and not during an operation. -/
theorem not_overlaps_call (hw : d.writer i = some w) {result : Except String Unit} (hplace : w.place = .returned result)
    {c : WriterCall} (hok : d.Careful (.call i c)) :
    ¬(d.put i (some (c.run ⟨w, d.state⟩).writer) (c.run ⟨w, d.state⟩).state).Overlaps := by
  cases c with
  | start sent =>
    rcases Session.answered_start (s := ⟨w, d.state⟩) hplace sent with ha | ht
    · exact not_overlaps_put hno hw ha
    · exact fun hover => hok hover.1 (starts_of_taken hw (congrArg Place.ended hplace) ht)
  | writeRow data => exact not_overlaps_put hno hw (Session.answered_writeRow (s := ⟨w, d.state⟩) hplace data)
  | finish => exact not_overlaps_put hno hw (Session.answered_finish (s := ⟨w, d.state⟩) hplace)
  | abort => exact not_overlaps_put hno hw (Session.answered_abort (s := ⟨w, d.state⟩) hplace)

theorem not_overlaps_destroyWriter (i : ℕ) (taken : Bool) : ¬(d.destroyWriter i taken).Overlaps := by
  rw [destroyWriter]
  cases hw : d.writer i with
  | none => exact hno
  | some w =>
    simp only
    split
    · refine not_overlaps_of hno id ?_
      rintro ⟨j, v, hv, hholds⟩
      rw [writer_put hw] at hv
      split at hv
      · exact absurd hv (by simp)
      · exact ⟨j, v, hv, hholds⟩
    · exact hno

end NotOverlaps

/-- **One action** overlaps a COPY only if it starts one. -/
theorem not_overlaps_step (h : Inv d) (hno : ¬d.Overlaps) {a : Action} (hok : d.Careful a) : ¬(d.step a).Overlaps := by
  cases a with
  | connect failure =>
    rw [step]
    split
    · exact hno
    · cases failure <;> exact not_overlaps_of hno id id
  | beginCopy statusOk table columns =>
    rw [step]
    split
    · exact hno
    · exact not_overlaps_beginCopy hno statusOk table columns
  | operate op sql statusOk sent socket =>
    rw [step]
    split
    · exact hno
    · exact not_overlaps_operate hno h op sql statusOk sent socket
  | answerOperation a => exact not_overlaps_answerOperation hno a
  | call i c =>
    rw [step, withWriter]
    cases hw : d.writer i with
    | none => exact hno
    | some w =>
      simp only
      cases hplace : w.place with
      | returned result => exact not_overlaps_call hno hw hplace hok
      | _ => exact not_overlaps_put hno hw (Session.answered_refl (s := ⟨w, d.state⟩) (h.placed i w hw))
  | answer i a =>
    rw [step, withWriter]
    cases hw : d.writer i with
    | none => exact hno
    | some w => exact not_overlaps_put hno hw (Session.answered_answer (s := ⟨w, d.state⟩) (h.placed i w hw) a)
  | destroyWriter i taken => exact not_overlaps_destroyWriter hno i taken
  | destroy =>
    rw [step]
    split
    · exact hno
    · exact not_overlaps_of hno id id

/-- An operation and `begin_copy` are refused where a writer has the connection. -/
theorem refused_of_held (h : Inv d) (hheld : d.Held) (statusOk : Bool) (next : PostgresDatabase → PostgresDatabase) :
    ∃ message, d.checked statusOk next = d.refuses message :=
  checked_cases (P := fun e => ∃ message, e = d.refuses message) (fun message => ⟨message, rfl⟩) fun _ _ hflag =>
    absurd hheld (not_held_of_free h hflag)

/-- **One connection, one COPY.**  After every run, in any order of the calls, the answers of libpq and the
destructors: at most one writer has the connection, and while the database is there the flag says whether one does;
where one does, `query`, `execute`, `execute_count` and `begin_copy` are refused; wherever `abort` ends, its writer has
given the connection back; and an operation overlaps a COPY in no state of the run exactly if no COPY was started
during an operation. -/
theorem exclusive (ops : List Action) :
    let d := Runs.run step {} ops
    (∀ i j w v, d.writer i = some w → d.writer j = some v → w.holds = true → v.holds = true → i = j) ∧
      (d.state.valid = true → (d.state.copyInFlight = true ↔ d.Held)) ∧
      (d.Held → ∀ statusOk next, ∃ message, d.checked statusOk next = d.refuses message) ∧
      (∀ i w a, d.writer i = some w → w.place.aborting = true →
        let d' := d.step (.answer i a)
        ∃ w', d'.writer i = some w' ∧
          (w'.place.aborting = true ∨ w'.holds = false ∧ d'.state.copyInFlight = false)) ∧
      ((∀ pre, pre <+: ops → ¬(Runs.run step {} pre).Overlaps) ↔ Runs.Along Careful step {} ops) := by
  intro d
  have hstep : ∀ e a, Inv e → Inv (e.step a) := fun _ a he => he.step a
  have h : Inv d := Runs.run_invariant hstep inv_init ops
  refine ⟨h.alone, fun hv => ⟨h.held hv, h.flagged⟩, fun hheld => refused_of_held h hheld, fun i w a hw haborting => ?_,
    ?_⟩
  · intro d'
    have hd' : d' = d.put i (some (Session.answer a ⟨w, d.state⟩).writer) (Session.answer a ⟨w, d.state⟩).state := by
      show d.withWriter i (Session.answer a) = _
      rw [withWriter, hw]
    refine ⟨(Session.answer a ⟨w, d.state⟩).writer, by rw [hd', writer_put hw, if_pos rfl], ?_⟩
    rw [hd']
    exact (Session.aborted (s := ⟨w, d.state⟩) haborting a).imp id fun hfreed => ⟨hfreed.holds, hfreed.copyInFlight⟩
  · have hone : ∀ e a, Inv e → ¬e.Overlaps → (¬(step e a).Overlaps ↔ Careful e a) := by
      intro e a he hno
      refine ⟨fun hgood hop hstarts => hgood ?_, not_overlaps_step he hno⟩
      obtain ⟨hheld, hsame⟩ := held_of_starts hstarts
      exact ⟨by rw [hsame]; exact hop, hheld⟩
    exact Runs.good_prefixes_iff hstep hone inv_init fun hover =>
      absurd hover.1 Bool.false_ne_true

/-! ### Nothing for a closed connection -/

/-- No writer waits for a result. -/
def Waitless (d : PostgresDatabase) : Prop := ∀ i w, d.writer i = some w → w.place.waits = false

/-- libpq was not called for a closed connection, and nobody is about to. -/
structure Unused (d : PostgresDatabase) : Prop where
  touched : d.state.touched = false
  working : d.operation.isSome = true → d.state.valid = true
  waitless : d.state.valid = false → d.Waitless

/-- What is beside the writers. -/
theorem Unused.beside {e : PostgresDatabase} (h : Unused d) (hwriters : e.writers = d.writers)
    (htouched : e.state.touched = d.state.touched) (hvalid : d.state.valid = true → e.state.valid = true)
    (hop : e.operation.isSome = true → d.operation.isSome = true) : Unused e := by
  refine ⟨htouched.trans h.touched, fun he => hvalid (h.working (hop he)), fun hv i w hw => h.waitless ?_ i w ?_⟩
  · exact Bool.eq_false_iff.mpr fun hopen => absurd ((hvalid hopen).symm.trans hv) (by simp)
  · rw [writer, ← hwriters]
    exact hw

theorem Unused.put (h : Unused d) (hw : d.writer i = some w) {s : Session} (hvalid : s.state.valid = d.state.valid)
    (hs : Session.Untouched ⟨w, d.state⟩ s) : Unused (d.put i (some s.writer) s.state) := by
  refine ⟨hs.touched.trans h.touched, fun hop => hvalid.trans (h.working hop), fun hv j v hv' => ?_⟩
  have hclosed := hvalid.symm.trans hv
  rw [writer_put hw] at hv'
  split at hv'
  · exact Option.some.inj hv' ▸ hs.waits hclosed
  · exact h.waitless hclosed j v hv'

/-- A method of a writer looks at the connection first. -/
theorem Unused.call (h : Unused d) (i : ℕ) (c : WriterCall) : Unused (d.step (.call i c)) := by
  rw [PostgresDatabase.step, withWriter]
  cases hw : d.writer i with
  | none => exact h
  | some w =>
    simp only
    cases hplace : w.place with
    | returned result =>
      cases c with
      | start sent =>
        refine h.put hw ?_ (Session.untouched_start sent)
        rcases Session.answered_start (s := ⟨w, d.state⟩) hplace sent with ha | ht
        · exact ha.valid
        · exact ht.valid
      | writeRow data =>
        exact h.put hw (Session.answered_writeRow (s := ⟨w, d.state⟩) hplace data).valid
          (Session.untouched_sends .writeRow data _)
      | finish =>
        exact h.put hw (Session.answered_finish (s := ⟨w, d.state⟩) hplace).valid
          (Session.untouched_sends .finish copyTrailer _)
      | abort => exact h.put hw (Session.answered_abort (s := ⟨w, d.state⟩) hplace).valid Session.untouched_abort
    | _ => exact h.put hw (s := ⟨w, d.state⟩) rfl ⟨rfl, fun hv => h.waitless hv i w hw⟩

/-- So does the destructor. -/
theorem Unused.destroyWriter (h : Unused d) (i : ℕ) (taken : Bool) : Unused (d.step (.destroyWriter i taken)) := by
  rw [PostgresDatabase.step, PostgresDatabase.destroyWriter]
  cases hw : d.writer i with
  | none => exact h
  | some w =>
    simp only
    split
    · have htouched := Session.touched_destroy (s := ⟨w, d.state⟩) taken
      have hvalid : (Session.destroy taken ⟨w, d.state⟩).state.valid = d.state.valid := by
        rw [Session.destroy]
        split
        · cases taken <;> rfl
        · rfl
      refine ⟨htouched.trans h.touched, fun hop => hvalid.trans (h.working hop), fun hv j v hv' => ?_⟩
      rw [writer_put hw] at hv'
      split at hv'
      · exact absurd hv' (by simp)
      · exact h.waitless (hvalid.symm.trans hv) j v hv'
    · exact h

/-- Where no operation and no method can be, nothing changes. -/
theorem Unused.step (h : Unused d) (hinv : Inv d) {a : Action} (hok : a = .destroy → d.Waitless) :
    Unused (d.step a) := by
  have hrefuses : ∀ message, Unused (d.refuses message) := fun _ => h.beside rfl rfl id id
  have hanswer : ∀ i w, d.writer i = some w → d.state.valid = true ∨ w.place.waits = false := by
    intro i w hw
    cases hv : d.state.valid with
    | true => exact .inl rfl
    | false => exact .inr (h.waitless hv i w hw)
  cases a with
  | connect failure =>
    rw [PostgresDatabase.step]
    split
    · exact h
    · cases failure with
      | some message => exact hrefuses message
      | none => exact h.beside rfl rfl (fun _ => rfl) id
  | beginCopy statusOk table columns =>
    rw [PostgresDatabase.step]
    split
    · exact h
    · refine checked_cases hrefuses fun hvalid _ _ => ⟨h.touched, fun _ => hvalid, fun hv => ?_⟩
      exact absurd (Eq.symm hvalid |>.trans hv) (by simp)
  | operate op sql statusOk sent socket =>
    rw [PostgresDatabase.step]
    split
    · exact h
    · refine checked_cases hrefuses fun hvalid _ _ => ?_
      rw [touch_of_valid hvalid]
      cases sent with
      | some message => exact hrefuses message
      | none =>
        cases socket with
        | false => exact h.beside rfl rfl id id
        | true => exact ⟨h.touched, fun _ => hvalid, h.waitless⟩
  | answerOperation a =>
    have hbeside := answerOperation_beside a d
    exact h.beside hbeside.writers (hbeside.touched h.working) (hbeside.valid.trans ·) hbeside.operation
  | call i c => exact h.call i c
  | answer i a =>
    rw [PostgresDatabase.step, withWriter]
    cases hw : d.writer i with
    | none => exact h
    | some w =>
      exact h.put hw (Session.answered_answer (s := ⟨w, d.state⟩) (hinv.placed i w hw) a).valid
        (Session.untouched_answer (s := ⟨w, d.state⟩) (hanswer i w hw) a)
  | destroyWriter i taken => exact h.destroyWriter i taken
  | destroy =>
    rw [PostgresDatabase.step]
    split
    · exact h
    · rename_i hop
      exact ⟨h.touched, fun hsome => absurd hsome hop, fun _ => hok rfl⟩

/-- **libpq is not called for a closed connection**, in any run in which the database is never destroyed while `start`
or `finish` of a writer waits for its result: everywhere else the connection is looked at before libpq is called. -/
theorem untouched (ops : List Action)
    (hok : Runs.Along (fun d a => a = .destroy → Waitless d) step {} ops) :
    (Runs.run step {} ops).state.touched = false := by
  have hinit : Inv {} ∧ Unused {} :=
    ⟨inv_init, rfl, fun hop => absurd hop Bool.false_ne_true, fun _ _ _ hw => absurd hw (by simp [writer])⟩
  have hstep : ∀ d a, Inv d ∧ Unused d → (a = .destroy → Waitless d) → Inv (d.step a) ∧ Unused (d.step a) :=
    fun d a h hok => ⟨h.1.step a, h.2.step h.1 hok⟩
  exact (Runs.run_preserves hstep hinit hok).2.touched

/-- A COPY, up to a row that libpq does not take at once. -/
def blockedRow : List Action :=
  [.connect none, .beginCopy true ['t'] [['c']], .call 0 (.start none), .answer 0 .flushed,
    .answer 0 (.ready (some ⟨.copyIn, ""⟩)), .answer 0 .taken, .answer 0 .flushed, .call 0 (.writeRow [0, 1]),
    .answer 0 (.wouldBlock none)]

/-- The database is destroyed there, and the row thrown away. -/
theorem untouched_blockedRow :
    (Runs.run step {} (blockedRow ++ [.destroy, .answer 0 .taken, .call 0 .abort])).state.touched = false := by
  refine untouched _ ((Runs.along_append _ _ _ _ _).mpr ⟨Runs.along_of_forall ?_ _, ?_, ?_, ?_, trivial⟩)
  · simp [blockedRow]
  · intro _ i w hw
    cases i with
    | zero => exact Option.some.inj hw ▸ rfl
    | succ i => exact absurd (show (none : Option CopyWriter) = some w from hw) (Option.some_ne_none w).symm
  · exact fun h => Action.noConfusion h
  · exact fun h => Action.noConfusion h

end PostgresDatabase

end DbnPipe.DbWriter
