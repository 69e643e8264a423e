import DbnPipe.Stream.TcpSocket

/-!
# The write queue of the socket

`Write`, `HandleWritable` and `UpdateEpollFlags` of `lib/stream/tcp_socket.hpp` on a connection, with a record of
the bytes that went in and out.

* `Sent` — the socket, the bytes written since `Connect`, and the bytes that `write` has accepted;
* `Call`, `Event` — what the users call, and what happens; `on_connect_` makes calls of its own;
* `Answers` — the outcomes of one write loop: **a positive part of the buffer each, or the socket would block**;
* `Kept` — accepted bytes, then the buffer, are the bytes written, and the write interest follows the buffer;
* `queue_kept` — every call of every run returns so.
-/

namespace DbnPipe.TcpSocket

/-! ### The outcomes of a write loop -/

/-- The outcomes of the calls of `write` in one loop over the buffer: each takes a positive part of it, the last
one may find that the socket would block. -/
def Answers : List WriteResult → List Byte → Prop
  | [], buffer => buffer = []
  | .wrote n :: rs, buffer => 0 < n ∧ n ≤ buffer.length ∧ Answers rs (buffer.drop n)
  | .again :: rs, buffer => buffer ≠ [] ∧ rs = []
  | .failed _ :: _, _ => False

instance decidableAnswers : ∀ rs buffer, Decidable (Answers rs buffer)
  | [], buffer => inferInstanceAs (Decidable (buffer = []))
  | .wrote n :: rs, buffer =>
    haveI := decidableAnswers rs (buffer.drop n)
    inferInstanceAs (Decidable (0 < n ∧ n ≤ buffer.length ∧ Answers rs (buffer.drop n)))
  | .again :: rs, buffer =>
    haveI : Decidable (rs = []) := decidable_of_iff (rs.isEmpty = true) List.isEmpty_iff
    inferInstanceAs (Decidable (buffer ≠ [] ∧ rs = []))
  | .failed _ :: _, _ => inferInstanceAs (Decidable False)

/-- The bytes that `write` accepts. -/
def taken : List WriteResult → List Byte → List Byte
  | [], _ => []
  | r :: rs, buffer =>
    if buffer.isEmpty then []
    else
      match r with
      | .wrote n => buffer.take n ++ taken rs (buffer.drop n)
      | .again => []
      | .failed _ => []

/-- The buffer is watched for writability. -/
def watch (s : TcpSocket) : TcpSocket :=
  if s.watchingWrite then s else { s with watchingWrite := true }.updateEpollFlags

/-- **The write loop** takes a prefix of the buffer, all of it or up to where the socket would block. -/
theorem writeLoop_spec {rs : List WriteResult} {s : TcpSocket} (h : Answers rs s.writeBuffer) :
    ∃ rest, taken rs s.writeBuffer ++ rest = s.writeBuffer ∧
      (rest = [] ∧ writeLoop rs s = ({ s with writeBuffer := [] }, true) ∨
        rest ≠ [] ∧ writeLoop rs s = ({ s with writeBuffer := rest }.watch, false)) := by
  induction rs generalizing s with
  | nil =>
    have hs : s = { s with writeBuffer := [] } := by rw [← show s.writeBuffer = [] from h]
    refine ⟨[], by rw [taken, show s.writeBuffer = [] from h, List.append_nil], Or.inl ⟨rfl, ?_⟩⟩
    rw [writeLoop, show s.writeBuffer = [] from h, ← hs]
    rfl
  | cons r rs ih =>
    cases r with
    | wrote n =>
      obtain ⟨hpos, hle, hrest⟩ := h
      have hne : s.writeBuffer.isEmpty = false := by
        rw [List.isEmpty_eq_false_iff_exists_mem]
        exact List.exists_mem_of_length_pos (by omega)
      obtain ⟨rest, happ, hloop⟩ := ih (s := { s with writeBuffer := s.writeBuffer.drop n }) hrest
      refine ⟨rest, ?_, ?_⟩
      · rw [taken, hne]
        simp only [Bool.false_eq_true, if_false, List.append_assoc]
        rw [happ, List.take_append_drop]
      · rw [writeLoop, hne]
        exact hloop
    | again =>
      obtain ⟨hne, rfl⟩ := h
      have hemp : s.writeBuffer.isEmpty = false := by rw [← Bool.not_eq_true, List.isEmpty_iff]; exact hne
      refine ⟨s.writeBuffer, ?_, Or.inr ⟨hne, ?_⟩⟩
      · rw [taken, hemp]
        rfl
      · rw [writeLoop, hemp]
        rfl
    | failed errno => exact absurd h id

/-! ### The socket and its journal -/

/-- The socket, with the data written since `Connect` and the bytes that `write` has accepted. -/
structure Sent where
  sock : TcpSocket
  written : List Byte := []
  accepted : List Byte := []

/-- A call of the socket's users, `Write` with the outcomes of the write loop it runs. -/
inductive Call where
  | write (data : List Byte) (rs : List WriteResult)
  | suspend
  | resume

/-- What happens on a connection: a call, or the socket is writable; `on_connect_`, where that is the first
time, makes some calls. -/
inductive Event where
  | call (c : Call)
  | writable (onConnect : List Call) (rs : List WriteResult)

namespace Sent

/-- The second half of `HandleWritable`. -/
def flush (rs : List WriteResult) (q : Sent) : Sent :=
  { q with
    sock := q.sock.flush rs
    accepted := q.accepted ++ taken rs q.sock.writeBuffer }

/-- The data is queued. -/
def queue (data : List Byte) (q : Sent) : Sent :=
  { q with
    sock := q.sock.queue data
    written := q.written ++ data }

/-- `Write`. -/
def write (data : List Byte) (rs : List WriteResult) (q : Sent) : Sent :=
  let q := q.queue data
  if q.sock.handle.isSome && q.sock.connected && !q.sock.writeBuffer.isEmpty then q.flush rs else q

/-- One call. -/
def call (q : Sent) : Call → Sent
  | .write data rs => q.write data rs
  | .suspend => { q with sock := q.sock.suspend }
  | .resume => { q with sock := q.sock.resume }

/-- The first half of `HandleWritable`, up to `on_connect_`. -/
def connectDone (q : Sent) : Sent := { q with sock := q.sock.connectDone.1 }

/-- The calls of `on_connect_`, where it is called. -/
def connectCalls (onConnect : List Call) (q : Sent) : Sent :=
  if q.sock.connectDone.2 then Runs.run call q.connectDone onConnect else q.connectDone

/-- `HandleWritable`. -/
def handleWritable (onConnect : List Call) (rs : List WriteResult) (q : Sent) : Sent :=
  (q.connectCalls onConnect).flush rs

/-- One event; the event loop only calls a registered socket. -/
def step (q : Sent) : Event → Sent
  | .call c => q.call c
  | .writable onConnect rs => if q.sock.handle.isSome then q.handleWritable onConnect rs else q

/-- A new connection of the socket. -/
def opened (fd : ℤ) (s : TcpSocket) : Sent := { sock := s.connect (.started fd) }

/-- `Write` finds a connected socket with something to write. -/
def Ready (s : TcpSocket) : Bool := s.handle.isSome && s.connected && !s.writeBuffer.isEmpty

theorem write_ready {q : Sent} {data : List Byte} (h : Ready (q.queue data).sock = true) (rs : List WriteResult) :
    q.write data rs = (q.queue data).flush rs := if_pos h

theorem write_waiting {q : Sent} {data : List Byte} (h : ¬Ready (q.queue data).sock = true)
    (rs : List WriteResult) : q.write data rs = q.queue data := if_neg h

/-- `Write` is the socket's, whatever `on_connect_` is: it runs on a connected socket only. -/
theorem write_sock (q : Sent) (data : List Byte) (onConnect : TcpSocket → TcpSocket) (rs : List WriteResult) :
    (q.write data rs).sock = q.sock.write data onConnect rs := by
  by_cases h : Ready (q.queue data).sock = true
  · have hw : q.sock.write data onConnect rs = (q.sock.queue data).handleWritable onConnect rs := if_pos h
    have hc : (q.sock.queue data).connected = true := by
      simp only [Ready, Bool.and_eq_true] at h
      exact h.1.2
    rw [write_ready h, hw, TcpSocket.handleWritable, TcpSocket.connectDone, if_pos hc]
    rfl
  · have hw : q.sock.write data onConnect rs = q.sock.queue data := if_neg h
    rw [write_waiting h, hw]
    rfl

/-- `HandleWritable` is the socket's, with the same calls in `on_connect_`. -/
theorem handleWritable_sock (q : Sent) (calls : List Call) (onConnect : TcpSocket → TcpSocket)
    (rs : List WriteResult) (h : onConnect q.sock.connectDone.1 = (Runs.run call q.connectDone calls).sock) :
    (q.handleWritable calls rs).sock = q.sock.handleWritable onConnect rs := by
  rw [handleWritable, TcpSocket.handleWritable, connectCalls]
  simp only [flush]
  split
  · rw [h]
  · rfl

end Sent

/-! ### What a socket that is not registered keeps -/

/-- Nothing is queued or watched for on a socket that is not registered. -/
def Fresh (s : TcpSocket) : Prop :=
  s.handle = none → s.connected = false ∧ s.watchingWrite = false ∧ s.writeBuffer = []

theorem updateEpollFlags_handle {s : TcpSocket} : s.updateEpollFlags.handle = none ↔ s.handle = none := by
  rw [updateEpollFlags]
  split
  · exact Iff.rfl
  · rename_i h
    rw [Bool.not_eq_true, Bool.or_eq_false_iff] at h
    refine iff_of_false (by simp) fun hn => ?_
    rw [hn] at h
    exact absurd h.1 (by simp)

theorem fresh_updateEpollFlags {s : TcpSocket} (h : Fresh s) : Fresh s.updateEpollFlags := by
  intro hn
  have hs := updateEpollFlags_handle.mp hn
  rw [updateEpollFlags, hs]
  exact h hs

theorem fresh_suspend {s : TcpSocket} (h : Fresh s) : Fresh s.suspend := by
  rw [suspend]
  simp only
  split
  · rw [pauseRead]
    split
    · exact h
    · exact fresh_updateEpollFlags (s := { s with suspendCount := s.suspendCount + 1, readPaused := true }) h
  · exact h

theorem fresh_resume {s : TcpSocket} (h : Fresh s) : Fresh s.resume := by
  rw [resume]
  simp only
  split
  · rw [resumeRead]
    split
    · exact h
    · exact fresh_updateEpollFlags (s := { s with suspendCount := s.suspendCount - 1, readPaused := false }) h
  · exact h

theorem fresh_connect {s : TcpSocket} (h : Fresh s) (r : ConnectResult) : Fresh (s.connect r) := by
  cases r with
  | noSocket errno => exact h
  | refused errno => exact h
  | started fd => exact fun hn => absurd hn (by simp [connect])

theorem fresh_queue {s : TcpSocket} (h : Fresh s) (data : List Byte) : Fresh (s.queue data) := by
  rw [queue]
  split
  · exact h
  · rename_i hsome
    exact fun hn => absurd (show s.handle.isNone = true by rw [show s.handle = none from hn]; rfl) hsome

theorem fresh_writeLoop {s : TcpSocket} (h : Fresh s) (rs : List WriteResult) : Fresh (writeLoop rs s).1 := by
  induction rs generalizing s with
  | nil => exact h
  | cons r rs ih =>
    have hsome : s.writeBuffer.isEmpty ≠ true → s.handle ≠ none :=
      fun hne hn => hne (by rw [(h hn).2.2]; rfl)
    cases r with
    | wrote n =>
      simp only [writeLoop]
      split
      · exact h
      · rename_i hne
        exact ih fun hn => absurd hn (hsome hne)
    | again =>
      simp only [writeLoop]
      split
      · exact h
      · rename_i hne
        split
        · exact h
        · exact fun hn => absurd (updateEpollFlags_handle.mp hn) (hsome hne)
    | failed errno =>
      simp only [writeLoop]
      split
      · exact h
      · rename_i hne
        exact fun hn => absurd hn (hsome hne)

theorem fresh_flush {s : TcpSocket} (h : Fresh s) (rs : List WriteResult) : Fresh (s.flush rs) := by
  have hloop := fresh_writeLoop h rs
  rw [flush]
  simp only
  split
  · refine fun hn => ?_
    have hs := updateEpollFlags_handle.mp hn
    rw [updateEpollFlags, show ({ (writeLoop rs s).1 with watchingWrite := false } : TcpSocket).handle = none from hs]
    exact ⟨(hloop hs).1, rfl, (hloop hs).2.2⟩
  · exact hloop

/-- **One call** of any kind. -/
theorem fresh_step {s : TcpSocket} (h : Fresh s) (op : Op) : Fresh (step s op) := by
  cases op with
  | suspend => exact fresh_suspend h
  | resume => exact fresh_resume h
  | connect r => exact fresh_connect h r
  | connectDone =>
    rw [step]
    split
    · rename_i hsome
      rw [connectDone]
      split
      · exact h
      · refine fun hn => absurd (updateEpollFlags_handle.mp hn) ?_
        exact Option.isSome_iff_ne_none.mp hsome
    · exact h
  | queue data => exact fresh_queue h data
  | flush rs => exact fresh_flush h rs
  | close => exact fun _ => ⟨rfl, rfl, rfl⟩

/-! ### What a connection keeps -/

/-- The write interest that was passed to the handle. -/
def Armed (s : TcpSocket) (b : Bool) : Prop :=
  s.watchingWrite = b ∧ ∃ interest, s.handle = some interest ∧ interest.wantWrite = b

namespace Sent

/-- The bytes accepted, then the buffer, are the bytes written; once connected, **the write interest is armed
exactly while the buffer has bytes**. -/
structure Kept (q : Sent) : Prop where
  conserved : q.accepted ++ q.sock.writeBuffer = q.written
  armed : q.sock.connected = true → q.sock.writeBuffer ≠ [] → Armed q.sock true
  unarmed : q.sock.connected = true → q.sock.writeBuffer = [] → Armed q.sock false

/-- What holds also inside `on_connect_`, where the bytes queued before may not be watched for yet. -/
structure Open (q : Sent) : Prop where
  registered : q.sock.handle ≠ none
  conserved : q.accepted ++ q.sock.writeBuffer = q.written
  unwatched : q.sock.connected = false → q.sock.watchingWrite = false
  passed : q.sock.connected = true → Armed q.sock q.sock.watchingWrite
  watched : q.sock.watchingWrite = true → q.sock.writeBuffer ≠ []

/-- Where the buffer is watched while it has bytes, too. -/
def Settled (q : Sent) : Prop :=
  Open q ∧ (q.sock.connected = true → q.sock.writeBuffer ≠ [] → q.sock.watchingWrite = true)

theorem Settled.kept {q : Sent} (h : Settled q) : Kept q := by
  refine ⟨h.1.conserved, fun hc hne => ?_, fun hc hnil => ?_⟩
  · rw [← h.2 hc hne]
    exact h.1.passed hc
  · have hw : q.sock.watchingWrite = false := by
      by_contra hw
      exact h.1.watched (eq_true_of_ne_false hw) hnil
    rw [← hw]
    exact h.1.passed hc

/-- `UpdateEpollFlags` passes on what is watched for. -/
theorem armed_updateEpollFlags {s : TcpSocket} (hreg : s.handle ≠ none) (hc : s.connected = true) :
    Armed s.updateEpollFlags s.watchingWrite := by
  rw [updateEpollFlags, hc, Option.isNone_eq_false_iff.mpr (Option.isSome_iff_ne_none.mpr hreg)]
  exact ⟨rfl, _, rfl, rfl⟩

theorem updateEpollFlags_eq (s : TcpSocket) : ∃ handle, s.updateEpollFlags = { s with handle := handle } := by
  rw [updateEpollFlags]
  split
  · exact ⟨s.handle, rfl⟩
  · exact ⟨_, rfl⟩

/-- The flags are updated: what is watched for need not have been passed before. -/
theorem open_update {q : Sent} (hreg : q.sock.handle ≠ none)
    (hcons : q.accepted ++ q.sock.writeBuffer = q.written)
    (hun : q.sock.connected = false → q.sock.watchingWrite = false)
    (hw : q.sock.watchingWrite = true → q.sock.writeBuffer ≠ []) :
    Open { q with sock := q.sock.updateEpollFlags } := by
  have harm := armed_updateEpollFlags hreg
  have hreg' : q.sock.updateEpollFlags.handle ≠ none := fun hn => hreg (updateEpollFlags_handle.mp hn)
  obtain ⟨handle, heq⟩ := updateEpollFlags_eq q.sock
  rw [heq] at harm hreg' ⊢
  exact ⟨hreg', hcons, hun, harm, hw⟩

/-- The state inside `on_connect_`. -/
def Connected (q : Sent) : Prop := Open q ∧ q.sock.connected = true

/-- What changes of the read side keep, passed to the handle or not, `Suspend` and `Resume` keep. -/
theorem pauses_keep {P : Sent → Prop}
    (hread : ∀ q n p, P q → P { q with sock := { q.sock with suspendCount := n, readPaused := p } })
    (hup : ∀ q, P q → P { q with sock := q.sock.updateEpollFlags }) {q : Sent} (h : P q) :
    P { q with sock := q.sock.suspend } ∧ P { q with sock := q.sock.resume } := by
  constructor
  · rw [suspend]
    simp only
    split
    · rw [pauseRead]
      split
      · exact hread q _ q.sock.readPaused h
      · exact hup _ (hread q (q.sock.suspendCount + 1) true h)
    · exact hread q _ q.sock.readPaused h
  · rw [resume]
    simp only
    split
    · rw [resumeRead]
      split
      · exact hread q _ q.sock.readPaused h
      · exact hup _ (hread q (q.sock.suspendCount - 1) false h)
    · exact hread q _ q.sock.readPaused h

theorem settled_pauses {q : Sent} (h : Settled q) :
    Settled { q with sock := q.sock.suspend } ∧ Settled { q with sock := q.sock.resume } := by
  refine pauses_keep (fun q n p h => ?_) (fun q h => ?_) h
  · exact ⟨⟨h.1.registered, h.1.conserved, h.1.unwatched, h.1.passed, h.1.watched⟩, h.2⟩
  · refine ⟨open_update h.1.registered h.1.conserved h.1.unwatched h.1.watched, ?_⟩
    obtain ⟨handle, heq⟩ := updateEpollFlags_eq q.sock
    rw [heq]
    exact h.2

theorem connected_pauses {q : Sent} (h : Connected q) :
    Connected { q with sock := q.sock.suspend } ∧ Connected { q with sock := q.sock.resume } := by
  refine pauses_keep (fun q n p h => ?_) (fun q h => ?_) h
  · exact ⟨⟨h.1.registered, h.1.conserved, h.1.unwatched, h.1.passed, h.1.watched⟩, h.2⟩
  · refine ⟨open_update h.1.registered h.1.conserved h.1.unwatched h.1.watched, ?_⟩
    obtain ⟨handle, heq⟩ := updateEpollFlags_eq q.sock
    rw [heq]
    exact h.2

/-! ### The write loop -/

theorem Open.queue {q : Sent} (h : Open q) (data : List Byte) : Open (q.queue data) := by
  have hq : q.sock.queue data = { q.sock with writeBuffer := q.sock.writeBuffer ++ data } :=
    if_neg fun hn => h.registered (Option.isNone_iff_eq_none.mp hn)
  rw [Sent.queue, hq]
  refine ⟨h.registered, ?_, h.unwatched, h.passed, fun hw => ?_⟩
  · show q.accepted ++ (q.sock.writeBuffer ++ data) = q.written ++ data
    rw [← List.append_assoc, h.conserved]
  · exact List.append_ne_nil_of_left_ne_nil (h.watched hw) data

/-- **The second half of `HandleWritable`** drains the buffer, or leaves it watched. -/
theorem settled_flush {q : Sent} (h : Connected q) {rs : List WriteResult}
    (hrs : Answers rs q.sock.writeBuffer) : Settled (q.flush rs) ∧ (q.flush rs).sock.connected = true := by
  obtain ⟨h, hc⟩ := h
  obtain ⟨rest, happ, hend⟩ := writeLoop_spec hrs
  have hcons : (q.accepted ++ taken rs q.sock.writeBuffer) ++ rest = q.written := by
    rw [List.append_assoc, happ, h.conserved]
  rw [Sent.flush, TcpSocket.flush]
  rcases hend with ⟨rfl, hloop⟩ | ⟨hne, hloop⟩
  · -- drained: the buffer is no longer watched
    rw [hloop]
    simp only [Bool.true_and]
    split
    · have ho := open_update (q := { q with
          sock := { q.sock with writeBuffer := [], watchingWrite := false }
          accepted := q.accepted ++ taken rs q.sock.writeBuffer })
        h.registered hcons (fun _ => rfl) (fun hw => absurd hw (by simp))
      refine ⟨⟨ho, ?_⟩, ?_⟩
      all_goals
        obtain ⟨handle, heq⟩ := updateEpollFlags_eq { q.sock with writeBuffer := [], watchingWrite := false }
        rw [heq]
      · exact fun _ hnil => absurd rfl hnil
      · exact hc
    · rename_i hw
      exact ⟨⟨⟨h.registered, hcons, h.unwatched, h.passed, fun hw' => absurd hw' hw⟩,
        fun _ hnil => absurd rfl hnil⟩, hc⟩
  · -- the socket would block: the rest is watched from here on
    rw [hloop]
    simp only [Bool.false_and, Bool.false_eq_true, if_false, watch]
    split
    · rename_i hw
      exact ⟨⟨⟨h.registered, hcons, h.unwatched, h.passed, fun _ => hne⟩, fun _ _ => hw⟩, hc⟩
    · have ho := open_update (q := { q with
          sock := { q.sock with writeBuffer := rest, watchingWrite := true }
          accepted := q.accepted ++ taken rs q.sock.writeBuffer })
        h.registered hcons (fun hc' => absurd (hc.symm.trans hc') (by simp)) (fun _ => hne)
      refine ⟨⟨ho, ?_⟩, ?_⟩
      all_goals
        obtain ⟨handle, heq⟩ := updateEpollFlags_eq { q.sock with writeBuffer := rest, watchingWrite := true }
        rw [heq]
      · exact fun _ _ => rfl
      · exact hc

/-! ### The calls -/

/-- The write loop that a call runs has its outcomes. -/
def Answered (q : Sent) : Call → Prop
  | .write data rs => Ready (q.queue data).sock = true → Answers rs (q.queue data).sock.writeBuffer
  | .suspend => True
  | .resume => True

theorem queue_settled {q : Sent} (h : Open q) {data : List Byte} (hready : ¬Ready (q.queue data).sock = true) :
    (q.queue data).sock.connected = true → (q.queue data).sock.writeBuffer ≠ [] →
      (q.queue data).sock.watchingWrite = true := by
  intro hc hne
  refine absurd ?_ hready
  rw [Ready, hc, Option.isSome_iff_ne_none.mpr (h.queue data).registered]
  rw [← List.isEmpty_eq_false_iff] at hne
  rw [hne]
  rfl

/-- **`Write` settles the socket**, from inside `on_connect_`, too. -/
theorem settled_write {q : Sent} (h : Open q) {data : List Byte} {rs : List WriteResult}
    (hrs : Answered q (.write data rs)) :
    Settled (q.write data rs) ∧ (q.sock.connected = true → (q.write data rs).sock.connected = true) := by
  by_cases hready : Ready (q.queue data).sock = true
  · rw [write_ready hready]
    have hc : (q.queue data).sock.connected = true := by
      simp only [Ready, Bool.and_eq_true] at hready
      exact hready.1.2
    obtain ⟨hs, hc'⟩ := settled_flush ⟨h.queue data, hc⟩ (hrs hready)
    exact ⟨hs, fun _ => hc'⟩
  · rw [write_waiting hready]
    refine ⟨⟨h.queue data, queue_settled h hready⟩, fun hc => ?_⟩
    show (q.sock.queue data).connected = true
    rw [TcpSocket.queue]
    split <;> exact hc

theorem settled_call {q : Sent} (h : Settled q) {c : Call} (hc : Answered q c) : Settled (q.call c) := by
  cases c with
  | write data rs => exact (settled_write h.1 hc).1
  | suspend => exact (settled_pauses h).1
  | resume => exact (settled_pauses h).2

theorem connected_call {q : Sent} (h : Connected q) {c : Call} (hc : Answered q c) : Connected (q.call c) := by
  cases c with
  | write data rs =>
    obtain ⟨hs, hconn⟩ := settled_write h.1 hc
    exact ⟨hs.1, hconn h.2⟩
  | suspend => exact (connected_pauses h).1
  | resume => exact (connected_pauses h).2

theorem connected_connectDone {q : Sent} (h : Open q) : Connected q.connectDone := by
  rw [Sent.connectDone, TcpSocket.connectDone]
  split
  · rename_i hc
    exact ⟨h, hc⟩
  · rename_i hc
    have hw := h.unwatched (eq_false_of_ne_true hc)
    have ho := open_update (q := { q with sock := { q.sock with connected := true } }) h.registered h.conserved
      (fun hc' => absurd hc' (by simp)) h.watched
    refine ⟨ho, ?_⟩
    obtain ⟨handle, heq⟩ := updateEpollFlags_eq { q.sock with connected := true }
    show ({ q.sock with connected := true } : TcpSocket).updateEpollFlags.connected = true
    rw [heq]

/-! ### Runs -/

/-- The write loops that an event runs have their outcomes. -/
def EventAnswered (q : Sent) : Event → Prop
  | .call c => Answered q c
  | .writable onConnect rs => (q.sock.connectDone.2 = true → Runs.Along Answered call q.connectDone onConnect) ∧
      Answers rs (q.connectCalls onConnect).sock.writeBuffer

/-- Every call of an event returns in a state with the property: the call or the handler itself, and each `Write`
of `on_connect_`. -/
def Returns (P : Sent → Prop) (q : Sent) : Event → Prop
  | .call c => P (q.call c)
  | .writable onConnect rs => P (q.step (.writable onConnect rs)) ∧
      (q.sock.connectDone.2 = true → ∀ before data rs', before ++ [.write data rs'] <+: onConnect →
        P (Runs.run call q.connectDone (before ++ [.write data rs'])))

theorem connected_run_step : ∀ q c, Connected q → Answered q c → Connected (call q c) :=
  fun _ _ h hc => connected_call h hc

theorem connected_connectCalls {q : Sent} (h : Open q) {onConnect : List Call}
    (hc : q.sock.connectDone.2 = true → Runs.Along Answered call q.connectDone onConnect) :
    Connected (q.connectCalls onConnect) := by
  have hdone := connected_connectDone h
  rw [connectCalls]
  split
  · rename_i hflag
    exact Runs.run_preserves connected_run_step hdone (hc hflag)
  · exact hdone

/-- **One event.** -/
theorem settled_step {q : Sent} (h : Settled q) {ev : Event} (hev : EventAnswered q ev) :
    Settled (q.step ev) ∧ Returns Kept q ev := by
  cases ev with
  | call c =>
    have hs := settled_call h hev
    exact ⟨hs, hs.kept⟩
  | writable onConnect rs =>
    obtain ⟨hcalls, hrs⟩ := hev
    have hs : Settled (q.step (.writable onConnect rs)) := by
      rw [step]
      split
      · exact (settled_flush (connected_connectCalls h.1 hcalls) hrs).1
      · exact h
    refine ⟨hs, hs.kept, fun hflag before data rs' hb => ?_⟩
    obtain ⟨after, rfl⟩ := hb
    have halong := ((Runs.along_append _ _ _ _ _).mp ((Runs.along_append _ _ _ _ _).mp (hcalls hflag)).1)
    have hbefore := Runs.run_preserves connected_run_step (connected_connectDone h.1) halong.1
    rw [Runs.run_concat]
    exact (settled_write hbefore.1 halong.2.1).1.kept

theorem settled_opened {s : TcpSocket} (hs : Fresh s) (hn : s.handle = none) (fd : ℤ) :
    Settled (opened fd s) := by
  obtain ⟨hc, hw, hb⟩ := hs hn
  refine ⟨⟨by simp [opened, connect], hb, fun _ => hw, fun hc' => ?_, fun hw' => ?_⟩, fun hc' => ?_⟩
  · exact absurd (hc.symm.trans hc') (by simp)
  · exact absurd (hw.symm.trans hw') (by simp)
  · exact absurd (hc.symm.trans hc') (by simp)

theorem along_returns {q : Sent} (h : Settled q) {evs : List Event}
    (hevs : Runs.Along EventAnswered step q evs) : Runs.Along (Returns Kept) step q evs := by
  induction evs generalizing q with
  | nil => trivial
  | cons ev evs ih =>
    obtain ⟨hs, hr⟩ := settled_step h hevs.1
    exact ⟨hr, ih hs hevs.2⟩

end Sent

open Sent

/-- **The write queue is kept.**  On every connection of a socket, after any calls before it, and in every run of
calls and writable events on it, each call returns with the bytes accepted and then the buffer equal to the bytes
written, and, once connected, with the write interest armed and passed to the handle exactly while the buffer has
bytes. -/
theorem queue_kept (ops : List Op) (fd : ℤ) (evs : List Event) (hn : (Runs.run step {} ops).handle = none)
    (hevs : Runs.Along EventAnswered Sent.step (opened fd (Runs.run step {} ops)) evs) :
    Runs.Along (Returns Kept) Sent.step (opened fd (Runs.run step {} ops)) evs := by
  have h0 : Fresh {} := fun _ => ⟨rfl, rfl, rfl⟩
  have hstep : ∀ s op, Fresh s → Fresh (step s op) := fun _ op h => fresh_step h op
  have hfresh := Runs.run_invariant hstep h0 ops
  exact along_returns (settled_opened hfresh hn fd) hevs

/-- Data queued before the connection is up, more in `on_connect_`, and a socket that takes one byte, then
blocks, then takes the rest. -/
theorem queue_kept_run :
    (Runs.run Sent.step (opened 3 {}) [.call (.write [1, 2] []),
      .writable [.write [3] [.wrote 1, .again]] [.again], .writable [] [.wrote 2]]).accepted = [1, 2, 3] := by
  have h := queue_kept [] 3 [.call (.write [1, 2] []),
    .writable [.write [3] [.wrote 1, .again]] [.again], .writable [] [.wrote 2]] rfl
    ⟨fun hr => absurd hr (by decide), ⟨fun _ => ⟨fun _ => by decide, trivial⟩, by decide⟩,
      ⟨fun hr => absurd hr (by decide), by decide⟩, trivial⟩
  have hlast := h.2.2.1.1.conserved
  exact hlast

end DbnPipe.TcpSocket
