import DbnPipe.Stream.Component
import DbnPipe.Library.Runs

/-!
# The TCP socket

`TcpSocket` of `lib/stream/tcp_socket.hpp`, the head of every chain.

* `TcpSocket` — the members, next to the calls made to the downstream;
* `suspend`, `resume`, `connect`, `write`, `close` — the public functions;
* `connectDone`, `flush` — the two halves of `HandleWritable`, before and after `on_connect_`;
* `handleReadable`, `handleError` — the other handlers, with what the downstream does in the calls they make;
* `reads_iff_not_suspended` — **a suspended socket does not read**, as long as it was not suspended before it
  was connected.

An event handle is the interest last passed to it: at `Register`, or by `Update`.  Results of system calls are
inputs.
-/

namespace DbnPipe

/-- What an event handle watches for. -/
structure Interest where
  wantRead : Bool
  wantWrite : Bool
deriving DecidableEq, Repr

/-- A call of the downstream. -/
inductive SocketCall where
  | data (chunks : List (List Byte))
  | error (e : Error)
  | done

/-- `TcpSocket`.  `suspend_count_` is an `int`. -/
structure TcpSocket where
  handle : Option Interest := none
  fd : ℤ := -1
  connected : Bool := false
  readPaused : Bool := false
  watchingWrite : Bool := false
  suspendCount : ℤ := 0
  writeBuffer : List Byte := []
  calls : List SocketCall := []

namespace TcpSocket

/-- The outcome of `socket` and `connect`; a connection in progress has started. -/
inductive ConnectResult where
  | noSocket (errno : ℤ)
  | refused (errno : ℤ)
  | started (fd : ℤ)

/-- The outcome of one `write`: it takes at least one byte. -/
inductive WriteResult where
  | wrote (n : ℕ)
  | again
  | failed (errno : ℤ)

/-- How the read loop ends. -/
inductive ReadEnd where
  | eof
  | again
  | failed (errno : ℤ)

/-- A call of the downstream is made. -/
def tell (call : SocketCall) (s : TcpSocket) : TcpSocket := { s with calls := s.calls ++ [call] }

/-- `downstream_->OnError(Error{ErrorCode::ConnectionFailed, message, errno})`. -/
def tellError (message : String) (errno : ℤ) : TcpSocket → TcpSocket :=
  tell (.error { code := .connectionFailed, message := message, osErrno := errno })

/-- `UpdateEpollFlags`. -/
def updateEpollFlags (s : TcpSocket) : TcpSocket :=
  if s.handle.isNone || !s.connected then s
  else { s with handle := some ⟨!s.readPaused, s.watchingWrite⟩ }

/-- `PauseRead`. -/
def pauseRead (s : TcpSocket) : TcpSocket :=
  if s.readPaused || s.handle.isNone then s else { s with readPaused := true }.updateEpollFlags

/-- `ResumeRead`. -/
def resumeRead (s : TcpSocket) : TcpSocket :=
  if !s.readPaused || s.handle.isNone then s else { s with readPaused := false }.updateEpollFlags

/-- `Suspend`. -/
def suspend (s : TcpSocket) : TcpSocket :=
  let s := { s with suspendCount := s.suspendCount + 1 }
  if s.suspendCount = 1 then s.pauseRead else s

/-- `Resume`; the assertion `suspend_count_ > 0` is the caller's obligation. -/
def resume (s : TcpSocket) : TcpSocket :=
  let s := { s with suspendCount := s.suspendCount - 1 }
  if s.suspendCount = 0 then s.resumeRead else s

/-- `Close`. -/
def close (s : TcpSocket) : TcpSocket :=
  { s with
    handle := none
    fd := -1
    connected := false
    readPaused := false
    watchingWrite := false
    suspendCount := 0
    writeBuffer := [] }

/-- `Connect`. -/
def connect (r : ConnectResult) (s : TcpSocket) : TcpSocket :=
  match r with
  | .noSocket errno => s.tellError "socket() failed" errno
  | .refused errno => s.tellError "connect() failed" errno
  | .started fd => { s with fd := fd, handle := some ⟨true, true⟩ }

/-- The first half of `HandleWritable`, up to `on_connect_`: the flag tells whether that is called. -/
def connectDone (s : TcpSocket) : TcpSocket × Bool :=
  if s.connected then (s, false) else ({ s with connected := true }.updateEpollFlags, true)

/-- The write loop. -/
def writeLoop : List WriteResult → TcpSocket → TcpSocket × Bool
  | [], s => (s, s.writeBuffer.isEmpty)
  | r :: rs, s =>
    if s.writeBuffer.isEmpty then (s, true)
    else
      match r with
      | .wrote n => writeLoop rs { s with writeBuffer := s.writeBuffer.drop n }
      | .again =>
        (if s.watchingWrite then s else { s with watchingWrite := true }.updateEpollFlags, false)
      | .failed errno => (s.tellError "write() failed" errno, false)

/-- The second half of `HandleWritable`; where the results run out the buffer is written no further. -/
def flush (rs : List WriteResult) (s : TcpSocket) : TcpSocket :=
  let r := writeLoop rs s
  if r.2 && r.1.watchingWrite then { r.1 with watchingWrite := false }.updateEpollFlags else r.1

/-- `HandleWritable`. -/
def handleWritable (onConnect : TcpSocket → TcpSocket) (rs : List WriteResult) (s : TcpSocket) :
    TcpSocket :=
  let r := s.connectDone
  (if r.2 then onConnect r.1 else r.1).flush rs

/-- The part of `Write` before it calls `HandleWritable`: the data is queued. -/
def queue (data : List Byte) (s : TcpSocket) : TcpSocket :=
  if s.handle.isNone then s else { s with writeBuffer := s.writeBuffer ++ data }

/-- `Write`. -/
def write (data : List Byte) (onConnect : TcpSocket → TcpSocket) (rs : List WriteResult) (s : TcpSocket) :
    TcpSocket :=
  let s' := s.queue data
  if s'.handle.isSome && s'.connected && !s'.writeBuffer.isEmpty then s'.handleWritable onConnect rs else s'

section Callbacks

variable {ω : Type} (onSocket : (TcpSocket → TcpSocket) → ω → ω) (call : SocketCall → ω → ω)

/-- `HandleReadable`, given what was read and how the loop ended.  The socket is part of a world `ω`;
`call` is a call of the downstream, which may change all of it. -/
def handleReadable (chunks : List (List Byte)) (r : ReadEnd) (w : ω) : ω :=
  let w := if chunks.isEmpty then w else call (.data chunks) w
  match r with
  | .again => w
  | .eof => call .done (onSocket close w)
  | .failed errno =>
    call (.error { code := .connectionFailed, message := "read() failed", osErrno := errno }) w

/-- The handler of socket errors that is passed to `Register`. -/
def handleError (errno : ℤ) (w : ω) : ω :=
  onSocket close
    (call (.error { code := .connectionFailed, message := "socket error", osErrno := errno }) w)

end Callbacks

/-! ### The count -/

theorem updateEpollFlags_count (s : TcpSocket) : s.updateEpollFlags.suspendCount = s.suspendCount := by
  rw [updateEpollFlags]
  split <;> rfl

theorem suspend_count (s : TcpSocket) : s.suspend.suspendCount = s.suspendCount + 1 := by
  rw [suspend]
  simp only
  split
  · rw [pauseRead]
    split
    · rfl
    · rw [updateEpollFlags_count]
  · rfl

theorem resume_count (s : TcpSocket) : s.resume.suspendCount = s.suspendCount - 1 := by
  rw [resume]
  simp only
  split
  · rw [resumeRead]
    split
    · rfl
    · rw [updateEpollFlags_count]
  · rfl

theorem connect_count (s : TcpSocket) (r : ConnectResult) : (s.connect r).suspendCount = s.suspendCount := by
  cases r <;> rfl

theorem connectDone_count (s : TcpSocket) : s.connectDone.1.suspendCount = s.suspendCount := by
  rw [connectDone]
  split
  · rfl
  · exact updateEpollFlags_count _

theorem queue_count (s : TcpSocket) (data : List Byte) : (s.queue data).suspendCount = s.suspendCount := by
  rw [queue]
  split <;> rfl

theorem writeLoop_count (rs : List WriteResult) (s : TcpSocket) :
    (writeLoop rs s).1.suspendCount = s.suspendCount := by
  induction rs generalizing s with
  | nil => rfl
  | cons r rs ih =>
    cases r with
    | wrote n =>
      simp only [writeLoop]
      split
      · rfl
      · rw [ih]
    | again =>
      simp only [writeLoop]
      split
      · rfl
      · split
        · rfl
        · rw [updateEpollFlags_count]
    | failed errno =>
      simp only [writeLoop]
      split <;> rfl

theorem flush_count (s : TcpSocket) (rs : List WriteResult) :
    (s.flush rs).suspendCount = s.suspendCount := by
  rw [flush]
  simp only
  split
  · rw [updateEpollFlags_count, writeLoop_count]
  · exact writeLoop_count rs s

/-! ### Any order of calls -/

/-- A call of the socket.  `HandleWritable` is its two halves, with whatever `on_connect_` calls in between. -/
inductive Op where
  | suspend
  | resume
  | connect (r : ConnectResult)
  | connectDone
  | queue (data : List Byte)
  | flush (rs : List WriteResult)
  | close

/-- One call; the event loop only calls a registered socket. -/
def step (s : TcpSocket) : Op → TcpSocket
  | .suspend => s.suspend
  | .resume => s.resume
  | .connect r => s.connect r
  | .connectDone => if s.handle.isSome then s.connectDone.1 else s
  | .queue data => s.queue data
  | .flush rs => s.flush rs
  | .close => s.close

/-- `HandleWritable` is a run of its parts. -/
theorem handleWritable_run (ops : List Op) (rs : List WriteResult) {s : TcpSocket}
    (h : s.handle.isSome = true) (hc : s.connected = false) :
    s.handleWritable (fun s => Runs.run step s ops) rs =
      Runs.run step s (.connectDone :: (ops ++ [.flush rs])) := by
  rw [Runs.run_cons, Runs.run_append, step, if_pos h, handleWritable]
  simp only [connectDone, hc, Bool.false_eq_true, if_false, if_true]
  rfl

/-- Registered and connected, the socket watches for data exactly when it is not suspended. -/
def ReadsRight (s : TcpSocket) : Prop :=
  ∀ interest ∈ s.handle, s.connected = true → (interest.wantRead = true ↔ s.suspendCount = 0)

/-- Every `Resume` has its `Suspend`. -/
def Matched (s : TcpSocket) (op : Op) : Prop :=
  match op with
  | .resume => 0 < s.suspendCount
  | _ => True

/-- The socket is not connected anew while it is connected and suspended, and where it is suspended as it
becomes connected, that has been noted. -/
def PauseNoted (s : TcpSocket) (op : Op) : Prop :=
  match op with
  | .connect (.started _) => s.connected = true → s.suspendCount = 0
  | .connectDone => s.handle.isSome = true → s.connected = false → 0 < s.suspendCount →
      s.readPaused = true
  | _ => True

/-! ### What every call keeps -/

/-- The pause is noted where it matters, and the interest follows it. -/
structure Inv (s : TcpSocket) : Prop where
  count : 0 ≤ s.suspendCount
  unregistered : s.handle = none → s.connected = false ∧ s.readPaused = false
  paused : s.readPaused = true → 0 < s.suspendCount
  noted : s.connected = true → 0 < s.suspendCount → s.readPaused = true
  interest : ∀ i ∈ s.handle, s.connected = true → i.wantRead = !s.readPaused

theorem Inv.readsRight {s : TcpSocket} (h : Inv s) : ReadsRight s := by
  intro i hi hc
  rw [h.interest i hi hc, Bool.not_eq_true']
  have hcount := h.count
  constructor
  · intro hp
    by_contra hne
    rw [h.noted hc (by omega)] at hp
    exact absurd hp (by simp)
  · intro h0
    by_contra hp
    have hpos := h.paused (eq_true_of_ne_false hp)
    omega

theorem inv_start : Inv {} :=
  ⟨Int.le_refl 0, fun _ => ⟨rfl, rfl⟩, fun h => absurd h (by simp), fun h => absurd h (by simp),
    fun _ h => absurd h (by simp)⟩

/-- Updating the flags sets the interest, and nothing else. -/
theorem updateEpollFlags_inv {s : TcpSocket} (hcount : 0 ≤ s.suspendCount)
    (hun : s.handle = none → s.connected = false ∧ s.readPaused = false)
    (hpaused : s.readPaused = true → 0 < s.suspendCount)
    (hnoted : s.connected = true → 0 < s.suspendCount → s.readPaused = true) :
    Inv s.updateEpollFlags := by
  rw [updateEpollFlags]
  split
  · rename_i h
    refine ⟨hcount, hun, hpaused, hnoted, fun i hi hc => ?_⟩
    rw [hc, Bool.not_true, Bool.or_false, Option.isNone_iff_eq_none] at h
    rw [h] at hi
    exact absurd hi (by simp)
  · refine ⟨hcount, fun h => absurd h (by simp), hpaused, hnoted, fun i hi _ => ?_⟩
    rw [← Option.some.inj (Option.mem_def.mp hi)]

/-- Members that the pause does not depend on. -/
theorem Inv.of_eq {s s' : TcpSocket} (h : Inv s) (h1 : s'.suspendCount = s.suspendCount)
    (h2 : s'.handle = s.handle) (h3 : s'.connected = s.connected) (h4 : s'.readPaused = s.readPaused) :
    Inv s' := by
  refine ⟨?_, ?_, ?_, ?_, ?_⟩
  · rw [h1]; exact h.count
  · rw [h2, h3, h4]; exact h.unregistered
  · rw [h1, h4]; exact h.paused
  · rw [h1, h3, h4]; exact h.noted
  · rw [h2, h3, h4]; exact h.interest

theorem Inv.watch {s : TcpSocket} (h : Inv s) (b : Bool) :
    Inv { s with watchingWrite := b }.updateEpollFlags :=
  updateEpollFlags_inv h.count h.unregistered h.paused h.noted

theorem suspend_inv {s : TcpSocket} (h : Inv s) : Inv s.suspend := by
  have hcount := h.count
  rw [suspend]
  simp only
  split
  · rename_i h1
    have h0 : s.suspendCount = 0 := by omega
    have hp : s.readPaused = false := by
      by_contra hp
      have := h.paused (eq_true_of_ne_false hp)
      omega
    rw [pauseRead]
    split
    · rename_i hor
      simp only [hp, Bool.false_or, Option.isNone_iff_eq_none] at hor
      refine ⟨by simp only; omega, h.unregistered, fun _ => by simp only; omega, fun hc => ?_, h.interest⟩
      rw [(h.unregistered hor).1] at hc
      exact absurd hc (by simp)
    · rename_i hor
      simp only [Bool.or_eq_true, not_or, Option.isNone_iff_eq_none] at hor
      exact updateEpollFlags_inv (by simp only; omega) (fun hn => absurd hn hor.2)
        (fun _ => by simp only; omega) (fun _ _ => rfl)
  · exact ⟨by simp only; omega, h.unregistered, fun _ => by simp only; omega,
      fun hc _ => h.noted hc (by omega), h.interest⟩

theorem resume_inv {s : TcpSocket} (h : Inv s) (hpos : 0 < s.suspendCount) : Inv s.resume := by
  rw [resume]
  simp only
  split
  · rename_i h0
    rw [resumeRead]
    split
    · rename_i hor
      have hp : s.readPaused = false := by
        simp only [Bool.or_eq_true, Bool.not_eq_true', Option.isNone_iff_eq_none] at hor
        rcases hor with hp | hn
        · exact hp
        · exact (h.unregistered hn).2
      exact ⟨by simp only; omega, h.unregistered, fun hp' => absurd hp' (by simp [hp]),
        fun _ hlt => absurd hlt (by simp only; omega), h.interest⟩
    · rename_i hor
      simp only [Bool.or_eq_true, not_or, Option.isNone_iff_eq_none] at hor
      exact updateEpollFlags_inv (by simp only; omega) (fun hn => absurd hn hor.2)
        (fun hp => absurd hp (by simp)) (fun _ hlt => absurd hlt (by simp only; omega))
  · exact ⟨by simp only; omega, h.unregistered, fun hp => by have := h.paused hp; simp only; omega,
      fun hc _ => h.noted hc hpos, h.interest⟩

theorem writeLoop_inv {s : TcpSocket} (h : Inv s) (rs : List WriteResult) : Inv (writeLoop rs s).1 := by
  induction rs generalizing s with
  | nil => exact h
  | cons r rs ih =>
    cases r with
    | wrote n =>
      simp only [writeLoop]
      split
      · exact h
      · exact ih (h.of_eq rfl rfl rfl rfl)
    | again =>
      simp only [writeLoop]
      split
      · exact h
      · split
        · exact h
        · exact h.watch true
    | failed errno =>
      simp only [writeLoop]
      split
      · exact h
      · exact h.of_eq rfl rfl rfl rfl

theorem flush_inv {s : TcpSocket} (h : Inv s) (rs : List WriteResult) : Inv (s.flush rs) := by
  rw [flush]
  simp only
  split
  · exact (writeLoop_inv h rs).watch false
  · exact writeLoop_inv h rs

theorem close_inv (s : TcpSocket) : Inv s.close :=
  ⟨Int.le_refl 0, fun _ => ⟨rfl, rfl⟩, fun h => absurd h (by simp [close]),
    fun h => absurd h (by simp [close]), fun _ h => absurd h (by simp [close])⟩

/-- **One call**: a noted pause is kept, and a pause that is not noted shows at once. -/
theorem step_inv {s : TcpSocket} (h : Inv s) {op : Op} (hm : Matched s op) :
    (PauseNoted s op → Inv (step s op)) ∧ (ReadsRight (step s op) → PauseNoted s op) := by
  cases op with
  | suspend => exact ⟨fun _ => suspend_inv h, fun _ => trivial⟩
  | resume => exact ⟨fun _ => resume_inv h hm, fun _ => trivial⟩
  | connect r =>
    cases r with
    | noSocket errno => exact ⟨fun _ => h.of_eq rfl rfl rfl rfl, fun _ => trivial⟩
    | refused errno => exact ⟨fun _ => h.of_eq rfl rfl rfl rfl, fun _ => trivial⟩
    | started fd =>
      constructor
      · intro hn
        refine ⟨h.count, fun hnone => absurd hnone (by simp [step, connect]), h.paused, h.noted, ?_⟩
        intro i hi hc
        have h0 := hn hc
        have hp : s.readPaused = false := by
          by_contra hp
          have := h.paused (eq_true_of_ne_false hp)
          omega
        show i.wantRead = !s.readPaused
        rw [hp, ← Option.some.inj (Option.mem_def.mp hi)]
        rfl
      · intro hr hc
        exact (hr ⟨true, true⟩ rfl hc).mp rfl
  | connectDone =>
    rw [step]
    split
    · rename_i hh
      rw [connectDone]
      split
      · rename_i hc
        exact ⟨fun _ => h, fun _ _ hc' => absurd hc' (by simp [hc])⟩
      · rename_i hc
        have hnone : s.handle ≠ none := Option.isSome_iff_ne_none.mp hh
        constructor
        · intro hn
          exact updateEpollFlags_inv h.count (fun he => absurd he hnone) h.paused
            (fun _ hpos => hn hh (eq_false_of_ne_true hc) hpos)
        · intro hr _ _ hpos
          simp only [updateEpollFlags, Option.isNone_iff_eq_none, hnone, Bool.not_true, Bool.or_false,
            if_false] at hr
          by_contra hp
          have h0 := (hr _ rfl rfl).mp (by simp [hp])
          simp only at h0
          omega
    · rename_i hh
      exact ⟨fun _ => h, fun _ hh' => absurd hh' hh⟩
  | queue data =>
    refine ⟨fun _ => ?_, fun _ => trivial⟩
    rw [step, queue]
    split
    · exact h
    · exact h.of_eq rfl rfl rfl rfl
  | flush rs => exact ⟨fun _ => flush_inv h rs, fun _ => trivial⟩
  | close => exact ⟨fun _ => close_inv s, fun _ => trivial⟩

/-! ### Runs -/

theorem run_reads_iff {s : TcpSocket} (h : Inv s) {ops : List Op} (hm : Runs.Along Matched step s ops) :
    (∀ before, before <+: ops → ReadsRight (Runs.run step s before)) ↔
      Runs.Along PauseNoted step s ops := by
  induction ops generalizing s with
  | nil =>
    refine iff_of_true (fun before hb => ?_) trivial
    rw [List.prefix_nil.mp hb]
    exact h.readsRight
  | cons op ops ih =>
    obtain ⟨h1, h2⟩ := step_inv h hm.1
    rw [Runs.Along]
    constructor
    · intro hall
      have hn := h2 (hall [op] ⟨ops, rfl⟩)
      refine ⟨hn, (ih (h1 hn) hm.2).mp fun before hb => ?_⟩
      exact hall (op :: before) (List.cons_prefix_cons.mpr ⟨rfl, hb⟩)
    · rintro ⟨hn, hrest⟩ before hb
      cases before with
      | nil => exact h.readsRight
      | cons op' before =>
        obtain ⟨rfl, hb'⟩ := List.cons_prefix_cons.mp hb
        exact (ih (h1 hn) hm.2).mpr hrest before hb'

/-- **When a suspended socket does not read.**  In every state of a run in which the socket is registered and
connected it watches for data exactly when it is not suspended, if and only if it is never connected anew
while connected and suspended, and a suspension that is there as it becomes connected has been noted: it was
asked for after `Connect`. -/
theorem reads_iff_not_suspended (ops : List Op) (hm : Runs.Along Matched step {} ops) :
    (∀ before, before <+: ops → ReadsRight (Runs.run step {} before)) ↔
      Runs.Along PauseNoted step {} ops :=
  run_reads_iff inv_start hm

theorem reads_iff_not_suspended_run :
    ReadsRight (Runs.run step {} [.connect (.started 3), .suspend, .connectDone]) :=
  (reads_iff_not_suspended [.connect (.started 3), .suspend, .connectDone, .resume]
    ⟨trivial, trivial, trivial, show (0 : ℤ) < 1 by decide, trivial⟩).mpr
    ⟨fun hc => absurd hc (by decide), trivial, fun _ _ _ => rfl, trivial, trivial⟩ _ ⟨[.resume], rfl⟩

/-- **A suspension asked for before `Connect` is lost**: the socket is connected, suspended, and reads. -/
theorem not_reads_iff_not_suspended :
    ¬∀ ops, Runs.Along Matched step {} ops →
      ∀ before, before <+: ops → ReadsRight (Runs.run step {} before) := by
  intro h
  have hr := h [.suspend, .connect (.started 3), .connectDone] ⟨trivial, trivial, trivial, trivial⟩ _
    List.prefix_rfl
  exact absurd ((hr ⟨true, false⟩ rfl rfl).mp rfl) (by decide)

end TcpSocket

end DbnPipe
