import DbnPipe.Stream.TlsRead

/-!
# A TLS session

`TlsTransport` from its creation on, with the write BIO and `FlushWbio`, and with the callback of a complete
handshake, in which the protocol sends its request.

* `Emits` — what the calls of OpenSSL write to the write BIO, a parameter next to `Ssl`;
* `Session` — the transport, the bytes in the write BIO and those given to the upstream;
* `write`, `readLoop`, `processHandshake`, `doClose` and the rest — **the functions of the source with the calls of
  `FlushWbio` that they make**; `comp_step` — without them they are those of `TlsTransport`;
* `Sound`, `sound_step` — what holds between two calls;
* `session_sound` — the theorem, for every run: every encrypted byte goes up once and in order, nothing is read,
  written or delivered before the handshake is complete, and that is told once.

The upstream is the socket, which takes what it is given; an error in that call is not modelled.
-/

namespace DbnPipe.Tls

/-- What the calls of OpenSSL write to the write BIO. -/
structure Emits (S : Ssl) where
  handshake : S.State → List Byte
  read : S.State → List Byte
  write : S.State → List Byte → List Byte
  shutdown : S.State → List Byte

/-- OpenSSL writes nothing where no `FlushWbio` follows on an open transport. -/
structure Emits.Quiet {S : Ssl} (E : Emits S) : Prop where
  read : ∀ ssl, E.read ssl = []
  handshake : ∀ ssl, (S.handshake ssl).1 = .zeroReturn → E.handshake ssl = []

/-- `TlsTransport` with its write BIO.  `sent` went to `upstream_write_`; `discarded` was in the write BIO as it was
freed; `emitted` is all that OpenSSL wrote; `readyCalls` counts `handshake_complete_cb_`. -/
structure Session (S : Ssl) where
  comp : Component (Tls S)
  wbio : List Byte := []
  sent : List Byte := []
  discarded : List Byte := []
  emitted : List Byte := []
  readyCalls : ℕ := 0

namespace Session

variable {S : Ssl}

/-! ### The functions -/

/-- OpenSSL writes to the write BIO. -/
def emit (l : List Byte) (s : Session S) : Session S := { s with wbio := s.wbio ++ l, emitted := s.emitted ++ l }

/-- What does not touch the write BIO. -/
def onComp (f : Component (Tls S) → Component (Tls S)) (s : Session S) : Session S := { s with comp := f s.comp }

/-- `FlushWbio`. -/
def flushWbio (s : Session S) : Session S := { s with sent := s.sent ++ s.wbio, wbio := [] }

/-- A function body under `TryGuard`. -/
def guarded (body : Session S → Session S) (s : Session S) : Session S :=
  if s.comp.closed then s else onComp Component.leave (body (onComp Component.enter s))

variable (E : Emits S)

/-- What the loop over the chain makes OpenSSL write. -/
def writeEmits : ℕ → S.State → Chain → List Byte
  | 0, _, _ => []
  | fuel + 1, ssl, data =>
    if data.empty then []
    else
      match data.dataAt id 0 with
      | none => []
      | some (seg, pos) =>
        let chunk := (seg.bytes.drop pos).take (data.contiguousSize id)
        let r := S.write ssl chunk
        E.write ssl chunk ++
          match r.1 with
          | .accepted n => writeEmits fuel r.2 (data.consume id n)
          | _ => []

/-- The loop ended in `HandleSSLError`. -/
def LoopEnd.isFailed : LoopEnd → Bool
  | .failed _ => true
  | _ => false

/-- The loop over the chain, and `FlushWbio` behind it. -/
def driveWrite (data : Chain) (s : Session S) : Session S :=
  let failed := LoopEnd.isFailed (writeLoop data.totalSize s.comp.own.ssl data s.comp.own.accepted).ending
  let s := emit (writeEmits E data.totalSize s.comp.own.ssl data) (onComp (Tls.driveWrite data) s)
  if failed then s else flushWbio s

/-- `RetryPendingWrites`. -/
def retryPendingWrites (s : Session S) : Session S :=
  if s.comp.own.writePending.empty then s
  else
    let data := s.comp.own.writePending
    driveWrite E data (onComp (update fun t => { t with writePending := data.movedFrom }) s)

/-- `Write`. -/
def write (data : Chain) : Session S → Session S :=
  guarded fun s =>
    if s.comp.own.handshakeState ≠ .complete then
      onComp (fun c => (c.emitError
        { code := .tlsHandshakeFailed, message := "Write called before handshake complete" }).requestClose) s
    else if s.comp.own.writePending.wouldOverflow data.size kMaxPendingWrite then
      onComp (overflow "TLS write buffer overflow") s
    else if !s.comp.own.writePending.empty then
      let data := (Chain.compactAndSplice s.comp.own.writePending data).1
      driveWrite E data (onComp (update fun t => { t with writePending := data.movedFrom }) s)
    else driveWrite E data s

variable (env : ℕ → Reaction)

/-- The loop of `ProcessPendingReads`. -/
def readLoop : ℕ → Session S → Session S
  | 0, s => onComp (update fun t => { t with diverged := true }) s
  | fuel + 1, s =>
    let r := sslRead s.comp
    let s := emit (E.read s.comp.own.ssl) { s with comp := r.2 }
    match r.1 with
    | .data l h =>
      let s := onComp (update fun t => { t with readBytes := t.readBytes ++ l }) s
      if sizeSub kMaxPendingRead s.comp.own.pendingReadChain.size < l.length then
        onComp (overflow "TLS decrypted output buffer overflow") s
      else
        let s := onComp (appendRead l h) s
        if Segment.kSize ≤ s.comp.own.pendingReadChain.size then
          let s := onComp (deliver env) s
          if s.comp.suspended then s else readLoop fuel s
        else readLoop fuel s
    | .wantRead => onComp (deliverPending env) s
    | .wantWrite => retryPendingWrites E (flushWbio (onComp (deliverPending env) s))
    | .zeroReturn => onComp (fun c => if c.suspended then c.deferOnDone else flushAndComplete env c) s
    | .failed e => onComp (handleSSLError e "SSL_read") s

/-- `ProcessPendingReads`. -/
def processPendingReads (s : Session S) : Session S :=
  if s.comp.closed = true ∨ s.comp.own.handshakeState ≠ .complete then s
  else
    let s := onComp (update fun t =>
      { t with pendingReadChain := { t.pendingReadChain with recycleCallback := some 0 } }) s
    if s.comp.suspended then s else readLoop E env (S.available s.comp.own.ssl + 1) s

/-- `handshake_complete_cb_`, in which the protocol writes `requests`. -/
def handshakeCompleteCb (requests : List Chain) (s : Session S) : Session S :=
  requests.foldl (fun s data => write E data s) { s with readyCalls := s.readyCalls + 1 }

variable (requests : List Chain)

/-- `ProcessHandshake`. -/
def processHandshake (s : Session S) : Session S :=
  if s.comp.own.handshakeState = .complete then s
  else
    let r := S.handshake s.comp.own.ssl
    let s := emit (E.handshake s.comp.own.ssl) (onComp (update fun t => { t with ssl := r.2 }) s)
    match r.1 with
    | .complete =>
      let s := flushWbio (onComp (update fun t => { t with handshakeState := .complete }) s)
      let s := if s.comp.suspended then s else processPendingReads E env s
      handshakeCompleteCb E requests s
    | .want => flushWbio s
    | .zeroReturn => onComp (fun c => if c.suspended then c.deferOnDone else flushAndComplete env c) s
    | .failed e => onComp (handleSSLError e "handshake") s

/-- `StartHandshake`. -/
def startHandshake (s : Session S) : Session S :=
  if s.comp.own.handshakeState ≠ .notStarted then s
  else processHandshake E env requests (onComp (update fun t => { t with handshakeState := .inProgress }) s)

/-- `Read`, the body of `OnData`. -/
def read (data : Chain) : Session S → Session S :=
  guarded fun s =>
    let rbioPending := S.bioPending s.comp.own.ssl
    if kMaxRbioSize ≤ rbioPending ∨ kMaxRbioSize - rbioPending < data.size then
      onComp (overflow "TLS encrypted input buffer overflow") s
    else
      let s := onComp (update fun t => { t with ssl := feedLoop data.totalSize t.ssl data }) s
      if s.comp.own.handshakeState ≠ .complete then processHandshake E env requests s
      else processPendingReads E env s

/-- `ProcessPending`. -/
def processPending (s : Session S) : Session S :=
  let r := s.comp.forwardData (·.pendingReadChain) (deliver env)
  let s := { s with comp := r.1 }
  if r.2 then s else processPendingReads E env s

/-- `Resume`, with `ProcessPending` and then the deferred `OnDone`. -/
def resume (s : Session S) : Session S :=
  let prev := s.comp.suspendCount
  let s := onComp (fun c => { c with suspendCount := prev - 1 }) s
  if prev = 1 then
    if s.comp.closed then onComp (Component.completeDeferred (flushAndComplete env)) s
    else
      onComp (fun c => (Component.completeDeferred (flushAndComplete env) c.resumeUpstream).leave)
        (processPending E env (onComp Component.enter s))
  else s

/-- `DoClose`: `SSL_shutdown`, `FlushWbio`, and the connection is freed with its BIOs. -/
def doClose (s : Session S) : Session S :=
  let s :=
    if s.comp.own.tornDown = false ∧ s.comp.own.handshakeState = .complete then
      flushWbio (emit (E.shutdown s.comp.own.ssl) s)
    else s
  onComp (Tls.doClose env) { s with discarded := s.discarded ++ s.wbio, wbio := [] }

/-! ### Runs -/

/-- What can happen from outside. -/
inductive Op where
  | start
  | data (chain : Chain)
  | write (chain : Chain)
  | done
  | error (e : Error)
  | suspend
  | resume
  | requestClose
  | runClose

/-- One input.  The handshake is not started behind `DoClose`, a task that was not posted does not run, nor a
`Resume` without its `Suspend`. -/
def step (s : Session S) : Op → Session S
  | .start => if s.comp.own.tornDown then s else startHandshake E env requests s
  | .data chain => read E env requests chain s
  | .write chain => write E chain s
  | .done => onComp (onDone env) s
  | .error e => onComp (onError e) s
  | .suspend => onComp Component.suspend s
  | .resume => if s.comp.suspended then resume E env s else s
  | .requestClose => onComp Component.requestClose s
  | .runClose => if s.comp.closeScheduled then doClose E env s else s

/-- A new transport. -/
def create (ssl : S.State) : Session S := { comp := { own := { ssl } } }

/-! ### What the functions leave alone -/

/-- What everything but `ProcessHandshake` and `DoClose` leaves alone. -/
structure Frame (c d : Component (Tls S)) : Prop where
  handshakeState : d.own.handshakeState = c.own.handshakeState
  tornDown : d.own.tornDown = c.own.tornDown
  closed : c.closed = true → d.closed = true
  scheduled : (c.closePending = true ∨ c.closeScheduled = true → c.closed = true) →
    d.closePending = true ∨ d.closeScheduled = true → d.closed = true

variable {c d : Component (Tls S)}

theorem Frame.refl (c : Component (Tls S)) : Frame c c := ⟨rfl, rfl, id, id⟩

theorem Frame.trans {e : Component (Tls S)} (h : Frame c d) (h' : Frame d e) : Frame c e :=
  ⟨h'.handshakeState.trans h.handshakeState, h'.tornDown.trans h.tornDown, fun hc => h'.closed (h.closed hc),
    fun hs => h'.scheduled (h.scheduled hs)⟩

/-- What keeps the closing flags. -/
theorem frame_congr (hhandshake : d.own.handshakeState = c.own.handshakeState)
    (htorn : d.own.tornDown = c.own.tornDown) (hclosed : d.closed = c.closed) (hpending : d.closePending = c.closePending)
    (hscheduled : d.closeScheduled = c.closeScheduled) : Frame c d := by
  refine ⟨hhandshake, htorn, ?_, ?_⟩
  · rw [hclosed]
    exact id
  · rw [hclosed, hpending, hscheduled]
    exact id

theorem frame_update (f : Tls S → Tls S) (hhandshake : (f c.own).handshakeState = c.own.handshakeState)
    (htorn : (f c.own).tornDown = c.own.tornDown) : Frame c (update f c) :=
  frame_congr hhandshake htorn rfl rfl rfl

theorem frame_leave (c : Component (Tls S)) : Frame c c.leave := by
  refine ⟨by rw [Component.leave_own], by rw [Component.leave_own], ?_, fun hs hp => ?_⟩
  · rw [Component.leave_closed]
    exact id
  · rw [Component.leave_closed]
    exact hs (Component.leave_scheduled hp)

theorem frame_requestClose (c : Component (Tls S)) : Frame c c.requestClose := by
  have hclosed := Component.requestClose_closed c
  exact ⟨by rw [Component.requestClose_own], by rw [Component.requestClose_own], fun _ => hclosed, fun _ _ => hclosed⟩

theorem frame_error (c : Component (Tls S)) (e : Error) : Frame c (c.emitError e).requestClose := by
  have h := c.failed e
  exact ⟨by rw [h.own], by rw [h.own], fun _ => h.closed, fun _ _ => h.closed⟩

theorem frame_signal (signal : Signal) (c : Component (Tls S)) : Frame c (c.signal signal) := by
  have htold : Frame c { c.enter with signals := c.enter.signals ++ [signal] } := frame_congr rfl rfl rfl rfl rfl
  exact htold.trans (frame_leave _)

theorem frame_emitDone (c : Component (Tls S)) : Frame c c.emitDone := by
  have hfinalized : Frame c { c with finalized := true } := frame_congr rfl rfl rfl rfl rfl
  rw [Component.emitDone]
  split
  · exact .refl c
  · exact hfinalized.trans (frame_signal _ _)

theorem frame_suspend (c : Component (Tls S)) : Frame c c.suspend := by
  rw [Component.suspend]
  split <;> exact frame_congr rfl rfl rfl rfl rfl

theorem frame_suspendTimes (n : ℕ) (c : Component (Tls S)) : Frame c (suspendTimes n c) := by
  induction n generalizing c with
  | zero => exact .refl c
  | succ n ih => exact (frame_suspend c).trans (ih c.suspend)

theorem frame_deliver (c : Component (Tls S)) : Frame c (deliver env c) :=
  (frame_update _ rfl rfl).trans (frame_suspendTimes _ _)

theorem frame_deliverPending (c : Component (Tls S)) : Frame c (deliverPending env c) := by
  rw [deliverPending]
  split
  · exact .refl c
  · exact frame_deliver env c

theorem frame_forwardData (c : Component (Tls S)) : Frame c (c.forwardData (·.pendingReadChain) (deliver env)).1 := by
  rw [Component.forwardData]
  split
  · exact .refl c
  · exact frame_deliver env c

theorem frame_flushAndComplete (c : Component (Tls S)) : Frame c (flushAndComplete env c) := by
  simp only [flushAndComplete, Component.completeWithFlush, Component.flushPendingData]
  cases he : c.own.pendingReadChain.empty with
  | true => exact (frame_emitDone c).trans (frame_requestClose _)
  | false =>
    simp only [Bool.false_eq_true, if_false]
    cases hs : (deliver env c).suspended with
    | true => exact (frame_deliver env c).trans (frame_congr rfl rfl rfl rfl rfl)
    | false =>
      cases hd : (deliver env c).own.pendingReadChain.empty with
      | true => exact (frame_deliver env c).trans ((frame_emitDone _).trans (frame_requestClose _))
      | false => exact (frame_deliver env c).trans (frame_error _ _)

/-- The end of the stream: deferred while suspended. -/
theorem frame_end (c : Component (Tls S)) :
    Frame c (if c.suspended then c.deferOnDone else flushAndComplete env c) := by
  split
  · exact frame_congr rfl rfl rfl rfl rfl
  · exact frame_flushAndComplete env c

theorem frame_handleSSLError (e : SslError) (operation : String) (c : Component (Tls S)) :
    Frame c (handleSSLError e operation c) := by
  cases e <;> exact frame_error c _

theorem closed_handleSSLError (e : SslError) (operation : String) (c : Component (Tls S)) :
    (handleSSLError e operation c).closed = true := by
  cases e <;> exact (c.failed _).closed

theorem frame_overflow (message : String) (c : Component (Tls S)) : Frame c (overflow message c) :=
  (frame_update _ rfl rfl).trans (frame_error _ _)

/-- The loop over the chain closes the transport where it fails. -/
theorem frame_driveWrite (data : Chain) (c : Component (Tls S)) :
    Frame c (Tls.driveWrite data c) ∧
      (LoopEnd.isFailed (writeLoop data.totalSize c.own.ssl data c.own.accepted).ending = true →
        (Tls.driveWrite data c).closed = true) := by
  rw [Tls.driveWrite]
  cases (writeLoop data.totalSize c.own.ssl data c.own.accepted).ending with
  | emptied => exact ⟨frame_update _ rfl rfl, fun h => absurd h Bool.false_ne_true⟩
  | blocked => exact ⟨(frame_update _ rfl rfl).trans (frame_update _ rfl rfl), fun h => absurd h Bool.false_ne_true⟩
  | failed e => exact ⟨(frame_update _ rfl rfl).trans (frame_handleSSLError _ _ _), fun _ => closed_handleSSLError _ _ _⟩
  | noSegment => exact ⟨(frame_update _ rfl rfl).trans (frame_update _ rfl rfl), fun h => absurd h Bool.false_ne_true⟩
  | outOfFuel => exact ⟨(frame_update _ rfl rfl).trans (frame_update _ rfl rfl), fun h => absurd h Bool.false_ne_true⟩

/-! ### Steps of a session -/

/-- What everything but `ProcessHandshake` and `DoClose` does to a session. -/
structure Steps (s t : Session S) : Prop extends Frame s.comp t.comp where
  conserved : s.sent ++ s.wbio = s.emitted → t.sent ++ t.wbio = t.emitted
  discarded : t.discarded = s.discarded
  readyCalls : t.readyCalls = s.readyCalls

/-- What does not touch the write BIO. -/
structure Beside (s t : Session S) : Prop extends Frame s.comp t.comp where
  wbio : t.wbio = s.wbio
  sent : t.sent = s.sent
  emitted : t.emitted = s.emitted
  discarded : t.discarded = s.discarded
  readyCalls : t.readyCalls = s.readyCalls

/-- Nothing is left in the write BIO of an open transport. -/
def Flushed (s : Session S) : Prop := s.comp.closed = false → s.wbio = []

variable {s t : Session S} {E env requests}

theorem Steps.refl (s : Session S) : Steps s s := ⟨.refl _, id, rfl, rfl⟩

theorem Steps.trans {u : Session S} (h : Steps s t) (h' : Steps t u) : Steps s u :=
  ⟨h.toFrame.trans h'.toFrame, fun hs => h'.conserved (h.conserved hs), h'.discarded.trans h.discarded,
    h'.readyCalls.trans h.readyCalls⟩

theorem beside_onComp {f : Component (Tls S) → Component (Tls S)} (h : Frame s.comp (f s.comp)) :
    Beside s (onComp f s) := ⟨h, rfl, rfl, rfl, rfl, rfl⟩

theorem Beside.steps (h : Beside s t) : Steps s t := by
  refine ⟨h.toFrame, fun hs => ?_, h.discarded, h.readyCalls⟩
  rw [h.sent, h.wbio, h.emitted]
  exact hs

theorem Beside.flushed (h : Beside s t) (hf : Flushed s) : Flushed t := by
  intro hc
  rw [h.wbio]
  refine hf ?_
  by_contra hclosed
  rw [h.closed (Bool.not_eq_false _ ▸ hclosed)] at hc
  exact absurd hc (by simp)

theorem steps_onComp {f : Component (Tls S) → Component (Tls S)} (h : Frame s.comp (f s.comp)) :
    Steps s (onComp f s) := (beside_onComp h).steps

theorem steps_emit (l : List Byte) (s : Session S) : Steps s (emit l s) := by
  refine ⟨.refl _, fun hs => ?_, rfl, rfl⟩
  rw [emit, ← hs, List.append_assoc]

theorem steps_flushWbio (s : Session S) : Steps s (flushWbio s) := by
  refine ⟨.refl _, fun hs => ?_, rfl, rfl⟩
  rw [flushWbio, List.append_nil]
  exact hs

theorem flushed_flushWbio (s : Session S) : Flushed (flushWbio s) := fun _ => rfl

/-- A closed transport owes nothing. -/
theorem flushed_of_closed (h : s.comp.closed = true) : Flushed s := fun hc => absurd (h.symm.trans hc) (by simp)

/-- **The loop over the chain** ends closed or flushed. -/
theorem driveWrite_spec (data : Chain) (s : Session S) : Steps s (driveWrite E data s) ∧ Flushed (driveWrite E data s) := by
  obtain ⟨hframe, hfails⟩ := frame_driveWrite data s.comp
  have hloop := (steps_onComp hframe).trans (steps_emit (writeEmits E data.totalSize s.comp.own.ssl data) _)
  rw [driveWrite]
  split
  · rename_i hf
    exact ⟨hloop, flushed_of_closed (hfails hf)⟩
  · exact ⟨hloop.trans (steps_flushWbio _), flushed_flushWbio _⟩

theorem retryPendingWrites_spec (s : Session S) :
    Steps s (retryPendingWrites E s) ∧ (Flushed s → Flushed (retryPendingWrites E s)) := by
  rw [retryPendingWrites]
  split
  · exact ⟨.refl s, id⟩
  · obtain ⟨h1, h2⟩ := driveWrite_spec (E := E) s.comp.own.writePending
      (onComp (update fun t => { t with writePending := s.comp.own.writePending.movedFrom }) s)
    exact ⟨(steps_onComp (frame_update _ rfl rfl)).trans h1, fun _ => h2⟩

/-- A guarded body. -/
theorem guarded_spec {body : Session S → Session S}
    (hbody : ∀ s, Steps s (body s) ∧ (Flushed s → Flushed (body s))) (s : Session S) :
    Steps s (guarded body s) ∧ (Flushed s → Flushed (guarded body s)) := by
  have henter : Beside s (onComp Component.enter s) := beside_onComp (frame_congr rfl rfl rfl rfl rfl)
  obtain ⟨h1, h2⟩ := hbody (onComp Component.enter s)
  have hleave : Beside (body (onComp Component.enter s)) (onComp Component.leave (body (onComp Component.enter s))) :=
    beside_onComp (frame_leave _)
  rw [guarded]
  split
  · exact ⟨.refl s, id⟩
  · exact ⟨henter.steps.trans (h1.trans hleave.steps), fun hf => hleave.flushed (h2 (henter.flushed hf))⟩

/-- **`Write`.** -/
theorem write_spec (data : Chain) (s : Session S) :
    Steps s (write E data s) ∧ (Flushed s → Flushed (write E data s)) := by
  refine guarded_spec (fun s => ?_) s
  split
  · have h : Beside s (onComp (fun c => (c.emitError
        { code := .tlsHandshakeFailed, message := "Write called before handshake complete" }).requestClose) s) :=
      beside_onComp (frame_error s.comp _)
    exact ⟨h.steps, h.flushed⟩
  split
  · have h : Beside s _ := beside_onComp (frame_overflow "TLS write buffer overflow" s.comp)
    exact ⟨h.steps, h.flushed⟩
  split
  · obtain ⟨h1, h2⟩ := driveWrite_spec (E := E) (Chain.compactAndSplice s.comp.own.writePending data).1
      (onComp (update fun t =>
        { t with writePending := (Chain.compactAndSplice s.comp.own.writePending data).1.movedFrom }) s)
    exact ⟨(steps_onComp (frame_update _ rfl rfl)).trans h1, fun _ => h2⟩
  · obtain ⟨h1, h2⟩ := driveWrite_spec (E := E) data s
    exact ⟨h1, fun _ => h2⟩

theorem flushed_emit_nil {l : List Byte} (hl : l = []) (h : Flushed s) : Flushed (emit l s) := by
  intro hc
  rw [emit, hl, List.append_nil]
  exact h hc

/-- **The loop of `ProcessPendingReads`.** -/
theorem readLoop_spec (fuel : ℕ) (s : Session S) :
    Steps s (readLoop E env fuel s) ∧ (E.Quiet → Flushed s → Flushed (readLoop E env fuel s)) := by
  induction fuel generalizing s with
  | zero =>
    have h : Beside s _ := beside_onComp (frame_update (c := s.comp) (fun t => { t with diverged := true }) rfl rfl)
    exact ⟨h.steps, fun _ => h.flushed⟩
  | succ fuel ih =>
    have hread : Beside s { s with comp := (sslRead s.comp).2 } :=
      beside_onComp (f := fun c => (sslRead c).2) (frame_congr rfl rfl rfl rfl rfl)
    have hsteps := hread.steps.trans (steps_emit (E.read s.comp.own.ssl) _)
    have hflushed : E.Quiet → Flushed s → Flushed (emit (E.read s.comp.own.ssl)
        { s with comp := (sslRead s.comp).2 }) := fun hq hf => flushed_emit_nil (hq.read _) (hread.flushed hf)
    rw [readLoop]
    simp only
    generalize emit (E.read s.comp.own.ssl) { s with comp := (sslRead s.comp).2 } = u at hsteps hflushed ⊢
    -- what goes on beside the write BIO
    have hon : ∀ {f : Component (Tls S) → Component (Tls S)}, Frame u.comp (f u.comp) →
        Steps s (onComp f u) ∧ (E.Quiet → Flushed s → Flushed (onComp f u)) := fun h =>
      ⟨hsteps.trans (steps_onComp h), fun hq hf => (beside_onComp h).flushed (hflushed hq hf)⟩
    split
    · rename_i l hl _
      obtain ⟨h1, h2⟩ := hon (frame_update (fun t => { t with readBytes := t.readBytes ++ l }) rfl rfl)
      generalize onComp (update fun t => { t with readBytes := t.readBytes ++ l }) u = v at h1 h2 ⊢
      split
      · exact ⟨h1.trans (steps_onComp (frame_overflow _ _)),
          fun hq hf => (beside_onComp (frame_overflow _ _)).flushed (h2 hq hf)⟩
      · have happend : Beside v (onComp (appendRead l hl) v) := beside_onComp (frame_update _ rfl rfl)
        have hdeliver : Beside (onComp (appendRead l hl) v) (onComp (deliver env) (onComp (appendRead l hl) v)) :=
          beside_onComp (frame_deliver env _)
        have h3 := h1.trans (happend.steps.trans hdeliver.steps)
        have h4 : E.Quiet → Flushed s → Flushed (onComp (deliver env) (onComp (appendRead l hl) v)) := fun hq hf =>
          hdeliver.flushed (happend.flushed (h2 hq hf))
        split
        · split
          · exact ⟨h3, h4⟩
          · obtain ⟨h5, h6⟩ := ih (onComp (deliver env) (onComp (appendRead l hl) v))
            exact ⟨h3.trans h5, fun hq hf => h6 hq (h4 hq hf)⟩
        · obtain ⟨h5, h6⟩ := ih (onComp (appendRead l hl) v)
          exact ⟨h1.trans (happend.steps.trans h5), fun hq hf => h6 hq (happend.flushed (h2 hq hf))⟩
    · exact hon (frame_deliverPending env _)
    · obtain ⟨h1, h2⟩ := hon (frame_deliverPending env u.comp)
      obtain ⟨h3, h4⟩ := retryPendingWrites_spec (E := E) (flushWbio (onComp (deliverPending env) u))
      exact ⟨h1.trans ((steps_flushWbio _).trans h3), fun _ _ => h4 (flushed_flushWbio _)⟩
    · exact hon (frame_end env _)
    · exact hon (frame_handleSSLError _ _ _)

/-- **`ProcessPendingReads`.** -/
theorem processPendingReads_spec (s : Session S) :
    Steps s (processPendingReads E env s) ∧ (E.Quiet → Flushed s → Flushed (processPendingReads E env s)) := by
  rw [processPendingReads]
  split
  · exact ⟨.refl s, fun _ => id⟩
  · have hcallback : Beside s (onComp (update fun t =>
        { t with pendingReadChain := { t.pendingReadChain with recycleCallback := some 0 } }) s) :=
      beside_onComp (frame_update _ rfl rfl)
    simp only
    split
    · exact ⟨hcallback.steps, fun _ => hcallback.flushed⟩
    · obtain ⟨h1, h2⟩ := readLoop_spec (E := E) (S.available (onComp (update fun t =>
        { t with pendingReadChain := { t.pendingReadChain with recycleCallback := some 0 } }) s).comp.own.ssl + 1)
        (onComp (update fun t =>
          { t with pendingReadChain := { t.pendingReadChain with recycleCallback := some 0 } }) s)
      exact ⟨hcallback.steps.trans h1, fun hq hf => h2 hq (hcallback.flushed hf)⟩

/-- The requests of the protocol. -/
theorem writes_spec (requests : List Chain) (s : Session S) :
    Steps s (requests.foldl (fun s data => write E data s) s) ∧
      (Flushed s → Flushed (requests.foldl (fun s data => write E data s) s)) := by
  induction requests generalizing s with
  | nil => exact ⟨.refl s, id⟩
  | cons data requests ih =>
    obtain ⟨h1, h2⟩ := write_spec (E := E) data s
    obtain ⟨h3, h4⟩ := ih (write E data s)
    exact ⟨h1.trans h3, fun hf => h4 (h2 hf)⟩

/-! ### Before the handshake is complete -/

/-- No plaintext has gone in or out. -/
structure Early (t : Tls S) : Prop where
  accepted : t.accepted = []
  readBytes : t.readBytes = []
  consumed : t.consumed = []
  deliveries : t.deliveries = 0
  empty : t.pendingReadChain.empty = true

theorem early_flushAndComplete (h : Early c.own) : Early (flushAndComplete env c).own := by
  simp only [flushAndComplete, Component.completeWithFlush, Component.flushPendingData, h.empty, if_true,
    Bool.false_eq_true, if_false]
  rw [Component.requestClose_own, Component.emitDone_own]
  exact h

theorem early_end (h : Early c.own) :
    Early (if c.suspended then c.deferOnDone else flushAndComplete env c).own := by
  split
  · exact h
  · exact early_flushAndComplete h

theorem early_completeDeferred (h : Early c.own) : Early (c.completeDeferred (flushAndComplete env)).own := by
  rw [Component.completeDeferred]
  split
  · exact early_flushAndComplete (c := c.clearDone) h
  · exact h

theorem early_guarded {body : Component (Tls S) → Component (Tls S)} (h : Early c.own)
    (hbody : Early c.enter.own → Early (body c.enter).own) : Early (c.guarded body).own := by
  rw [Component.guarded]
  split
  · exact h
  · rw [Component.leave_own]
    exact hbody h

theorem early_error (e : Error) (h : Early c.own) : Early (c.emitError e).requestClose.own := by
  rw [(c.failed e).own]
  exact h

theorem early_overflow (message : String) (h : Early c.own) : Early (overflow message c).own := by
  rw [overflow, (Component.failed _ _).own]
  exact ⟨h.accepted, h.readBytes, h.consumed, h.deliveries, h.empty⟩

theorem early_handleSSLError (e : SslError) (operation : String) (h : Early c.own) :
    Early (handleSSLError e operation c).own := by
  cases e <;> exact early_error _ h

theorem forwardData_early (h : Early c.own) : c.forwardData (·.pendingReadChain) (deliver env) = (c, false) := by
  rw [Component.forwardData, h.empty, if_pos rfl]

theorem early_doClose (h : Early c.own) : Early (Tls.doClose env c).own := by
  have hcleared : ∀ {d : Component (Tls S)}, Early d.own → Early { d.own with
      pendingReadChain := d.own.pendingReadChain.clear
      writePending := d.own.writePending.clear
      tornDown := true } := fun h => ⟨h.accepted, h.readBytes, h.consumed, h.deliveries, rfl⟩
  simp only [Tls.doClose, forwardData_early h]
  split
  · split
    · refine hcleared (d := c.emitDone) ?_
      rw [Component.emitDone_own]
      exact h
    · exact hcleared h
  · exact hcleared h

/-! ### The handshake -/

/-- What any function but `DoClose` does to a session. -/
structure Rises (s t : Session S) : Prop where
  tornDown : t.comp.own.tornDown = s.comp.own.tornDown
  closed : s.comp.closed = true → t.comp.closed = true
  scheduled : (s.comp.closePending = true ∨ s.comp.closeScheduled = true → s.comp.closed = true) →
    t.comp.closePending = true ∨ t.comp.closeScheduled = true → t.comp.closed = true
  conserved : s.sent ++ s.wbio = s.emitted → t.sent ++ t.wbio = t.emitted
  discarded : t.discarded = s.discarded

theorem Rises.trans {u : Session S} (h : Rises s t) (h' : Rises t u) : Rises s u :=
  ⟨h'.tornDown.trans h.tornDown, fun hc => h'.closed (h.closed hc), fun hs => h'.scheduled (h.scheduled hs),
    fun hs => h'.conserved (h.conserved hs), h'.discarded.trans h.discarded⟩

theorem Steps.rises (h : Steps s t) : Rises s t :=
  ⟨h.tornDown, h.closed, h.scheduled, h.conserved, h.discarded⟩

/-- The handshake is complete and told, or stands as before. -/
def Advances (s t : Session S) : Prop :=
  t.comp.own.handshakeState = .complete ∧ t.readyCalls = s.readyCalls + 1 ∨
    t.comp.own.handshakeState = s.comp.own.handshakeState ∧ t.readyCalls = s.readyCalls ∧ Early t.comp.own

/-- **`ProcessHandshake`.** -/
theorem processHandshake_spec (hstate : s.comp.own.handshakeState ≠ .complete) (hearly : Early s.comp.own) :
    Rises s (processHandshake E env requests s) ∧ Advances s (processHandshake E env requests s) ∧
      (E.Quiet → Flushed s → Flushed (processHandshake E env requests s)) := by
  have hssl : Beside s (onComp (update fun t => { t with ssl := (S.handshake s.comp.own.ssl).2 }) s) :=
    beside_onComp (frame_update _ rfl rfl)
  have hsteps := hssl.steps.trans (steps_emit (E.handshake s.comp.own.ssl) _)
  have hearly' : Early (emit (E.handshake s.comp.own.ssl)
      (onComp (update fun t => { t with ssl := (S.handshake s.comp.own.ssl).2 }) s)).comp.own :=
    ⟨hearly.accepted, hearly.readBytes, hearly.consumed, hearly.deliveries, hearly.empty⟩
  have hflushed : E.handshake s.comp.own.ssl = [] → Flushed s → Flushed (emit (E.handshake s.comp.own.ssl)
      (onComp (update fun t => { t with ssl := (S.handshake s.comp.own.ssl).2 }) s)) := fun hnil hf =>
    flushed_emit_nil hnil (hssl.flushed hf)
  have hhandshake := hsteps.handshakeState
  have hcalls := hsteps.readyCalls
  rw [processHandshake, if_neg hstate]
  simp only
  generalize emit (E.handshake s.comp.own.ssl)
    (onComp (update fun t => { t with ssl := (S.handshake s.comp.own.ssl).2 }) s) = u at *
  cases hresult : (S.handshake s.comp.own.ssl).1 with
  | complete =>
    have hcomplete : Rises u (flushWbio (onComp (update fun t => { t with handshakeState := .complete }) u)) :=
      ⟨rfl, id, id, (steps_flushWbio u).conserved, rfl⟩
    have hstate' : (flushWbio (onComp (update fun t => { t with handshakeState := .complete }) u)
        ).comp.own.handshakeState = .complete := rfl
    have hflushed' := flushed_flushWbio (onComp (update fun t => { t with handshakeState := .complete }) u)
    have hcalls' : (flushWbio (onComp (update fun t => { t with handshakeState := .complete }) u)).readyCalls =
        s.readyCalls := hcalls
    generalize flushWbio (onComp (update fun t => { t with handshakeState := .complete }) u) = v at *
    have hreads : Steps v (if v.comp.suspended then v else processPendingReads E env v) ∧
        (E.Quiet → Flushed (if v.comp.suspended then v else processPendingReads E env v)) := by
      obtain ⟨h1, h2⟩ := processPendingReads_spec (E := E) v
      split
      · exact ⟨.refl v, fun _ => hflushed'⟩
      · exact ⟨h1, fun hq => h2 hq hflushed'⟩
    obtain ⟨h1, h2⟩ := hreads
    simp only
    generalize (if v.comp.suspended then v else processPendingReads E env v) = w at h1 h2 ⊢
    have hcount : Rises w { w with readyCalls := w.readyCalls + 1 } := ⟨rfl, id, id, id, rfl⟩
    obtain ⟨h3, h4⟩ := writes_spec (E := E) requests { w with readyCalls := w.readyCalls + 1 }
    refine ⟨hsteps.rises.trans (hcomplete.trans (h1.rises.trans (hcount.trans h3.rises))), Or.inl ⟨?_, ?_⟩,
      fun hq _ => h4 (h2 hq)⟩
    · exact h3.handshakeState.trans (h1.handshakeState.trans hstate')
    · refine h3.readyCalls.trans ?_
      show w.readyCalls + 1 = s.readyCalls + 1
      rw [h1.readyCalls, hcalls']
  | want =>
    exact ⟨(hsteps.trans (steps_flushWbio u)).rises, Or.inr ⟨hhandshake, hcalls, hearly'⟩,
      fun _ _ => flushed_flushWbio u⟩
  | zeroReturn =>
    have hend : Beside u (onComp (fun c => if c.suspended then c.deferOnDone else flushAndComplete env c) u) :=
      beside_onComp (frame_end env _)
    exact ⟨(hsteps.trans hend.steps).rises,
      Or.inr ⟨hend.handshakeState.trans hhandshake, hend.readyCalls.trans hcalls, early_end hearly'⟩,
      fun hq hf => hend.flushed (hflushed (hq.handshake _ hresult) hf)⟩
  | failed e =>
    have hfail : Beside u (onComp (handleSSLError e "handshake") u) := beside_onComp (frame_handleSSLError _ _ _)
    exact ⟨(hsteps.trans hfail.steps).rises,
      Or.inr ⟨hfail.handshakeState.trans hhandshake, hfail.readyCalls.trans hcalls, early_handleSSLError _ _ hearly'⟩,
      fun _ _ => flushed_of_closed (closed_handleSSLError _ _ _)⟩

/-! ### Between two calls -/

/-- **What holds between two calls.** -/
structure Sound (s : Session S) : Prop where
  scheduled : s.comp.closePending = true ∨ s.comp.closeScheduled = true → s.comp.closed = true
  running : s.comp.own.tornDown = false → s.sent ++ s.wbio = s.emitted ∧ s.discarded = []
  torn : s.comp.own.tornDown = true → s.comp.closed = true ∧ s.wbio = [] ∧ s.sent ++ s.discarded = s.emitted ∧
    (s.comp.own.handshakeState = .complete → s.discarded = [])
  ready : s.readyCalls = if s.comp.own.handshakeState = .complete then 1 else 0
  early : s.comp.own.handshakeState ≠ .complete → Early s.comp.own

theorem sound_create (ssl : S.State) : Sound (create ssl) where
  scheduled h := by rcases h with h | h <;> cases h
  running _ := ⟨rfl, rfl⟩
  torn h := by cases h
  ready := rfl
  early _ := ⟨rfl, rfl, rfl, rfl, rfl⟩

/-- An open transport is not torn down. -/
theorem Sound.alive (h : Sound s) (hopen : s.comp.closed = false) : s.comp.own.tornDown = false := by
  by_contra htorn
  rw [(h.torn (Bool.not_eq_false _ ▸ htorn)).1] at hopen
  exact absurd hopen (by simp)

/-- What goes on beside the write BIO. -/
theorem Sound.beside (h : Sound s) (hb : Beside s t) (hearly : Early s.comp.own → Early t.comp.own) : Sound t := by
  refine ⟨hb.scheduled h.scheduled, ?_, ?_, ?_, ?_⟩
  · rw [hb.tornDown, hb.sent, hb.wbio, hb.emitted, hb.discarded]
    exact h.running
  · rw [hb.tornDown, hb.sent, hb.wbio, hb.emitted, hb.discarded, hb.handshakeState]
    exact fun ht => ⟨hb.closed (h.torn ht).1, (h.torn ht).2⟩
  · rw [hb.readyCalls, hb.handshakeState]
    exact h.ready
  · rw [hb.handshakeState]
    exact fun hs => hearly (h.early hs)

/-- What a transport that is not torn down does. -/
theorem Sound.rises (h : Sound s) (htorn : s.comp.own.tornDown = false) (hr : Rises s t)
    (hready : t.readyCalls = if t.comp.own.handshakeState = .complete then 1 else 0)
    (hearly : t.comp.own.handshakeState ≠ .complete → Early t.comp.own) : Sound t := by
  have htorn' := hr.tornDown.trans htorn
  obtain ⟨h1, h2⟩ := h.running htorn
  exact ⟨hr.scheduled h.scheduled, fun _ => ⟨hr.conserved h1, hr.discarded.trans h2⟩,
    fun ht => absurd (ht.symm.trans htorn') (by simp), hready, hearly⟩

/-- The handshake does not stand otherwise. -/
theorem Sound.steps (h : Sound s) (htorn : s.comp.own.tornDown = false) (hs : Steps s t)
    (hearly : s.comp.own.handshakeState ≠ .complete → Early s.comp.own → Early t.comp.own) : Sound t := by
  refine h.rises htorn hs.rises ?_ ?_
  · rw [hs.readyCalls, hs.handshakeState]
    exact h.ready
  · rw [hs.handshakeState]
    exact fun hn => hearly hn (h.early hn)

/-- A guarded body is called on an open transport. -/
theorem sound_guarded {body : Session S → Session S} (h : Sound s)
    (hbody : ∀ s, Sound s → s.comp.own.tornDown = false → Sound (body s)) : Sound (guarded body s) := by
  rw [guarded]
  cases hclosed : s.comp.closed with
  | true => exact h
  | false =>
    have henter : Sound (onComp Component.enter s) :=
      h.beside (beside_onComp (frame_congr rfl rfl rfl rfl rfl)) id
    have hin := hbody _ henter (henter.alive hclosed)
    refine hin.beside (beside_onComp (frame_leave _)) fun he => ?_
    show Early (body (onComp Component.enter s)).comp.leave.own
    rw [Component.leave_own]
    exact he

theorem frame_guarded {body : Component (Tls S) → Component (Tls S)} (hbody : ∀ c, Frame c (body c))
    (c : Component (Tls S)) : Frame c (c.guarded body) := by
  have henter : Frame c c.enter := frame_congr rfl rfl rfl rfl rfl
  rw [Component.guarded]
  split
  · exact .refl c
  · exact (henter.trans (hbody c.enter)).trans (frame_leave _)

/-- **`Write`**: before the handshake is complete, an error. -/
theorem sound_write (data : Chain) (h : Sound s) : Sound (write E data s) := by
  cases hclosed : s.comp.closed with
  | true =>
    rw [write, guarded, hclosed, if_pos rfl]
    exact h
  | false =>
    refine h.steps (h.alive hclosed) (write_spec (E := E) data s).1 fun hstate he => ?_
    have hstate' : (onComp Component.enter s).comp.own.handshakeState ≠ .complete := hstate
    rw [write, guarded, hclosed, if_neg Bool.false_ne_true, if_pos hstate']
    show Early (Component.leave _).own
    rw [Component.leave_own]
    exact early_error (c := s.comp.enter) _ he

/-- What advances the handshake. -/
theorem Sound.advances (h : Sound s) (htorn : s.comp.own.tornDown = false)
    (hstate : s.comp.own.handshakeState ≠ .complete) (hr : Rises s t) (ha : Advances s t) : Sound t := by
  have hready := h.ready
  rw [if_neg hstate] at hready
  rcases ha with ⟨hc, hn⟩ | ⟨hc, hn, he⟩
  · refine h.rises htorn hr ?_ fun hne => absurd hc hne
    rw [if_pos hc, hn, hready]
  · refine h.rises htorn hr ?_ fun _ => he
    rw [hc, if_neg hstate, hn, hready]

/-- **`StartHandshake`.** -/
theorem sound_startHandshake (h : Sound s) (htorn : s.comp.own.tornDown = false) :
    Sound (startHandshake E env requests s) := by
  rw [startHandshake]
  split
  · exact h
  · rename_i hstate
    have hnone := not_not.mp hstate
    have hne : s.comp.own.handshakeState ≠ .complete := by
      rw [hnone]
      exact TlsHandshakeState.noConfusion
    have he := h.early hne
    have hrises : Rises s (onComp (update fun t => { t with handshakeState := .inProgress }) s) := ⟨rfl, id, id, id, rfl⟩
    have he' : Early (onComp (update fun t => { t with handshakeState := .inProgress }) s).comp.own :=
      ⟨he.accepted, he.readBytes, he.consumed, he.deliveries, he.empty⟩
    have hready := h.ready
    rw [if_neg hne] at hready
    have hstarted : Sound (onComp (update fun t => { t with handshakeState := .inProgress }) s) :=
      h.rises htorn hrises hready fun _ => he'
    have hstate' : (onComp (update fun t => { t with handshakeState := .inProgress }) s).comp.own.handshakeState ≠
        .complete := TlsHandshakeState.noConfusion
    obtain ⟨h1, h2, -⟩ := processHandshake_spec (E := E) hstate' he'
    exact hstarted.advances htorn hstate' h1 h2

/-- **`OnData`**, in either phase. -/
theorem sound_read (data : Chain) (h : Sound s) : Sound (read E env requests data s) := by
  refine sound_guarded h fun s h htorn => ?_
  simp only
  split
  · exact h.steps htorn (steps_onComp (frame_overflow _ _)) fun _ => early_overflow _
  · have hfeed : Beside s (onComp (update fun t => { t with ssl := feedLoop data.totalSize t.ssl data }) s) :=
      beside_onComp (frame_update _ rfl rfl)
    have hfed := h.beside hfeed fun he => ⟨he.accepted, he.readBytes, he.consumed, he.deliveries, he.empty⟩
    split
    · rename_i hstate
      obtain ⟨h1, h2, -⟩ := processHandshake_spec (E := E) hstate
        (hfed.early hstate)
      exact hfed.advances htorn hstate h1 h2
    · rename_i hstate
      exact hfed.steps htorn (processPendingReads_spec _).1 fun hn => absurd hn hstate

/-- The deferred `OnDone`. -/
theorem frame_completeDeferred (c : Component (Tls S)) : Frame c (c.completeDeferred (flushAndComplete env)) := by
  rw [Component.completeDeferred]
  split
  · exact (frame_congr rfl rfl rfl rfl rfl : Frame c c.clearDone).trans (frame_flushAndComplete env _)
  · exact .refl c

/-- **`ProcessPending`.** -/
theorem processPending_spec (s : Session S) :
    Steps s (processPending E env s) ∧ (E.Quiet → Flushed s → Flushed (processPending E env s)) := by
  have hforward : Beside s { s with comp := (s.comp.forwardData (·.pendingReadChain) (deliver env)).1 } :=
    beside_onComp (f := fun c => (c.forwardData (·.pendingReadChain) (deliver env)).1) (frame_forwardData env s.comp)
  rw [processPending]
  split
  · exact ⟨hforward.steps, fun _ => hforward.flushed⟩
  · obtain ⟨h1, h2⟩ := processPendingReads_spec (E := E)
      { s with comp := (s.comp.forwardData (·.pendingReadChain) (deliver env)).1 }
    exact ⟨hforward.steps.trans h1, fun hq hf => h2 hq (hforward.flushed hf)⟩

theorem processPending_early (hstate : s.comp.own.handshakeState ≠ .complete) (he : Early s.comp.own) :
    processPending E env s = s := by
  simp only [processPending, forwardData_early he, Bool.false_eq_true, if_false, processPendingReads]
  rw [if_pos (Or.inr hstate)]

/-- What `Resume` ends with. -/
theorem frame_resumed (c : Component (Tls S)) :
    Frame c (Component.completeDeferred (flushAndComplete env) c.resumeUpstream).leave := by
  have hup : Frame c c.resumeUpstream := by
    rw [Component.resumeUpstream]
    split
    · exact .refl c
    · exact frame_congr rfl rfl rfl rfl rfl
  exact (hup.trans (frame_completeDeferred c.resumeUpstream)).trans (frame_leave _)

theorem early_resumed (he : Early c.own) :
    Early (Component.completeDeferred (flushAndComplete env) c.resumeUpstream).leave.own := by
  rw [Component.leave_own]
  refine early_completeDeferred ?_
  rw [Component.resumeUpstream]
  split <;> exact he

/-- **`Resume`.** -/
theorem resume_spec (h : Sound s) :
    Sound (resume E env s) ∧ (resume E env s).comp.own.handshakeState = s.comp.own.handshakeState ∧
      (E.Quiet → Flushed s → Flushed (resume E env s)) := by
  have hcount : Beside s (onComp (fun c => { c with suspendCount := s.comp.suspendCount - 1 }) s) :=
    beside_onComp (frame_congr rfl rfl rfl rfl rfl)
  have hsound := h.beside hcount id
  rw [resume]
  split
  · cases hclosed : s.comp.closed with
    | true =>
      have hdeferred : Beside (onComp (fun c => { c with suspendCount := s.comp.suspendCount - 1 }) s)
          (onComp (Component.completeDeferred (flushAndComplete env))
            (onComp (fun c => { c with suspendCount := s.comp.suspendCount - 1 }) s)) :=
        beside_onComp (frame_completeDeferred _)
      have hclosed' : (onComp (fun c => { c with suspendCount := s.comp.suspendCount - 1 }) s).comp.closed = true :=
        hclosed
      rw [if_pos hclosed']
      exact ⟨hsound.beside hdeferred early_completeDeferred, hdeferred.handshakeState,
        fun _ hf => hdeferred.flushed (hcount.flushed hf)⟩
    | false =>
      have henter : Beside (onComp (fun c => { c with suspendCount := s.comp.suspendCount - 1 }) s)
          (onComp Component.enter (onComp (fun c => { c with suspendCount := s.comp.suspendCount - 1 }) s)) :=
        beside_onComp (frame_congr rfl rfl rfl rfl rfl)
      have hentered := hsound.beside henter id
      have hclosed' : (onComp (fun c => { c with suspendCount := s.comp.suspendCount - 1 }) s).comp.closed = false :=
        hclosed
      have halive := hentered.alive hclosed'
      have hflushed := fun hf => henter.flushed (hcount.flushed hf)
      have hstate : (onComp Component.enter (onComp (fun c => { c with suspendCount := s.comp.suspendCount - 1 }) s)
          ).comp.own.handshakeState = s.comp.own.handshakeState := rfl
      rw [if_neg (by rw [hclosed']; exact Bool.false_ne_true)]
      generalize onComp Component.enter (onComp (fun c => { c with suspendCount := s.comp.suspendCount - 1 }) s) = u
        at hentered halive hflushed hstate ⊢
      obtain ⟨h1, h2⟩ := processPending_spec (E := E) u
      have hpending : Sound (processPending E env u) := hentered.steps halive h1 fun hstate he => by
        rw [processPending_early hstate he]
        exact he
      have hresumed : Beside (processPending E env u) (onComp (fun c =>
          (Component.completeDeferred (flushAndComplete env) c.resumeUpstream).leave) (processPending E env u)) :=
        beside_onComp (frame_resumed _)
      exact ⟨hpending.beside hresumed early_resumed, hresumed.handshakeState.trans (h1.handshakeState.trans hstate),
        fun hq hf => hresumed.flushed (h2 hq (hflushed hf))⟩
  · exact ⟨hsound, rfl, fun _ => hcount.flushed⟩

/-- What `DoClose` does to the transport. -/
theorem doClose_comp (c : Component (Tls S)) :
    (Tls.doClose env c).own.handshakeState = c.own.handshakeState ∧ (Tls.doClose env c).own.tornDown = true ∧
      (c.closed = true → (Tls.doClose env c).closed = true) ∧
      ((c.closePending = true ∨ c.closeScheduled = true → c.closed = true) →
        (Tls.doClose env c).closePending = true ∨ (Tls.doClose env c).closeScheduled = true →
          (Tls.doClose env c).closed = true) := by
  have hlast : ∃ d, Frame c d ∧ Tls.doClose env c = update (fun t : Tls S =>
      { t with
        pendingReadChain := t.pendingReadChain.clear
        writePending := t.writePending.clear
        tornDown := true }) d := by
    rw [Tls.doClose]
    split
    · simp only
      split
      · exact ⟨_, (frame_forwardData env c).trans (frame_emitDone _), rfl⟩
      · exact ⟨_, frame_forwardData env c, rfl⟩
    · exact ⟨_, .refl c, rfl⟩
  obtain ⟨d, hd, heq⟩ := hlast
  rw [heq]
  exact ⟨hd.handshakeState, rfl, hd.closed, hd.scheduled⟩

/-- **`DoClose`**: behind a handshake that is complete, nothing is left in the write BIO as it is freed. -/
theorem sound_doClose (h : Sound s) (hscheduled : s.comp.closeScheduled = true) : Sound (doClose E env s) := by
  have hclosed := h.scheduled (Or.inr hscheduled)
  have hready := h.ready
  rw [doClose]
  split
  · rename_i hcond
    obtain ⟨h1, h2⟩ := h.running hcond.1
    obtain ⟨hstate, htorn, hclose, hsched⟩ := doClose_comp s.comp
    have hconserved := (steps_flushWbio (emit (E.shutdown s.comp.own.ssl) s)).conserved
      ((steps_emit (E.shutdown s.comp.own.ssl) s).conserved h1)
    refine ⟨hsched h.scheduled, fun ht => ?_, fun _ => ⟨hclose hclosed, rfl, ?_, fun _ => ?_⟩, ?_, fun hn => ?_⟩
    · exact absurd (htorn.symm.trans ht) (by simp)
    · show (flushWbio (emit (E.shutdown s.comp.own.ssl) s)).sent ++ (s.discarded ++ []) = _
      rw [h2, List.nil_append]
      exact hconserved
    · show s.discarded ++ [] = []
      rw [h2, List.nil_append]
    · show s.readyCalls = _
      rw [hready]
      exact (congrArg (fun x => if x = TlsHandshakeState.complete then 1 else 0) hstate).symm
    · exact absurd (hstate.trans hcond.2) hn
  · rename_i hcond
    obtain ⟨hstate, htorn, hclose, hsched⟩ := doClose_comp s.comp
    have hall : s.sent ++ (s.discarded ++ s.wbio) = s.emitted ∧
        (s.comp.own.handshakeState = .complete → s.discarded ++ s.wbio = []) := by
      cases ht : s.comp.own.tornDown with
      | true =>
        obtain ⟨-, h2, h3, h4⟩ := h.torn ht
        rw [h2, List.append_nil]
        exact ⟨h3, h4⟩
      | false =>
        obtain ⟨h1, h2⟩ := h.running ht
        rw [h2, List.nil_append]
        exact ⟨h1, fun hc => absurd ⟨ht, hc⟩ hcond⟩
    refine ⟨hsched h.scheduled, fun ht => ?_, fun _ => ⟨hclose hclosed, rfl, hall.1, fun hc => ?_⟩, ?_, fun hn => ?_⟩
    · exact absurd (htorn.symm.trans ht) (by simp)
    · exact hall.2 (hstate.symm.trans hc)
    · show s.readyCalls = _
      rw [hready]
      exact (congrArg (fun x => if x = TlsHandshakeState.complete then 1 else 0) hstate).symm
    · have hn' : s.comp.own.handshakeState ≠ .complete := fun hc => hn (hstate.trans hc)
      exact early_doClose (h.early hn')

/-! ### Steps and runs -/

theorem frame_onDone (c : Component (Tls S)) : Frame c (onDone env c) := frame_guarded (frame_end env) c

theorem frame_onError (e : Error) (c : Component (Tls S)) : Frame c (onError e c) :=
  frame_guarded (fun c => frame_error c e) c

/-- **One input.** -/
theorem sound_step (h : Sound s) (op : Op) : Sound (step E env requests s op) := by
  cases op with
  | start =>
    rw [step]
    split
    · exact h
    · rename_i htorn
      exact sound_startHandshake h (by simpa using htorn)
  | data chain => exact sound_read chain h
  | write chain => exact sound_write chain h
  | done => exact h.beside (beside_onComp (frame_onDone _)) fun he => early_guarded he fun he' => early_end he'
  | error e => exact h.beside (beside_onComp (frame_onError e _)) fun he => early_guarded he (early_error e)
  | suspend =>
    refine h.beside (beside_onComp (frame_suspend _)) fun he => ?_
    show Early s.comp.suspend.own
    rw [Component.suspend_own]
    exact he
  | resume =>
    rw [step]
    split
    · exact (resume_spec h).1
    · exact h
  | requestClose =>
    refine h.beside (beside_onComp (frame_requestClose _)) fun he => ?_
    show Early s.comp.requestClose.own
    rw [Component.requestClose_own]
    exact he
  | runClose =>
    rw [step]
    split
    · rename_i hscheduled
      exact sound_doClose h hscheduled
    · exact h

/-- **One input leaves nothing in the write BIO** of a transport that stays open. -/
theorem flushed_step (hq : E.Quiet) (h : Sound s) (hf : Flushed s) (op : Op) :
    Flushed (step E env requests s op) := by
  cases op with
  | start =>
    rw [step]
    split
    · exact hf
    · rw [startHandshake]
      split
      · exact hf
      · rename_i hstate
        have hne : s.comp.own.handshakeState ≠ .complete := by
          rw [not_not.mp hstate]
          exact TlsHandshakeState.noConfusion
        have he := h.early hne
        exact (processHandshake_spec (E := E)
          (s := onComp (update fun t => { t with handshakeState := .inProgress }) s) TlsHandshakeState.noConfusion
          ⟨he.accepted, he.readBytes, he.consumed, he.deliveries, he.empty⟩).2.2 hq hf
  | data chain =>
    rw [step, read, guarded]
    cases hclosed : s.comp.closed with
    | true => exact hf
    | false =>
      have henter : Beside s (onComp Component.enter s) := beside_onComp (frame_congr rfl rfl rfl rfl rfl)
      have hfeed : Beside (onComp Component.enter s)
          (onComp (update fun t => { t with ssl := feedLoop chain.totalSize t.ssl chain })
            (onComp Component.enter s)) := beside_onComp (frame_update _ rfl rfl)
      have hfed := hfeed.flushed (henter.flushed hf)
      simp only [Bool.false_eq_true, if_false]
      refine (beside_onComp (frame_leave _)).flushed ?_
      split
      · exact (beside_onComp (frame_overflow _ _)).flushed (henter.flushed hf)
      · split
        · rename_i hstate
          have he := h.early hstate
          exact (processHandshake_spec (E := E)
            (s := onComp (update fun t => { t with ssl := feedLoop chain.totalSize t.ssl chain })
              (onComp Component.enter s)) hstate
            ⟨he.accepted, he.readBytes, he.consumed, he.deliveries, he.empty⟩).2.2 hq hfed
        · exact (processPendingReads_spec _).2 hq hfed
  | write chain => exact (write_spec (E := E) chain s).2 hf
  | done => exact (beside_onComp (frame_onDone _)).flushed hf
  | error e => exact (beside_onComp (frame_onError e _)).flushed hf
  | suspend => exact (beside_onComp (frame_suspend _)).flushed hf
  | resume =>
    rw [step]
    split
    · exact (resume_spec h).2.2 hq hf
    · exact hf
  | requestClose => exact (beside_onComp (frame_requestClose _)).flushed hf
  | runClose =>
    rw [step]
    split
    · exact fun _ => rfl
    · exact hf

/-- `DoClose` is that of the transport. -/
theorem comp_doClose (s : Session S) : (doClose E env s).comp = Tls.doClose env s.comp := by
  rw [doClose]
  split <;> rfl

/-- **The handshake stays complete.** -/
theorem complete_step (h : Sound s) (hc : s.comp.own.handshakeState = .complete) (op : Op) :
    (step E env requests s op).comp.own.handshakeState = .complete := by
  cases op with
  | start =>
    have hne : s.comp.own.handshakeState ≠ .notStarted := by
      rw [hc]
      exact TlsHandshakeState.noConfusion
    rw [step, startHandshake, if_pos hne]
    split <;> exact hc
  | data chain =>
    rw [step, read, guarded]
    cases hclosed : s.comp.closed with
    | true => exact hc
    | false =>
      simp only [Bool.false_eq_true, if_false]
      refine ((frame_leave _).handshakeState).trans ?_
      split
      · exact (frame_overflow _ (onComp Component.enter s).comp).handshakeState.trans hc
      · split
        · rename_i hn
          exact absurd hc hn
        · exact (processPendingReads_spec (E := E) _).1.handshakeState.trans hc
  | write chain => exact (write_spec (E := E) chain s).1.handshakeState.trans hc
  | done => exact (frame_onDone _).handshakeState.trans hc
  | error e => exact (frame_onError e _).handshakeState.trans hc
  | suspend => exact (frame_suspend _).handshakeState.trans hc
  | resume =>
    rw [step]
    split
    · exact (resume_spec h).2.1.trans hc
    · exact hc
  | requestClose => exact (frame_requestClose _).handshakeState.trans hc
  | runClose =>
    rw [step]
    split
    · rw [comp_doClose]
      exact (doClose_comp s.comp).1.trans hc
    · exact hc

/-- **A run** from a sound session. -/
theorem sound_run (h : Sound s) (ops : List Op) :
    Sound (Runs.run (step E env requests) s ops) ∧
      (s.comp.own.handshakeState = .complete →
        (Runs.run (step E env requests) s ops).comp.own.handshakeState = .complete) ∧
      (E.Quiet → Flushed s → Flushed (Runs.run (step E env requests) s ops)) := by
  induction ops generalizing s with
  | nil => exact ⟨h, id, fun _ => id⟩
  | cons op ops ih =>
    obtain ⟨h1, h2, h3⟩ := ih (sound_step (E := E) h op)
    exact ⟨h1, fun hc => h2 (complete_step h hc op), fun hq hf => h3 hq (flushed_step hq h hf op)⟩

/-! ### The theorem -/

/-- What holds of a session after a run. -/
structure Accounted (E : Emits S) (s : Session S) : Prop where
  -- what OpenSSL wrote went up, in order, or is in the write BIO, or was there as it was freed
  conserved : s.sent ++ (s.wbio ++ s.discarded) = s.emitted
  -- nothing waits in the write BIO of an open transport
  flushed : E.Quiet → s.comp.closed = false → s.sent = s.emitted
  -- once the handshake is complete, `DoClose` leaves nothing behind
  closed : s.comp.own.handshakeState = .complete → s.comp.own.tornDown = true → s.sent = s.emitted
  -- the protocol is told of a complete handshake, once
  ready : s.readyCalls = if s.comp.own.handshakeState = .complete then 1 else 0
  -- before it is complete, no plaintext goes in or out
  early : s.comp.own.handshakeState ≠ .complete → s.comp.own.accepted = [] ∧ s.comp.own.readBytes = [] ∧
    s.comp.own.consumed = [] ∧ s.comp.own.deliveries = 0

theorem accounted_of_sound (h : Sound s) (hf : E.Quiet → Flushed s) : Accounted E s := by
  have hconserved : s.sent ++ (s.wbio ++ s.discarded) = s.emitted := by
    cases htorn : s.comp.own.tornDown with
    | true =>
      obtain ⟨-, h2, h3, -⟩ := h.torn htorn
      rw [h2, List.nil_append]
      exact h3
    | false =>
      obtain ⟨h1, h2⟩ := h.running htorn
      rw [h2, List.append_nil]
      exact h1
  refine ⟨hconserved, fun hq hopen => ?_, fun hc htorn => ?_, h.ready, fun hn => ?_⟩
  · rw [hf hq hopen, (h.running (h.alive hopen)).2, List.append_nil, List.append_nil] at hconserved
    exact hconserved
  · obtain ⟨-, h2, h3, h4⟩ := h.torn htorn
    rw [h4 hc, List.append_nil] at h3
    exact h3
  · have he := h.early hn
    exact ⟨he.accepted, he.readBytes, he.consumed, he.deliveries⟩

/-- **A TLS session is accounted for**, in every run from its creation on, for any OpenSSL connection, any downstream
that consumes and suspends, and any requests that the protocol writes as the handshake is complete; and a handshake
that is complete stays so. -/
theorem session_sound (E : Emits S) (env : ℕ → Reaction) (requests : List Chain) (ssl : S.State) (ops : List Op) :
    Accounted E (Runs.run (step E env requests) (create ssl) ops) ∧
      ∀ more, (Runs.run (step E env requests) (create ssl) ops).comp.own.handshakeState = .complete →
        (Runs.run (step E env requests) (create ssl) (ops ++ more)).comp.own.handshakeState = .complete := by
  obtain ⟨h1, -, h3⟩ := sound_run (E := E) (sound_create ssl) ops
  refine ⟨accounted_of_sound h1 fun hq => h3 hq fun _ => rfl, fun more hc => ?_⟩
  rw [Runs.run_append]
  exact (sound_run h1 more).2.1 hc

/-- OpenSSL answers what it reads, as it does a key update: no `FlushWbio` follows, and the answer stays in the write
BIO until there is a `Write`. -/
example :
    let s := Runs.run (step (S := plainSsl) ⟨fun _ => [], fun _ => [7], fun _ _ => [], fun _ => []⟩
      (fun _ => ⟨2, 0⟩) []) (create (S := plainSsl) (([], []) : List Byte × List Byte))
      [.start, .data { segments := [.ofBytes [1, 2]], totalSize := 2 }]
    s.comp.closed = false ∧ s.sent = [] ∧ s.wbio = [7, 7, 7] := by decide +kernel

/-! ### The transport without its write BIO -/

section Erased

variable (s : Session S) (data : Chain)

theorem comp_driveWrite : (driveWrite E data s).comp = Tls.driveWrite data s.comp := by
  rw [driveWrite]
  split <;> rfl

theorem comp_retryPendingWrites : (retryPendingWrites E s).comp = Tls.retryPendingWrites s.comp := by
  rw [retryPendingWrites, Tls.retryPendingWrites]
  split
  · rfl
  · exact comp_driveWrite _ _

/-- A body under `TryGuard`. -/
theorem comp_guarded {body : Session S → Session S} {body' : Component (Tls S) → Component (Tls S)}
    (hbody : ∀ s, (body s).comp = body' s.comp) : (guarded body s).comp = s.comp.guarded body' := by
  rw [guarded, Component.guarded]
  split
  · rfl
  · exact congrArg Component.leave (hbody _)

theorem comp_write : (write E data s).comp = Tls.write data s.comp := by
  refine comp_guarded s fun s => ?_
  split
  · rfl
  split
  · rfl
  split
  · exact comp_driveWrite _ _
  · exact comp_driveWrite _ _

theorem comp_readLoop (fuel : ℕ) : (readLoop E env fuel s).comp = Tls.readLoop env fuel s.comp := by
  induction fuel generalizing s with
  | zero => rfl
  | succ fuel ih =>
    rw [readLoop, Tls.readLoop]
    cases hr : sslRead s.comp with
    | mk result c =>
      cases result with
      | data l h =>
        refine (apply_ite comp _ _ _).trans (if_congr Iff.rfl rfl ?_)
        refine (apply_ite comp _ _ _).trans (if_congr Iff.rfl ?_ (ih _))
        exact (apply_ite comp _ _ _).trans (if_congr Iff.rfl rfl (ih _))
      | wantRead => rfl
      | wantWrite => exact comp_retryPendingWrites _
      | zeroReturn => rfl
      | failed e => rfl

theorem comp_processPendingReads : (processPendingReads E env s).comp = Tls.processPendingReads env s.comp := by
  rw [processPendingReads, Tls.processPendingReads]
  split
  · rfl
  · exact (apply_ite comp _ _ _).trans (if_congr Iff.rfl rfl (comp_readLoop _ _))

theorem comp_processHandshake : (processHandshake E env [] s).comp = Tls.processHandshake env s.comp := by
  rw [processHandshake, Tls.processHandshake]
  split
  · rfl
  · cases hr : S.handshake s.comp.own.ssl with
    | mk result ssl =>
      cases result with
      | complete => exact (apply_ite comp _ _ _).trans (if_congr Iff.rfl rfl (comp_processPendingReads _))
      | want => rfl
      | zeroReturn => rfl
      | failed e => rfl

theorem comp_startHandshake : (startHandshake E env [] s).comp = Tls.startHandshake env s.comp := by
  rw [startHandshake, Tls.startHandshake]
  split
  · rfl
  · exact comp_processHandshake _

theorem comp_read : (read E env [] data s).comp = Tls.read env data s.comp := by
  refine comp_guarded s fun s => ?_
  refine (apply_ite comp _ _ _).trans (if_congr Iff.rfl rfl ?_)
  exact (apply_ite comp _ _ _).trans (if_congr Iff.rfl (comp_processHandshake _) (comp_processPendingReads _))

theorem comp_processPending : (processPending E env s).comp = Tls.processPending env s.comp := by
  rw [processPending, Tls.processPending]
  split
  · rfl
  · exact comp_processPendingReads _

theorem comp_resume : (resume E env s).comp = Tls.resume env s.comp := by
  have hpending : (processPending E env (onComp Component.enter
      (onComp (fun c => { c with suspendCount := s.comp.suspendCount - 1 }) s))).comp = _ := comp_processPending _
  rw [resume, Tls.resume, Component.resume]
  refine (apply_ite comp _ _ _).trans (if_congr Iff.rfl ?_ rfl)
  refine (apply_ite comp _ _ _).trans (if_congr Iff.rfl rfl ?_)
  exact congrArg (fun c => (Component.completeDeferred (flushAndComplete env) c.resumeUpstream).leave) hpending

end Erased

/-- One input of `TlsTransport`, without its write BIO and its callback. -/
def plainStep (env : ℕ → Reaction) (c : Component (Tls S)) : Op → Component (Tls S)
  | .start => if c.own.tornDown then c else Tls.startHandshake env c
  | .data chain => Tls.read env chain c
  | .write chain => Tls.write chain c
  | .done => onDone env c
  | .error e => onError e c
  | .suspend => c.suspend
  | .resume => if c.suspended then Tls.resume env c else c
  | .requestClose => c.requestClose
  | .runClose => if c.closeScheduled then Tls.doClose env c else c

/-- **Without its write BIO the session is the transport.** -/
theorem comp_step (s : Session S) (op : Op) : (step E env [] s op).comp = plainStep env s.comp op := by
  cases op with
  | start =>
    rw [step, plainStep]
    split
    · rfl
    · exact comp_startHandshake s
  | data chain => exact comp_read s chain
  | write chain => exact comp_write s chain
  | done => rfl
  | error e => rfl
  | suspend => rfl
  | resume =>
    rw [step, plainStep]
    split
    · exact comp_resume s
    · rfl
  | requestClose => rfl
  | runClose =>
    rw [step, plainStep]
    split
    · exact comp_doClose s
    · rfl

theorem comp_run (s : Session S) (ops : List Op) :
    (Runs.run (step E env []) s ops).comp = Runs.run (plainStep env) s.comp ops := by
  induction ops generalizing s with
  | nil => rfl
  | cons op ops ih => rw [Runs.run_cons, Runs.run_cons, ih, comp_step]

end Session

end DbnPipe.Tls
