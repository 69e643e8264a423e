import DbnPipe.Live.CramRules

/-!
# The text phase, byte by byte

What `OnTextData` does to a call's bytes, said without the chain and without the downstream.

* `byteStep` — one byte: the buffer never holds a newline between two bytes, so **a newline completes
  exactly one line** and leaves the buffer empty;
* `scan` — the bytes of a call, with the way it ends: all taken, a line too long, or the switch to streaming
  with bytes left over;
* `textLoop_scan` — the loop of `OnTextData` is that scan, followed by `HandleRemainingData`;
* `scan_receive`, `behindStart_scan` — **the bytes of the stream** are those that the scan leaves;
* `AtLines` — a condition at every line that the loop comes to, with `scan_preserves`, the rule for what
  the lines meeting it preserve.
-/

namespace DbnPipe.Live

/-! ### One byte -/

/-- The line whose bytes are in the buffer, its newline still to come. -/
def content (buffer : List Byte) : List Byte :=
  if buffer.getLast? = some 13 then buffer.dropLast else buffer

/-- A byte goes into the buffer. -/
def push (b : Byte) : Component CramAuth → Component CramAuth :=
  update fun h => { h with lineBuffer := h.lineBuffer ++ [b] }

/-- The buffer is emptied. -/
def clearLine : Component CramAuth → Component CramAuth := update fun h => { h with lineBuffer := [] }

variable (sha256 : List Byte → List Byte)

/-- One byte of the text phase. -/
def byteStep (b : Byte) (c : Component CramAuth) : Component CramAuth :=
  if b = 10 then clearLine (processLine sha256 (content c.own.lineBuffer) (push b c)) else push b c

theorem byteStep_newline (c : Component CramAuth) :
    byteStep sha256 10 c = clearLine (processLine sha256 (content c.own.lineBuffer) (push 10 c)) := rfl

theorem byteStep_of_ne {b : Byte} (hb : b ≠ 10) (c : Component CramAuth) : byteStep sha256 b c = push b c :=
  if_neg hb

theorem sendLine_lineBuffer (line : List Byte) (c : Component CramAuth) :
    (sendLine line c).own.lineBuffer = c.own.lineBuffer := by
  rw [sendLine]
  split
  · rfl
  · rw [fail_own]
    rfl

theorem sendPendingSubscription_lineBuffer (c : Component CramAuth) :
    (sendPendingSubscription c).own.lineBuffer = c.own.lineBuffer := by
  rw [sendPendingSubscription]
  split
  · rfl
  · split
    · rfl
    · simp only
      split
      · simp only [setState, record, update_own, sendLine_lineBuffer]
      · simp only [update_own, sendLine_lineBuffer]

theorem processLine_lineBuffer (line : List Byte) (c : Component CramAuth) :
    (processLine sha256 line c).own.lineBuffer = c.own.lineBuffer := by
  rw [processLine]
  split
  · rw [handleGreeting]
    split
    · rw [fail_own]
      rfl
    · rfl
  · rw [handleChallenge]
    split
    · rw [fail_own]
      rfl
    · simp only [setState, hear, record, update_own, sendLine_lineBuffer]
  · obtain ⟨greeting, htake⟩ := takeSessionId_eq line (hear line c)
    rw [handleAuthResponse, htake]
    split
    · rw [fail_own]
      rfl
    · rw [sendPendingSubscription_lineBuffer]
      rfl
  · rfl
  · rfl

/-- A buffer that ends with its only newline is one line. -/
theorem processLineBuffer_line (deliver : Component CramAuth → Component CramAuth) (fuel : ℕ)
    {c : Component CramAuth} {before : List Byte} (hbuf : c.own.lineBuffer = before ++ [10])
    (hn : 10 ∉ before) :
    processLineBuffer deliver sha256 (fuel + 1) c = clearLine (processLine sha256 (content before) c) := by
  have hline := processLine_lineBuffer sha256 (content before) c
  rw [processLineBuffer, hbuf, cut_of_not_mem hn]
  simp only [← content.eq_1]
  generalize processLine sha256 (content before) c = d at hline ⊢
  have hdrop : d.own.lineBuffer.drop (before.length + 1) = [] := by
    rw [hline, hbuf, List.drop_eq_nil_iff]
    simp
  have hnext : update (fun h => { h with lineBuffer := h.lineBuffer.drop (before.length + 1) }) d =
      clearLine d := by
    rw [clearLine, update, update, hdrop]
  rw [hnext, if_neg (by simp [clearLine])]
  cases fuel <;> simp [processLineBuffer, clearLine, cut]

/-- **A newline completes one line**: nothing is left in the buffer behind it. -/
theorem textByte_eq (deliver : Component CramAuth → Component CramAuth) (b : Byte) {c : Component CramAuth}
    (hn : 10 ∉ c.own.lineBuffer) : textByte deliver sha256 b c = byteStep sha256 b c := by
  by_cases hb : b = 10
  · subst hb
    have hbuf : (push 10 c).own.lineBuffer = c.own.lineBuffer ++ [10] := rfl
    have hlen : (push 10 c).own.lineBuffer.length = c.own.lineBuffer.length + 1 := by simp [hbuf]
    have h := processLineBuffer_line sha256 deliver c.own.lineBuffer.length hbuf hn
    rw [← hlen] at h
    exact h
  · rw [byteStep_of_ne sha256 hb]
    exact if_neg hb

/-- No newline stays in the buffer. -/
theorem byteStep_lineBuffer (b : Byte) {c : Component CramAuth} (hn : 10 ∉ c.own.lineBuffer) :
    10 ∉ (byteStep sha256 b c).own.lineBuffer := by
  rw [byteStep]
  split
  · simp [clearLine]
  · rename_i hb
    intro hmem
    rcases List.mem_append.mp hmem with hmem | hmem
    · exact hn hmem
    · exact hb (List.mem_singleton.mp hmem).symm

/-! ### The bytes of a call -/

/-- How the loop of `OnTextData` ends: the data is used up, the buffer is full, or streaming starts with
these bytes left. -/
inductive ScanEnd where
  | more
  | overflow
  | streaming (rest : List Byte)

/-- The loop of `OnTextData` on a byte list. -/
def scan : List Byte → Component CramAuth → Component CramAuth × ScanEnd
  | [], c => (c, .more)
  | b :: bs, c =>
    if kMaxLineLength ≤ c.own.lineBuffer.length then (emitOverflow "Line buffer overflow" c, .overflow)
    else
      let c := byteStep sha256 b c
      if b = 10 ∧ c.own.state = .streaming then (c, .streaming bs) else scan bs c

/-- **The text phase** only updates the derived part, where the stream stays as it is, and fails. -/
theorem scan_keeps {P : Component CramAuth → Prop}
    (hupdate : ∀ f c, streamPart (f c.own) = streamPart c.own → P c → P (update f c))
    (hfail : ∀ code message c, P c → P (fail code message c)) {bs : List Byte} {c : Component CramAuth}
    (h : P c) : P (scan sha256 bs c).1 := by
  induction bs generalizing c with
  | nil => exact h
  | cons b bs ih =>
    have hbyte : P (byteStep sha256 b c) := by
      have hpush : P (push b c) := hupdate _ c rfl h
      rw [byteStep]
      split
      · exact hupdate _ _ rfl (processLine_preserves hupdate hfail sha256 _ hpush)
      · exact hpush
    rw [scan]
    split
    · exact hfail _ _ c h
    · simp only
      split
      · exact hbyte
      · exact ih hbyte

/-- No newline stays in the buffer. -/
theorem scan_lineBuffer (bs : List Byte) {c : Component CramAuth} (hn : 10 ∉ c.own.lineBuffer) :
    10 ∉ (scan sha256 bs c).1.own.lineBuffer := by
  induction bs generalizing c with
  | nil => exact hn
  | cons b bs ih =>
    have hbyte := byteStep_lineBuffer sha256 b hn
    rw [scan]
    split
    · rw [emitOverflow, fail_own]
      exact hn
    · simp only
      split
      · exact hbyte
      · exact ih hbyte

/-- A scan that ends in the stream is in that state. -/
theorem scan_streaming {bs : List Byte} {c c' : Component CramAuth} {rest : List Byte}
    (h : scan sha256 bs c = (c', .streaming rest)) : c'.own.state = .streaming := by
  induction bs generalizing c with
  | nil => simp [scan] at h
  | cons b bs ih =>
    rw [scan] at h
    split at h
    · simp at h
    · simp only at h
      split at h
      · rename_i hswitch
        obtain ⟨rfl, -⟩ := Prod.mk.inj h
        exact hswitch.2
      · exact ih h

/-- **The loop of `OnTextData`** scans, and hands what is left at a switch to `HandleRemainingData`. -/
theorem textLoop_scan (deliver : Component CramAuth → Component CramAuth) {fuel : ℕ} {data : Chain}
    (hwf : Chain.WF data) (hfuel : data.size ≤ fuel) {c : Component CramAuth}
    (hn : 10 ∉ c.own.lineBuffer) :
    match scan sha256 (Chain.bytes data) c with
    | (c', .streaming rest) => ∃ data', Chain.WF data' ∧ Chain.bytes data' = rest ∧
        textLoop deliver sha256 fuel data c = handleRemainingData deliver data' c'
    | (c', _) => (textLoop deliver sha256 fuel data c).1 = c' := by
  induction fuel generalizing data c with
  | zero =>
    have hnil : Chain.bytes data = [] := by
      rw [Chain.size_eq hwf] at hfuel
      exact List.length_eq_zero_iff.mp (by omega)
    rw [hnil]
    rfl
  | succ fuel ih =>
    rw [textLoop]
    cases hbytes : Chain.bytes data with
    | nil =>
      have he : data.empty = true := (Chain.empty_iff hwf).mpr hbytes
      simp only [he, if_true, scan]
    | cons b bs =>
      have he : data.empty = false := (Chain.not_empty_iff hwf).mpr (by rw [hbytes]; simp)
      have hfirst : data.copyTo id 0 1 = [b] := by
        rw [BufferChain.copyTo_eq, show BufferChain.bytes id data = b :: bs from hbytes]
        rfl
      have hrest : Chain.bytes (data.consume id 1) = bs := by
        rw [Chain.bytes_consumed hwf, hbytes]
        rfl
      have hsize : (data.consume id 1).size ≤ fuel := by
        rw [Chain.size_eq (Chain.wf_consumed hwf 1), hrest]
        rw [Chain.size_eq hwf, hbytes, List.length_cons] at hfuel
        omega
      simp only [he, Bool.false_eq_true, if_false, hfirst, List.headD_cons, scan,
        textByte_eq sha256 deliver b hn]
      by_cases hlen : kMaxLineLength ≤ c.own.lineBuffer.length
      · simp only [if_pos hlen]
      simp only [if_neg hlen]
      by_cases hswitch : b = 10 ∧ (byteStep sha256 b c).own.state = .streaming
      · simp only [if_pos hswitch]
        exact ⟨_, Chain.wf_consumed hwf 1, hrest, rfl⟩
      · simp only [if_neg hswitch]
        have hnext := ih (Chain.wf_consumed hwf 1) hsize (byteStep_lineBuffer sha256 b hn)
        rw [hrest] at hnext
        exact hnext

/-! ### The bytes of the stream -/

section Receive

variable (bytes : List Byte)

theorem scheduleClose_receive (c : Component CramAuth) :
    (receive bytes c).scheduleClose = receive bytes c.scheduleClose := by
  have hscheduled : (receive bytes c).closeScheduled = c.closeScheduled := rfl
  rw [Component.scheduleClose, Component.scheduleClose, hscheduled]
  split <;> rfl

theorem leave_receive (c : Component CramAuth) : (receive bytes c).leave = receive bytes c.leave := by
  have hcount : (receive bytes c).processingCount = c.processingCount := rfl
  have hpending : (receive bytes c).closePending = c.closePending := rfl
  simp only [Component.leave, hcount, hpending]
  split
  · exact scheduleClose_receive bytes { c with processingCount := c.processingCount - 1 }
  · rfl

theorem emitError_receive (e : Error) (c : Component CramAuth) :
    (receive bytes c).emitError e = receive bytes (c.emitError e) := by
  have hfinalized : (receive bytes c).finalized = c.finalized := rfl
  rw [Component.emitError, Component.emitError, hfinalized]
  split
  · rfl
  · exact leave_receive bytes
      { c with
        finalized := true
        processingCount := c.processingCount + 1
        signals := c.signals ++ [.error e] }

theorem requestClose_receive (c : Component CramAuth) :
    (receive bytes c).requestClose = receive bytes c.requestClose := by
  have hclosed : (receive bytes c).closed = c.closed := rfl
  have hcount : (receive bytes c).processingCount = c.processingCount := rfl
  rw [Component.requestClose, Component.requestClose, hclosed, hcount]
  split
  · rfl
  · split
    · rfl
    · exact scheduleClose_receive bytes { c with closed := true }

theorem fail_receive (code : ErrorCode) (message : String) (c : Component CramAuth) :
    fail code message (receive bytes c) = receive bytes (fail code message c) := by
  rw [fail, fail, emitError_receive, requestClose_receive]

theorem setState_receive (s : CramAuthState) (c : Component CramAuth) :
    setState s (receive bytes c) = receive bytes (setState s c) := rfl

theorem sendLine_receive (line : List Byte) (c : Component CramAuth) :
    sendLine line (receive bytes c) = receive bytes (sendLine line c) := by
  rw [sendLine, sendLine]
  split
  · rfl
  · exact fail_receive bytes _ _ (record (.refused line) c)

theorem sendPendingSubscription_receive (c : Component CramAuth) :
    sendPendingSubscription (receive bytes c) = receive bytes (sendPendingSubscription c) := by
  have hnext : nextSubscription (receive bytes c).own = nextSubscription c.own := rfl
  rw [sendPendingSubscription_eq, sendPendingSubscription_eq, hnext]
  cases nextSubscription c.own with
  | none => rfl
  | some line =>
    have hsent : markSent (sendLine line (countSubscription (receive bytes c))) =
        receive bytes (markSent (sendLine line (countSubscription c))) :=
      congrArg markSent (sendLine_receive bytes line (countSubscription c))
    have hstart : (receive bytes c).own.startRequested = c.own.startRequested := rfl
    simp only [hsent, hstart, begin_eq]
    split <;> rfl

theorem takeSessionId_receive (line : List Byte) (c : Component CramAuth) :
    takeSessionId line (receive bytes c) = receive bytes (takeSessionId line c) := by
  simp only [takeSessionId, receive, update]
  split
  · rfl
  · split <;> rfl

/-- What is received does not change what a line does. -/
theorem processLine_receive (line : List Byte) (c : Component CramAuth) :
    processLine sha256 line (receive bytes c) = receive bytes (processLine sha256 line c) := by
  have hstate : (receive bytes c).own.state = c.own.state := rfl
  have hheard : hear line (receive bytes c) = receive bytes (hear line c) := rfl
  rw [processLine, processLine, hstate, hheard]
  cases c.own.state with
  | waitingGreeting =>
    simp only [handleGreeting]
    split
    · exact fail_receive bytes _ _ _
    · rfl
  | waitingChallenge =>
    have hkey : (receive bytes (hear line c)).own.apiKey = (hear line c).own.apiKey := rfl
    have hdataset : (receive bytes (hear line c)).own.dataset = (hear line c).own.dataset := rfl
    simp only [handleChallenge, hkey, hdataset]
    split
    · exact fail_receive bytes _ _ _
    · rw [sendLine_receive, setState_receive]
  | authenticating =>
    simp only [handleAuthResponse, takeSessionId_receive]
    split
    · exact fail_receive bytes _ _ _
    · rw [setState_receive, sendPendingSubscription_receive]
  | ready => rfl
  | streaming => rfl

theorem byteStep_receive (b : Byte) (c : Component CramAuth) :
    byteStep sha256 b (receive bytes c) = receive bytes (byteStep sha256 b c) := by
  rw [byteStep, byteStep]
  split
  · exact congrArg clearLine (processLine_receive sha256 bytes (content c.own.lineBuffer) (push b c))
  · rfl

/-- What is received does not change a scan. -/
theorem scan_receive (bs : List Byte) (c : Component CramAuth) :
    scan sha256 bs (receive bytes c) = (receive bytes (scan sha256 bs c).1, (scan sha256 bs c).2) := by
  induction bs generalizing c with
  | nil => rfl
  | cons b bs ih =>
    have hline : (receive bytes c).own.lineBuffer = c.own.lineBuffer := rfl
    have hstate : (receive bytes (byteStep sha256 b c)).own.state = (byteStep sha256 b c).own.state := rfl
    rw [scan, scan, hline, byteStep_receive]
    split
    · rw [emitOverflow, fail_receive]
    · simp only [hstate]
      split
      · rfl
      · exact ih (byteStep sha256 b c)

end Receive

/-- The bytes that a scan leaves to the stream. -/
def ScanEnd.rest : ScanEnd → List Byte
  | .streaming rest => rest
  | .more | .overflow => []

/-- **The bytes of the stream** of a call in the text phase are those that the scan leaves. -/
theorem behindStart_scan (bs : List Byte) {c : Component CramAuth} (hn : 10 ∉ c.own.lineBuffer)
    (hs : c.own.state ≠ .streaming) : behindStart sha256 bs c = (scan sha256 bs c).2.rest := by
  induction bs generalizing c with
  | nil => rfl
  | cons b bs ih =>
    have hbyte : textByte id sha256 b c = byteStep sha256 b c := textByte_eq sha256 id b hn
    rw [behindStart, scan]
    split
    · rfl
    · simp only [hbyte]
      by_cases hst : (byteStep sha256 b c).own.state = .streaming
      · have hb : b = 10 := by
          by_contra hb
          rw [byteStep_of_ne sha256 hb] at hst
          exact hs hst
        rw [if_pos hst, if_pos ⟨hb, hst⟩]
        rfl
      · rw [if_neg hst, if_neg fun hboth => hst hboth.2]
        exact ih (byteStep_lineBuffer sha256 b hn) hst

/-! ### A condition at every line -/

/-- `ok` holds, of the state before it and the line, at every line that the scan of these bytes completes. -/
def AtLines (ok : Component CramAuth → List Byte → Prop) : List Byte → Component CramAuth → Prop
  | [], _ => True
  | b :: bs, c =>
    kMaxLineLength ≤ c.own.lineBuffer.length ∨
      ((b = 10 → ok c (content c.own.lineBuffer)) ∧
        (b = 10 ∧ (byteStep sha256 b c).own.state = .streaming ∨ AtLines ok bs (byteStep sha256 b c)))

instance decidableAtLines (ok : Component CramAuth → List Byte → Prop)
    [∀ c line, Decidable (ok c line)] : ∀ bs c, Decidable (AtLines sha256 ok bs c)
  | [], _ => inferInstanceAs (Decidable True)
  | b :: bs, c =>
    have := decidableAtLines ok bs (byteStep sha256 b c)
    inferInstanceAs (Decidable (_ ∨ (_ ∧ (_ ∨ _))))

/-- What is received does not change the lines. -/
theorem atLines_receive {ok : Component CramAuth → List Byte → Prop} (received : List Byte)
    (hok : ∀ c line, ok c line → ok (receive received c) line) {bs : List Byte} {c : Component CramAuth}
    (h : AtLines sha256 ok bs c) : AtLines sha256 ok bs (receive received c) := by
  induction bs generalizing c with
  | nil => trivial
  | cons b bs ih =>
    refine h.imp id fun hlines => ⟨fun hb => hok _ _ (hlines.1 hb), ?_⟩
    rw [byteStep_receive]
    exact hlines.2.imp id ih

/-- **What bytes preserve, a scan preserves**: a byte that completes a line completes one that meets the
condition. -/
theorem scan_preserves (ok : Component CramAuth → List Byte → Prop) (Inv : Component CramAuth → Prop)
    (hbyte : ∀ b c, Inv c → c.own.state ≠ .streaming → (b = 10 → ok c (content c.own.lineBuffer)) →
      Inv (byteStep sha256 b c))
    (hover : ∀ c, Inv c → c.own.state ≠ .streaming → Inv (emitOverflow "Line buffer overflow" c))
    {bs : List Byte} {c : Component CramAuth} (hs : c.own.state ≠ .streaming) (h : Inv c)
    (hok : AtLines sha256 ok bs c) : Inv (scan sha256 bs c).1 := by
  induction bs generalizing c with
  | nil => exact h
  | cons b bs ih =>
    rw [scan]
    split
    · exact hover c h hs
    · rename_i hlen
      obtain ⟨hline, hrest⟩ := hok.resolve_left hlen
      have hnext := hbyte b c h hs hline
      simp only
      split
      · exact hnext
      · rename_i hswitch
        have hs' : (byteStep sha256 b c).own.state ≠ .streaming := by
          intro he
          by_cases hb : b = 10
          · exact hswitch ⟨hb, he⟩
          · rw [byteStep_of_ne sha256 hb] at he
            exact hs he
        exact ih hs' hnext (hrest.resolve_left hswitch)

end DbnPipe.Live
