import DbnPipe.Library.Runs
import DbnPipe.Stream.TlsTransport

/-!
# The TLS read path conserves plaintext

Runs of `OnData`, `OnDone`, `Suspend`, `Resume` and the posted `DoClose` after the handshake.

* `SslReads` — `SSL_read` as documented: the plaintext of the input fed, in order;
* `DataInv` — **conservation**: consumed bytes, then `pending_read_chain_`, are the bytes read;
* `LifeInv` — a component is closed exactly when its one terminal signal is out, and a done signal finds
  every plaintext byte consumed;
* `readLoop_spec` — the loop ends closed, suspended, or with nothing left to read;
* `ReadInv` — what holds between calls; `readStep_inv` and `readInv_run`;
* `read_conserves` — the statement over all runs.
-/

namespace DbnPipe.Tls

variable {S : Ssl}

/-- `SSL_read` as documented: `plain f` is what the input `f` decrypts to; a call returns the next bytes of
it, then asks for more input or, after a close_notify, reports the end. -/
structure SslReads (S : Ssl) where
  fed : S.State → List Byte
  nread : S.State → ℕ
  plain : List Byte → List Byte
  closeNotify : List Byte → Bool
  plain_append : ∀ f g, plain f <+: plain (f ++ g)
  nread_le : ∀ s, nread s ≤ (plain (fed s)).length
  fed_bioWrite : ∀ s l, fed (S.bioWrite s l) = fed s ++ l
  nread_bioWrite : ∀ s l, nread (S.bioWrite s l) = nread s
  fed_read : ∀ s, fed (S.read s).2 = fed s
  available : ∀ s, S.available s = (plain (fed s)).length - nread s
  read_data : ∀ s, nread s < (plain (fed s)).length → ∃ l h, (S.read s).1 = .data l h ∧ l ≠ [] ∧
    l = ((plain (fed s)).drop (nread s)).take l.length ∧ nread (S.read s).2 = nread s + l.length
  read_end : ∀ s, nread s = (plain (fed s)).length →
    (S.read s).1 = (if closeNotify (fed s) then .zeroReturn else .wantRead) ∧
      nread (S.read s).2 = nread s

variable (R : SslReads S) (env : ℕ → Reaction)

/-! ### The invariant -/

/-- The data of a transport after the handshake. -/
structure DataInv (t : Tls S) : Prop where
  handshake : t.handshakeState = .complete
  diverged : t.diverged = false
  reads : t.readWhileSuspended = false
  wf : Chain.WF t.pendingReadChain
  read_eq : t.readBytes = (R.plain (R.fed t.ssl)).take (R.nread t.ssl)
  split : t.tornDown = false → t.overflowed = false →
    t.consumed ++ Chain.bytes t.pendingReadChain = t.readBytes

/-- The lifecycle of a transport. -/
structure LifeInv (c : Component (Tls S)) : Prop where
  closed : c.closed = c.finalized
  scheduled : c.closePending = true ∨ c.closeScheduled = true → c.closed = true
  broken : c.own.tornDown = true ∨ c.own.overflowed = true → c.finalized = true
  silent : c.finalized = false → c.signals = []
  spoken : c.finalized = true → ∃ s, c.signals = [s] ∧ (s = .done →
    c.own.consumed = R.plain (R.fed c.own.ssl) ∧ Chain.bytes c.own.pendingReadChain = [])

/-- Both halves, as they hold inside and between calls. -/
structure Core (c : Component (Tls S)) : Prop where
  data : DataInv R c.own
  life : LifeInv R c

/-- Every plaintext byte that the input fed decrypts to has been read. -/
def Drained (c : Component (Tls S)) : Prop := R.nread c.own.ssl = (R.plain (R.fed c.own.ssl)).length

/-- What a call leaves behind: the transport is closed, or suspended, or has nothing left to read. -/
def Settled (c : Component (Tls S)) : Prop :=
  c.closed = true ∨ c.suspended = true ∨ Drained R c

/-- A completion has gone through or waits for the transport to be resumed. -/
def Completed (c : Component (Tls S)) : Prop :=
  c.closed = true ∨ (c.suspended = true ∧ c.donePending = true)

variable {R}

section Frame

variable {c : Component (Tls S)}

theorem Core.finalized_of_closed (h : Core R c) (hc : c.closed = true) : c.finalized = true :=
  h.life.closed ▸ hc

theorem Core.not_finalized (h : Core R c) (hc : c.closed = false) : c.finalized = false :=
  h.life.closed ▸ hc

/-- Changes of the base that neither signal nor close keep the invariant. -/
theorem Core.congr (h : Core R c) {d : Component (Tls S)} (ho : d.own = c.own)
    (hc : d.closed = c.closed) (hf : d.finalized = c.finalized) (hs : d.signals = c.signals)
    (hp : d.closePending = true ∨ d.closeScheduled = true → d.closed = true) : Core R d := by
  refine ⟨by rw [ho]; exact h.data, ⟨by rw [hc, hf]; exact h.life.closed, hp, ?_, ?_, ?_⟩⟩
  · rw [ho, hf]
    exact h.life.broken
  · rw [hf, hs]
    exact h.life.silent
  · rw [hf, hs, ho]
    exact h.life.spoken

theorem Core.enter (h : Core R c) : Core R c.enter :=
  h.congr rfl rfl rfl rfl h.life.scheduled

theorem Core.leave (h : Core R c) : Core R c.leave := by
  refine h.congr (by simp) (by simp) (by simp) (by simp) fun hp => ?_
  rw [Component.leave_closed]
  exact h.life.scheduled (Component.leave_scheduled hp)

theorem Core.deferOnDone (h : Core R c) : Core R c.deferOnDone :=
  h.congr rfl rfl rfl rfl h.life.scheduled

theorem Core.clearDone (h : Core R c) : Core R c.clearDone :=
  h.congr rfl rfl rfl rfl h.life.scheduled

theorem Core.suspend (h : Core R c) : Core R c.suspend := by
  rw [Component.suspend]
  split <;> exact h.congr rfl rfl rfl rfl h.life.scheduled

theorem Core.resumeUpstream (h : Core R c) : Core R c.resumeUpstream := by
  rw [Component.resumeUpstream]
  split
  · exact h
  · exact h.congr rfl rfl rfl rfl h.life.scheduled

/-- A first terminal error, whatever the data is. -/
theorem core_of_error {d : Component (Tls S)} {e : Error} (he : Component.Ended c d (.error e))
    (hd : DataInv R d.own) (hs : c.signals = []) : Core R d := by
  refine ⟨hd, ⟨by rw [he.closed, he.finalized], fun _ => he.closed, fun _ => he.finalized,
    fun hn => ?_, fun _ => ⟨.error e, ?_, fun hdone => ?_⟩⟩⟩
  · rw [he.finalized] at hn
    cases hn
  · rw [he.signals, hs]
    rfl
  · cases hdone

/-- A terminal error closes an open transport and leaves a closed one alone. -/
theorem core_fail (h : Core R c) (e : Error) :
    Core R (c.emitError e).requestClose ∧ (c.emitError e).requestClose.closed = true := by
  cases hc : c.closed with
  | true =>
    rw [Component.error_of_closed hc (h.finalized_of_closed hc)]
    exact ⟨h, hc⟩
  | false =>
    have hf := h.not_finalized hc
    have he := Component.ended_error hc hf e
    exact ⟨core_of_error he (by rw [he.own]; exact h.data) (h.life.silent hf), he.closed⟩

/-- `OnDone` goes to the downstream when everything was read and nothing is pending. -/
theorem core_done (h : Core R c) (hd : c.closed = true ∨ Drained R c)
    (hp : Chain.bytes c.own.pendingReadChain = []) :
    Core R c.emitDone.requestClose ∧ c.emitDone.requestClose.closed = true := by
  cases hc : c.closed with
  | true =>
    rw [Component.done_of_closed hc (h.finalized_of_closed hc)]
    exact ⟨h, hc⟩
  | false =>
    have hf := h.not_finalized hc
    have he := Component.ended_done hc hf
    have hbroken : ¬ (c.own.tornDown = true ∨ c.own.overflowed = true) := fun hb => by
      rw [h.life.broken hb] at hf
      cases hf
    rw [not_or, Bool.not_eq_true, Bool.not_eq_true] at hbroken
    have hdrained : Drained R c := hd.resolve_left (by simp [hc])
    have hall : c.own.consumed = R.plain (R.fed c.own.ssl) := by
      have hsplit := h.data.split hbroken.1 hbroken.2
      rw [hp, List.append_nil, h.data.read_eq, hdrained, List.take_length] at hsplit
      exact hsplit
    refine ⟨⟨by rw [he.own]; exact h.data, ⟨by rw [he.closed, he.finalized], fun _ => he.closed,
      fun _ => he.finalized, ?_, fun _ => ⟨.done, ?_, fun _ => ?_⟩⟩⟩, he.closed⟩
    · rw [he.finalized]
      simp
    · rw [he.signals, h.life.silent hf]
      rfl
    · rw [he.own]
      exact ⟨hall, hp⟩

end Frame

/-! ### Deliveries -/

theorem suspendTimes_spec {c : Component (Tls S)} (h : Core R c) (n : ℕ) :
    Core R (suspendTimes n c) ∧ (suspendTimes n c).own = c.own ∧
      (suspendTimes n c).closed = c.closed ∧ (suspendTimes n c).donePending = c.donePending := by
  induction n generalizing c with
  | zero => exact ⟨h, rfl, rfl, rfl⟩
  | succ n ih =>
    obtain ⟨h1, h2, h3, h4⟩ := ih h.suspend
    refine ⟨h1, h2.trans c.suspend_own, h3.trans ?_, h4.trans ?_⟩
    · rw [Component.suspend]
      split <;> rfl
    · rw [Component.suspend]
      split <;> rfl

/-- **A delivery** moves bytes from the front of `pending_read_chain_` to the consumed ones, and may
suspend. -/
theorem deliver_spec {c : Component (Tls S)} (h : Core R c) :
    Core R (deliver env c) ∧ (deliver env c).own.ssl = c.own.ssl ∧
      (deliver env c).closed = c.closed ∧ (deliver env c).donePending = c.donePending := by
  have hcore : Core R (update (fun t =>
      { t with
        pendingReadChain := t.pendingReadChain.consume id (env c.own.deliveries).consume
        consumed := t.consumed ++
          (Chain.bytes t.pendingReadChain).take (env c.own.deliveries).consume
        deliveries := t.deliveries + 1 }) c) := by
    refine ⟨⟨h.data.handshake, h.data.diverged, h.data.reads, Chain.wf_consumed h.data.wf _,
      h.data.read_eq, ?_⟩, ⟨h.life.closed, h.life.scheduled, h.life.broken, h.life.silent, ?_⟩⟩
    · intro ht ho
      show (c.own.consumed ++ (Chain.bytes c.own.pendingReadChain).take _) ++
        Chain.bytes (c.own.pendingReadChain.consume id _) = c.own.readBytes
      rw [Chain.bytes_consumed h.data.wf, List.append_assoc, List.take_append_drop]
      exact h.data.split ht ho
    · intro hf
      obtain ⟨s, hs, hdone⟩ := h.life.spoken hf
      refine ⟨s, hs, fun hsd => ?_⟩
      obtain ⟨hall, hnil⟩ := hdone hsd
      show c.own.consumed ++ (Chain.bytes c.own.pendingReadChain).take _ = R.plain (R.fed c.own.ssl) ∧
        Chain.bytes (c.own.pendingReadChain.consume id _) = []
      rw [Chain.bytes_consumed h.data.wf, hnil]
      exact ⟨by simpa using hall, by simp⟩
  obtain ⟨h1, h2, h3, h4⟩ := suspendTimes_spec hcore (env c.own.deliveries).suspends
  refine ⟨h1, ?_, h3, h4⟩
  show (suspendTimes _ _).own.ssl = c.own.ssl
  rw [h2]
  rfl

theorem drained_congr {c d : Component (Tls S)} (h : d.own.ssl = c.own.ssl) :
    Drained R d ↔ Drained R c := by
  rw [Drained, Drained, h]

/-- `CompleteWithFlush`, by what is pending and what the downstream does with it. -/
theorem flushAndComplete_cases (c : Component (Tls S)) :
    (c.own.pendingReadChain.empty = true ∧ flushAndComplete env c = c.emitDone.requestClose) ∨
    ((deliver env c).suspended = true ∧ flushAndComplete env c = (deliver env c).deferOnDone) ∨
    (∃ e, flushAndComplete env c = ((deliver env c).emitError e).requestClose) ∨
    ((deliver env c).own.pendingReadChain.empty = true ∧
      flushAndComplete env c = (deliver env c).emitDone.requestClose) := by
  rw [flushAndComplete, Component.completeWithFlush, Component.flushPendingData]
  cases hc : c.own.pendingReadChain.empty with
  | true => exact Or.inl ⟨rfl, by simp⟩
  | false =>
    refine Or.inr ?_
    cases hs : (deliver env c).suspended with
    | true => exact Or.inl ⟨rfl, by simp [hs]⟩
    | false =>
      refine Or.inr ?_
      cases he : (deliver env c).own.pendingReadChain.empty with
      | true => exact Or.inr ⟨rfl, by simp [hs, he]⟩
      | false => exact Or.inl ⟨_, by simp [hs, he]; rfl⟩

/-- **Completion**: with everything read, the transport is closed, or the completion waits for it to be
resumed. -/
theorem flushAndComplete_spec {c : Component (Tls S)} (h : Core R c)
    (hd : c.closed = true ∨ Drained R c) :
    Core R (flushAndComplete env c) ∧ Completed (flushAndComplete env c) ∧
      (c.donePending = true → (flushAndComplete env c).donePending = true) := by
  obtain ⟨h1, h2, h3, h4⟩ := deliver_spec env h
  have hd' : (deliver env c).closed = true ∨ Drained R (deliver env c) := by
    rw [h3, drained_congr h2]
    exact hd
  rcases flushAndComplete_cases env c with ⟨he, heq⟩ | ⟨hs, heq⟩ | ⟨e, heq⟩ | ⟨he, heq⟩
  · obtain ⟨g1, g2⟩ := core_done h hd ((Chain.empty_iff h.data.wf).1 he)
    rw [heq, Component.done_donePending]
    exact ⟨g1, Or.inl g2, fun hp => hp⟩
  · rw [heq]
    exact ⟨h1.deferOnDone, Or.inr ⟨hs, rfl⟩, fun _ => rfl⟩
  · obtain ⟨g1, g2⟩ := core_fail h1 e
    rw [heq, Component.error_donePending, h4]
    exact ⟨g1, Or.inl g2, fun hp => hp⟩
  · obtain ⟨g1, g2⟩ := core_done h1 hd' ((Chain.empty_iff h1.data.wf).1 he)
    rw [heq, Component.done_donePending, h4]
    exact ⟨g1, Or.inl g2, fun hp => hp⟩

theorem Completed.settled {c : Component (Tls S)} (h : Completed c) : Settled R c :=
  h.imp_right fun hs => Or.inl hs.1

/-! ### Reading -/

/-- An exceeded limit ends the transport, whatever becomes of the bytes read last. -/
theorem overflow_spec {c : Component (Tls S)} (hd : DataInv R { c.own with overflowed := true })
    (hl : LifeInv R c) (hc : c.closed = false) (message : String) :
    Core R (overflow message c) ∧ (overflow message c).closed = true ∧
      (overflow message c).donePending = c.donePending := by
  have hf : c.finalized = false := hl.closed ▸ hc
  have he : Component.Ended (update (fun t => { t with overflowed := true }) c) (overflow message c)
      (.error { code := .bufferOverflow, message := message }) :=
    Component.ended_error (c := update (fun t => { t with overflowed := true }) c) hc hf _
  exact ⟨core_of_error he (by rw [he.own]; exact hd) (hl.silent hf), he.closed, he.donePending⟩

/-- `SSL_read` with plaintext left: the next bytes of it.  They go to `pending_read_chain_`, or are dropped
with an error where the chain is full. -/
theorem sslRead_data {c : Component (Tls S)} (h : Core R c) (hc : c.closed = false)
    (hs : c.suspended = false)
    (hmore : R.nread c.own.ssl < (R.plain (R.fed c.own.ssl)).length) :
    ∃ l b, (sslRead c).1 = .data l b ∧
      S.available (sslRead c).2.own.ssl < S.available c.own.ssl ∧
      (∀ m, Core R (overflow m (update (fun t => { t with readBytes := t.readBytes ++ l })
        (sslRead c).2)) ∧ (overflow m (update (fun t => { t with readBytes := t.readBytes ++ l })
        (sslRead c).2)).closed = true ∧ (overflow m (update (fun t =>
          { t with readBytes := t.readBytes ++ l }) (sslRead c).2)).donePending = c.donePending) ∧
      Core R (appendRead l b (update (fun t => { t with readBytes := t.readBytes ++ l })
        (sslRead c).2)) := by
  obtain ⟨l, b, hl, hne, hslice, hn⟩ := R.read_data c.own.ssl hmore
  have hpos : 0 < l.length := List.length_pos_iff.2 hne
  have hfed := R.fed_read c.own.ssl
  have hle := R.nread_le (S.read c.own.ssl).2
  have hf := h.not_finalized hc
  -- what has been read stays a prefix of the plaintext
  have hread : c.own.readBytes ++ l = (R.plain (R.fed (S.read c.own.ssl).2)).take
      (R.nread (S.read c.own.ssl).2) := by
    rw [h.data.read_eq, hfed, hn, List.take_add, ← hslice]
  have hreads : (c.own.readWhileSuspended || c.suspended) = false := by
    rw [h.data.reads, hs]
    rfl
  have hlife : ∀ d : Component (Tls S), d.closed = c.closed → d.finalized = c.finalized →
      d.signals = c.signals → d.closePending = c.closePending → d.closeScheduled = c.closeScheduled →
      d.own.tornDown = c.own.tornDown → d.own.overflowed = c.own.overflowed → LifeInv R d := by
    intro d h1 h2 h3 h4 h5 h6 h7
    refine ⟨by rw [h1, h2, h.life.closed], by rw [h1, h4, h5]; exact h.life.scheduled,
      by rw [h2, h6, h7]; exact h.life.broken, by rw [h2, h3]; exact h.life.silent, fun hfin => ?_⟩
    rw [h2, hf] at hfin
    cases hfin
  refine ⟨l, b, hl, ?_, fun m => ?_, ?_⟩
  · show S.available (S.read c.own.ssl).2 < _
    rw [R.available, R.available, hfed, hn]
    rw [hfed, hn] at hle
    omega
  · refine overflow_spec (c := update (fun t => { t with readBytes := t.readBytes ++ l }) (sslRead c).2)
      ⟨h.data.handshake, h.data.diverged, hreads, h.data.wf, hread, ?_⟩
      (hlife _ rfl rfl rfl rfl rfl rfl rfl) hc m
    intro _ ho
    cases ho
  · refine ⟨⟨h.data.handshake, h.data.diverged, hreads, Chain.wf_appended h.data.wf _, hread, ?_⟩,
      hlife _ rfl rfl rfl rfl rfl rfl rfl⟩
    intro ht ho
    show c.own.consumed ++ Chain.bytes (c.own.pendingReadChain.append id _) = c.own.readBytes ++ l
    rw [Chain.bytes_appended h.data.wf, ← List.append_assoc, h.data.split ht ho]
    rfl

/-- `SSL_read` with no plaintext left. -/
theorem sslRead_end {c : Component (Tls S)} (h : Core R c) (hs : c.suspended = false)
    (hend : R.nread c.own.ssl = (R.plain (R.fed c.own.ssl)).length) :
    (sslRead c).1 = (if R.closeNotify (R.fed c.own.ssl) then .zeroReturn else .wantRead) ∧
      Core R (sslRead c).2 ∧ Drained R (sslRead c).2 := by
  obtain ⟨h1, h2⟩ := R.read_end c.own.ssl hend
  have hfed := R.fed_read c.own.ssl
  have hreads : (c.own.readWhileSuspended || c.suspended) = false := by
    rw [h.data.reads, hs]
    rfl
  have hread : c.own.readBytes = (R.plain (R.fed (S.read c.own.ssl).2)).take
      (R.nread (S.read c.own.ssl).2) := by
    rw [hfed, h2]
    exact h.data.read_eq
  refine ⟨h1, ⟨⟨h.data.handshake, h.data.diverged, hreads, h.data.wf, hread, h.data.split⟩,
    ⟨h.life.closed, h.life.scheduled, h.life.broken, h.life.silent, fun hfin => ?_⟩⟩, ?_⟩
  · obtain ⟨s, hs', hdone⟩ := h.life.spoken hfin
    refine ⟨s, hs', fun hsd => ?_⟩
    obtain ⟨hall, hnil⟩ := hdone hsd
    show c.own.consumed = R.plain (R.fed (S.read c.own.ssl).2) ∧ _
    rw [hfed]
    exact ⟨hall, hnil⟩
  · show R.nread (S.read c.own.ssl).2 = (R.plain (R.fed (S.read c.own.ssl).2)).length
    rw [hfed, h2, hend]

theorem deliverPending_spec {c : Component (Tls S)} (h : Core R c) (hd : Drained R c) :
    Core R (deliverPending env c) ∧ Drained R (deliverPending env c) ∧
      (deliverPending env c).donePending = c.donePending := by
  rw [deliverPending]
  split
  · exact ⟨h, hd, rfl⟩
  · obtain ⟨h1, h2, -, h4⟩ := deliver_spec env h
    exact ⟨h1, (drained_congr h2).2 hd, h4⟩

/-- **The read loop** ends, and leaves the transport closed, suspended, or with nothing left to read. -/
theorem readLoop_spec (fuel : ℕ) {c : Component (Tls S)} (h : Core R c) (hc : c.closed = false)
    (hs : c.suspended = false) (hf : S.available c.own.ssl < fuel) :
    Core R (readLoop env fuel c) ∧ Settled R (readLoop env fuel c) ∧
      (c.donePending = true → (readLoop env fuel c).donePending = true) := by
  induction fuel generalizing c with
  | zero => omega
  | succ fuel ih =>
    have hle := R.nread_le c.own.ssl
    rcases Nat.lt_or_eq_of_le hle with hmore | hend
    · obtain ⟨l, b, hl, hdec, hover, hcore⟩ := sslRead_data h hc hs hmore
      rw [readLoop]
      generalize hr : sslRead c = r at hl hdec hover hcore
      obtain ⟨result, c1⟩ := r
      have hkeep : c1.closed = c.closed ∧ c1.suspended = c.suspended ∧
          c1.donePending = c.donePending := by
        obtain rfl : (sslRead c).2 = c1 := congrArg Prod.snd hr
        exact ⟨rfl, rfl, rfl⟩
      simp only at hl hdec hover hcore
      subst hl
      dsimp only
      split
      · obtain ⟨g1, g2, g3⟩ := hover "TLS decrypted output buffer overflow"
        exact ⟨g1, Or.inl g2, fun hp => g3.trans hp⟩
      · have hopen := hkeep.1.trans hc
        have hfuel : S.available c1.own.ssl < fuel := by omega
        split
        · obtain ⟨d1, d2, d3, d4⟩ := deliver_spec env hcore
          split
          · rename_i hsus
            exact ⟨d1, Or.inr (Or.inl hsus), fun hp => d4.trans (hkeep.2.2.trans hp)⟩
          · rename_i hsus
            rw [Bool.not_eq_true] at hsus
            obtain ⟨e1, e2, e3⟩ := ih d1 (d3.trans hopen) hsus (by rw [d2]; exact hfuel)
            exact ⟨e1, e2, fun hp => e3 (d4.trans (hkeep.2.2.trans hp))⟩
        · obtain ⟨e1, e2, e3⟩ := ih hcore hopen (hkeep.2.1.trans hs) hfuel
          exact ⟨e1, e2, fun hp => e3 (hkeep.2.2.trans hp)⟩
    · obtain ⟨hl, hcore, hd⟩ := sslRead_end h hs hend
      have hs1 : (sslRead c).2.suspended = false := hs
      have hp1 : (sslRead c).2.donePending = c.donePending := rfl
      rw [readLoop]
      generalize sslRead c = r at hl hcore hd hs1 hp1
      obtain ⟨result, c1⟩ := r
      simp only at hl hcore hd hs1 hp1
      split at hl
      · subst hl
        simp only [hs1, Bool.false_eq_true, if_false]
        obtain ⟨g1, g2, g3⟩ := flushAndComplete_spec env hcore (Or.inr hd)
        exact ⟨g1, g2.settled, fun hp => g3 (hp1.trans hp)⟩
      · subst hl
        obtain ⟨g1, g2, g3⟩ := deliverPending_spec env hcore hd
        exact ⟨g1, Or.inr (Or.inr g2), fun hp => g3.trans (hp1.trans hp)⟩

theorem processPendingReads_spec {c : Component (Tls S)} (h : Core R c) :
    Core R (processPendingReads env c) ∧ Settled R (processPendingReads env c) ∧
      (c.donePending = true → (processPendingReads env c).donePending = true) := by
  rw [processPendingReads]
  cases hc : c.closed with
  | true =>
    simp only [true_or, if_true]
    exact ⟨h, Or.inl hc, fun hp => hp⟩
  | false =>
    have hset : Core R (update (fun t =>
        { t with pendingReadChain := { t.pendingReadChain with recycleCallback := some 0 } }) c) :=
      ⟨⟨h.data.handshake, h.data.diverged, h.data.reads, Chain.wf_recycler h.data.wf _, h.data.read_eq,
        h.data.split⟩, ⟨h.life.closed, h.life.scheduled, h.life.broken, h.life.silent, h.life.spoken⟩⟩
    simp only [h.data.handshake, ne_eq, not_true_eq_false, or_false, Bool.false_eq_true, if_false]
    split
    · rename_i hs
      exact ⟨hset, Or.inr (Or.inl hs), fun hp => hp⟩
    · rename_i hs
      rw [Bool.not_eq_true] at hs
      exact readLoop_spec env _ hset hc hs (Nat.lt_succ_self _)

theorem processPending_spec {c : Component (Tls S)} (h : Core R c) :
    Core R (processPending env c) ∧ Settled R (processPending env c) ∧
      (c.donePending = true → (processPending env c).donePending = true) := by
  rw [processPending, Component.forwardData]
  split
  · exact processPendingReads_spec env h
  · obtain ⟨h1, -, -, h4⟩ := deliver_spec env h
    dsimp only
    split
    · rename_i hs
      exact ⟨h1, Or.inr (Or.inl hs), fun hp => h4.trans hp⟩
    · obtain ⟨g1, g2, g3⟩ := processPendingReads_spec env h1
      exact ⟨g1, g2, fun hp => g3 (h4.trans hp)⟩

/-- Feeding the read BIO. -/
theorem feedLoop_spec (fuel : ℕ) (ssl : S.State) {data : Chain} (h : Chain.WF data)
    (hf : data.totalSize ≤ fuel) :
    R.fed (feedLoop fuel ssl data) = R.fed ssl ++ Chain.bytes data ∧
      R.nread (feedLoop fuel ssl data) = R.nread ssl := by
  induction fuel generalizing ssl data with
  | zero =>
    have hnil : Chain.bytes data = [] := by
      rw [← List.length_eq_zero_iff, ← Chain.totalSize_eq h]
      omega
    simp [feedLoop, hnil]
  | succ fuel ih =>
    cases he : data.empty with
    | true => simp [feedLoop, he, (Chain.empty_iff h).1 he]
    | false =>
      obtain ⟨seg, hd, hsize, hpos, hfront⟩ := Chain.front h he
      have hchunk : (seg.bytes.drop data.consumedOffset).take (data.contiguousSize id) =
          seg.bytes.drop data.consumedOffset := by
        rw [hsize]
        exact List.take_length
      have hlen := congrArg List.length hfront
      simp only [feedLoop, he, hd, hchunk, Bool.false_eq_true, if_false]
      rw [← hsize]
      obtain ⟨h1, h2⟩ := ih (S.bioWrite ssl (seg.bytes.drop data.consumedOffset))
        (Chain.wf_consumed h (data.contiguousSize id)) (by
          rw [Chain.totalSize_eq (Chain.wf_consumed h _)]
          rw [List.length_append, ← Chain.totalSize_eq h] at hlen
          omega)
      rw [h1, h2, R.fed_bioWrite, R.nread_bioWrite, List.append_assoc, ← hfront]
      exact ⟨rfl, rfl⟩

/-- New input leaves what has been read as it is. -/
theorem core_feed {c : Component (Tls S)} (h : Core R c) (hc : c.closed = false) {data : Chain}
    (hdata : Chain.WF data) :
    Core R (update (fun t => { t with ssl := feedLoop data.totalSize t.ssl data }) c) := by
  obtain ⟨h1, h2⟩ := feedLoop_spec (R := R) data.totalSize c.own.ssl hdata (Nat.le_refl _)
  have hf := h.not_finalized hc
  refine ⟨⟨h.data.handshake, h.data.diverged, h.data.reads, h.data.wf, ?_, h.data.split⟩,
    ⟨h.life.closed, h.life.scheduled, h.life.broken, h.life.silent, fun hfin => ?_⟩⟩
  · show c.own.readBytes = (R.plain (R.fed (feedLoop _ _ _))).take (R.nread (feedLoop _ _ _))
    obtain ⟨tail, htail⟩ := R.plain_append (R.fed c.own.ssl) (Chain.bytes data)
    rw [h1, h2, ← htail, List.take_append_of_le_length (R.nread_le _)]
    exact h.data.read_eq
  · exact absurd (hf.symm.trans hfin) (by simp)

/-! ### Calls -/

/-- A call from outside, or the posted `DoClose`. -/
inductive ReadOp where
  | data (chain : Chain) (h : Chain.WF chain)
  | done
  | suspend
  | resume
  | close

/-- One call.  `DoClose` runs once, after it has been posted. -/
def readStep (c : Component (Tls S)) : ReadOp → Component (Tls S)
  | .data chain _ => (onData env chain c).1
  | .done => onDone env c
  | .suspend => c.suspend
  | .resume => resume env c
  | .close => if c.closeScheduled = true ∧ c.own.tornDown = false then doClose env c else c

/-- Whether the socket has reported its end. -/
def ReadOp.isDone : ReadOp → Bool
  | .done => true
  | .data _ _ | .suspend | .resume | .close => false

/-- **What holds between calls**; `ended` says that the socket has reported its end. -/
structure ReadInv (R : SslReads S) (ended : Bool) (c : Component (Tls S)) : Prop where
  core : Core R c
  settled : Settled R c
  done : ended = true → Completed c

theorem Settled.leave {c : Component (Tls S)} (h : Settled R c) : Settled R c.leave := by
  rw [Settled, Component.leave_closed, Component.leave_suspended, Drained, Component.leave_own]
  exact h

theorem Completed.leave {c : Component (Tls S)} (h : Completed c) : Completed c.leave := by
  rw [Completed, Component.leave_closed, Component.leave_suspended, Component.leave_donePending]
  exact h

/-- A call on a suspended transport with a completion waiting. -/
theorem data_inv {ended : Bool} {c : Component (Tls S)} (h : ReadInv R ended c) {chain : Chain}
    (hchain : Chain.WF chain) : ReadInv R ended (read env chain c) := by
  rw [read, Component.guarded]
  cases hc : c.closed with
  | true => exact h
  | false =>
    have hcore := h.core.enter
    simp only [Bool.false_eq_true, if_false]
    split
    · obtain ⟨g1, g2, -⟩ := overflow_spec (c := c.enter)
        ⟨hcore.data.handshake, hcore.data.diverged, hcore.data.reads, hcore.data.wf,
          hcore.data.read_eq, fun _ ho => by cases ho⟩ hcore.life hc
        "TLS encrypted input buffer overflow"
      exact ⟨g1.leave, Settled.leave (Or.inl g2), fun _ => Completed.leave (Or.inl g2)⟩
    · have hfed := core_feed hcore hc hchain
      obtain ⟨g1, g2, g3⟩ := processPendingReads_spec env hfed
      have hh : (update (fun t => { t with ssl := feedLoop chain.totalSize t.ssl chain })
        c.enter).own.handshakeState = .complete := hfed.data.handshake
      simp only [hh, ne_eq, not_true_eq_false, if_false]
      refine ⟨g1.leave, g2.leave, fun hd => Completed.leave (Or.inr ?_)⟩
      -- the completion waits, so the transport is suspended and nothing is read
      obtain ⟨hsus, hp⟩ := (h.done hd).resolve_left (by simp [hc])
      have hstop : ∀ d : Component (Tls S), d.closed = false → d.own.handshakeState = .complete →
          d.suspended = true → (processPendingReads env d).suspended = true := by
        intro d h1 h2 h3
        rw [processPendingReads, if_neg (by simp [h1, h2])]
        have h4 : (update (fun t =>
          { t with pendingReadChain := { t.pendingReadChain with recycleCallback := some 0 } })
          d).suspended = true := h3
        simp only [h4, if_true]
      exact ⟨hstop _ hc hh hsus, g3 hp⟩

theorem onDone_inv {ended : Bool} {c : Component (Tls S)} (h : ReadInv R ended c) :
    ReadInv R true (onDone env c) := by
  rw [onDone, Component.guarded]
  cases hc : c.closed with
  | true => exact ⟨h.core, h.settled, fun _ => Or.inl hc⟩
  | false =>
    have hcore := h.core.enter
    simp only [Bool.false_eq_true, if_false]
    split
    · rename_i hs
      have hcomp : Completed c.enter.deferOnDone := Or.inr ⟨hs, rfl⟩
      exact ⟨hcore.deferOnDone.leave, hcomp.settled.leave, fun _ => hcomp.leave⟩
    · rename_i hs
      have hd : Drained R c.enter := by
        rcases h.settled with h1 | h1 | h1
        · rw [hc] at h1
          cases h1
        · exact absurd h1 hs
        · exact h1
      obtain ⟨g1, g2, -⟩ := flushAndComplete_spec env hcore (Or.inr hd)
      exact ⟨g1.leave, g2.settled.leave, fun _ => g2.leave⟩

theorem suspend_inv {ended : Bool} {c : Component (Tls S)} (h : ReadInv R ended c) :
    ReadInv R ended c.suspend := by
  have hs : c.suspend.suspended = true := by
    rw [Component.suspended_iff, Component.suspend]
    split <;> simp
  have hp : c.suspend.donePending = c.donePending := by
    rw [Component.suspend]
    split <;> rfl
  refine ⟨h.core.suspend, Or.inr (Or.inl hs), fun hd => ?_⟩
  rcases h.done hd with hc | hc
  · exact Or.inl (c.suspend_closed.trans hc)
  · exact Or.inr ⟨hs, hp.trans hc.2⟩

/-- The deferred completion at the end of `Resume`. -/
theorem completeDeferred_spec {c : Component (Tls S)} (h : Core R c) (hs : Settled R c) :
    Core R (c.completeDeferred (flushAndComplete env)) ∧
      Settled R (c.completeDeferred (flushAndComplete env)) ∧
      (c.donePending = true → Completed (c.completeDeferred (flushAndComplete env))) := by
  rw [Component.completeDeferred]
  split
  · rename_i hcond
    have hd : c.clearDone.closed = true ∨ Drained R c.clearDone := by
      rcases hs with h1 | h1 | h1
      · exact Or.inl h1
      · rw [hcond.2] at h1
        cases h1
      · exact Or.inr h1
    obtain ⟨g1, g2, -⟩ := flushAndComplete_spec env h.clearDone hd
    exact ⟨g1, g2.settled, fun _ => g2⟩
  · rename_i hcond
    refine ⟨h, hs, fun hp => Or.inr ⟨?_, hp⟩⟩
    by_contra hn
    exact hcond ⟨hp, by simpa using hn⟩

theorem resume_inv {ended : Bool} {c : Component (Tls S)} (h : ReadInv R ended c) :
    ReadInv R ended (resume env c) := by
  rw [resume]
  by_cases hn : c.suspendCount = 1
  · have hsus : c.suspended = true := by rw [Component.suspended_iff]; omega
    cases hc : c.closed with
    | true =>
      rw [Component.resume_of_closed hn hc]
      have hcore : Core R { c with suspendCount := 0 } :=
        h.core.congr rfl rfl rfl rfl h.core.life.scheduled
      obtain ⟨g1, g2, -⟩ := completeDeferred_spec env hcore (Or.inl hc)
      refine ⟨g1, g2, fun _ => ?_⟩
      rw [Component.completeDeferred]
      split
      · exact (flushAndComplete_spec env hcore.clearDone (Or.inl hc)).2.1
      · exact Or.inl hc
    | false =>
      rw [Component.resume_of_eq hn hc]
      have hcore : Core R c.resumed := h.core.congr rfl rfl rfl rfl h.core.life.scheduled
      obtain ⟨g1, g2, g3⟩ := processPending_spec env hcore
      have hup : Settled R (processPending env c.resumed).resumeUpstream := by
        rw [Component.resumeUpstream]
        split <;> exact g2
      have hp : (processPending env c.resumed).resumeUpstream.donePending =
          (processPending env c.resumed).donePending := by
        rw [Component.resumeUpstream]
        split <;> rfl
      obtain ⟨k1, k2, k3⟩ := completeDeferred_spec env g1.resumeUpstream hup
      refine ⟨k1.leave, k2.leave, fun hd => Completed.leave (k3 ?_)⟩
      rw [hp]
      exact g3 ((h.done hd).resolve_left (by simp [hc])).2
  · rw [Component.resume_of_ne hn]
    have hsus : ({ c with suspendCount := c.suspendCount - 1 } : Component (Tls S)).suspended =
        c.suspended := by
      rw [Bool.eq_iff_iff, Component.suspended_iff, Component.suspended_iff]
      show 0 < c.suspendCount - 1 ↔ _
      omega
    refine ⟨h.core.congr rfl rfl rfl rfl h.core.life.scheduled, ?_, fun hd => ?_⟩
    · rw [Settled, hsus]
      exact h.settled
    · rw [Completed, hsus]
      exact h.done hd

theorem close_inv {ended : Bool} {c : Component (Tls S)} (h : ReadInv R ended c)
    (hs : c.closeScheduled = true) : ReadInv R ended (doClose env c) := by
  have hc := h.core.life.scheduled (Or.inr hs)
  have hf := h.core.finalized_of_closed hc
  have heq : doClose env c = update (fun t =>
      { t with
        pendingReadChain := t.pendingReadChain.clear
        writePending := t.writePending.clear
        tornDown := true }) c := by
    rw [doClose, if_neg (by simp [hf])]
  rw [heq]
  refine ⟨⟨⟨h.core.data.handshake, h.core.data.diverged, h.core.data.reads, Chain.wf_cleared _,
    h.core.data.read_eq, fun ht => by cases ht⟩, ⟨h.core.life.closed, h.core.life.scheduled,
    fun _ => hf, h.core.life.silent, fun hfin => ?_⟩⟩, Or.inl hc, fun _ => Or.inl hc⟩
  obtain ⟨s, h1, h2⟩ := h.core.life.spoken hfin
  exact ⟨s, h1, fun hsd => ⟨(h2 hsd).1, Chain.bytes_cleared _⟩⟩

/-- **One call keeps the invariant.** -/
theorem readStep_inv {ended : Bool} {c : Component (Tls S)} (h : ReadInv R ended c) (op : ReadOp) :
    ReadInv R (ended || op.isDone) (readStep env c op) := by
  cases op with
  | data chain hchain =>
    rw [ReadOp.isDone, Bool.or_false]
    exact data_inv env h hchain
  | done =>
    rw [ReadOp.isDone, Bool.or_true]
    exact onDone_inv env h
  | suspend =>
    rw [ReadOp.isDone, Bool.or_false]
    exact suspend_inv h
  | resume =>
    rw [ReadOp.isDone, Bool.or_false]
    exact resume_inv env h
  | close =>
    rw [ReadOp.isDone, Bool.or_false, readStep]
    split
    · rename_i hcond
      exact close_inv env h hcond.1
    · exact h

/-! ### Runs -/

theorem readInv_run {ended : Bool} {c : Component (Tls S)} (h : ReadInv R ended c) (ops : List ReadOp) :
    ReadInv R (ended || ops.any ReadOp.isDone) (Runs.run (readStep env) c ops) := by
  induction ops generalizing ended c with
  | nil =>
    rw [List.any_nil, Bool.or_false]
    exact h
  | cons op ops ih =>
    rw [List.any_cons, ← Bool.or_assoc]
    exact ih (readStep_inv env h op)

/-- The transport as `ProcessHandshake` leaves it when the handshake completes. -/
def established (ssl : S.State) : Component (Tls S) :=
  processPendingReads env { own := { ssl := ssl, handshakeState := .complete } }

theorem established_inv {ssl : S.State} (h : R.nread ssl = 0) :
    ReadInv R false (established env ssl) := by
  have hcore : Core R ({ own := { ssl := ssl, handshakeState := .complete } } : Component (Tls S)) :=
    ⟨⟨rfl, rfl, rfl, Chain.wf_empty none, by rw [h, List.take_zero], fun _ _ => rfl⟩,
      ⟨rfl, by simp, by simp, fun _ => rfl, by simp⟩⟩
  obtain ⟨g1, g2, -⟩ := processPendingReads_spec env hcore
  exact ⟨g1, g2, by simp⟩

/-- What the calls `ops` have made of a transport. -/
structure ReadFacts (R : SslReads S) (ops : List ReadOp) (c : Component (Tls S)) : Prop where
  conserved : c.own.tornDown = false → c.own.overflowed = false →
    c.own.consumed ++ Chain.bytes c.own.pendingReadChain = c.own.readBytes
  inOrder : c.own.readBytes = (R.plain (R.fed c.own.ssl)).take (R.nread c.own.ssl)
  ends : c.own.diverged = false
  notSuspended : c.own.readWhileSuspended = false
  once : c.signals.length ≤ 1
  complete : .done ∈ c.signals → c.own.consumed = R.plain (R.fed c.own.ssl)
  reported : ops.any ReadOp.isDone = true → c.suspended = false → c.signals ≠ []

/-- **Read path conservation.**  After every run from the end of the handshake: until `DoClose` has run, the
plaintext consumed, then `pending_read_chain_`, are the bytes `SSL_read` returned; `SSL_read` was never
called while suspended; at most one terminal signal went downstream, `OnDone` only with every decryptable
byte consumed; and the socket's end has been reported unless the transport is suspended. -/
theorem read_conserves (R : SslReads S) (env : ℕ → Reaction) (ssl : S.State) (h : R.nread ssl = 0)
    (ops : List ReadOp) :
    ReadFacts R ops (Runs.run (readStep env) (established env ssl) ops) := by
  have hinv := readInv_run env (established_inv env h) ops
  rw [Bool.false_or] at hinv
  generalize Runs.run (readStep env) (established env ssl) ops = c at hinv
  refine ⟨hinv.core.data.split, hinv.core.data.read_eq, hinv.core.data.diverged,
    hinv.core.data.reads, ?_, fun hd => ?_, fun hd hs hn => ?_⟩
  · cases hf : c.finalized with
    | false => simp [hinv.core.life.silent hf]
    | true =>
      obtain ⟨s, hsig, -⟩ := hinv.core.life.spoken hf
      simp [hsig]
  · cases hf : c.finalized with
    | false =>
      rw [hinv.core.life.silent hf] at hd
      cases hd
    | true =>
      obtain ⟨s, hsig, hdone⟩ := hinv.core.life.spoken hf
      rw [hsig, List.mem_singleton] at hd
      exact (hdone hd.symm).1
  · have hc : c.closed = true := (hinv.done hd).resolve_right (by simp [hs])
    obtain ⟨s, hsig, -⟩ := hinv.core.life.spoken (hinv.core.finalized_of_closed hc)
    rw [hn] at hsig
    cases hsig

/-! ### A connection that does not encrypt -/

/-- `SSL_read` returns the input as it is: the state is the input read and the input not yet read. -/
def plainSsl : Ssl where
  State := List Byte × List Byte
  bioWrite s l := (s.1, s.2 ++ l)
  bioPending s := s.2.length
  handshake s := (.complete, s)
  read s :=
    if s.2.isEmpty then (.wantRead, s)
    else (.data (s.2.take Segment.kSize) (List.length_take_le ..),
      (s.1 ++ s.2.take Segment.kSize, s.2.drop Segment.kSize))
  write s l := (.accepted l.length, s)
  available s := s.2.length

/-- It behaves as documented. -/
def plainReads : SslReads plainSsl where
  fed s := s.1 ++ s.2
  nread s := s.1.length
  plain f := f
  closeNotify _ := false
  plain_append := List.prefix_append
  nread_le s := by
    rw [List.length_append]
    omega
  fed_bioWrite s l := (List.append_assoc s.1 s.2 l).symm
  nread_bioWrite _ _ := rfl
  fed_read s := by
    simp only [plainSsl]
    split
    · rfl
    · simp only [List.append_assoc, List.take_append_drop]
  available s := by
    simp only [plainSsl, List.length_append]
    omega
  read_data s h := by
    have hne : s.2 ≠ [] := by
      rintro hnil
      simp [hnil] at h
    have hemp : s.2.isEmpty = false := by simpa using hne
    refine ⟨s.2.take Segment.kSize, List.length_take_le .., by simp [plainSsl, hemp], ?_, ?_, ?_⟩
    · have hk : Segment.kSize ≠ 0 := by decide
      simp [hne, hk]
    · rw [List.drop_left, List.length_take]
      rcases Nat.le_total Segment.kSize s.2.length with hle | hle
      · rw [Nat.min_eq_left hle]
      · rw [Nat.min_eq_right hle, List.take_length, List.take_of_length_le hle]
    · simp only [plainSsl, hemp, Bool.false_eq_true, if_false, List.length_append]
  read_end s h := by
    have hnil : s.2 = [] := by
      rw [← List.length_eq_zero_iff]
      rw [List.length_append] at h
      omega
    simp [plainSsl, hnil]

/-- Two bytes from the socket. -/
def twoBytes : ReadOp := .data { segments := [.ofBytes [1, 2]], totalSize := 2 } (by
  exact BufferChain.wf_append id (BufferChain.wf_nil id none) (.ofBytes [1, 2]))

/-- A downstream that consumes one byte, suspends, and is resumed after the socket has ended. -/
theorem read_conserves_resumed :
    ReadFacts plainReads [twoBytes, .done, .resume]
      (Runs.run (readStep (S := plainSsl) fun k => if k = 0 then ⟨1, 1⟩ else ⟨1, 0⟩)
        (established (fun k => if k = 0 then ⟨1, 1⟩ else ⟨1, 0⟩) (([], []) : List Byte × List Byte))
        [twoBytes, .done, .resume]) :=
  read_conserves plainReads _ (([], []) : List Byte × List Byte) rfl _

/-- A downstream that consumes one of two bytes, the end of the connection, and `DoClose`. -/
def tornDownRun : Component (Tls plainSsl) :=
  let env : ℕ → Reaction := fun k => if k = 0 then ⟨1, 0⟩ else ⟨0, 0⟩
  Runs.run (readStep env) (established env (([], []) : List Byte × List Byte))
    [twoBytes, .done, .close]

/-- **`DoClose` clears what was not consumed.**  The end of the connection finds a byte pending, an error is
reported, and after `DoClose` the byte that was read is neither consumed nor pending. -/
theorem not_conserved_torn_down :
    tornDownRun.own.readBytes = [1, 2] ∧ tornDownRun.own.consumed = [1] ∧
      Chain.bytes tornDownRun.own.pendingReadChain = [] ∧ tornDownRun.own.overflowed = false := by
  refine ⟨?_, ?_, ?_, ?_⟩ <;> decide +kernel

end DbnPipe.Tls
