import DbnPipe.Stream.BufferBounds
import DbnPipe.Stream.TlsReentrant

/-!
# The limit of TlsTransport

* `Bounded` — `pending_read_chain_` stays within its limit;
* `bounded_readLoopIn` … `bounded_doCloseIn` — **every function keeps it**, if the downstream does;
* `handlers`, `handlers_keep` — so does every call;
* `Guarded` — what the check does in such a state: it does not wrap around, and what does not fit is refused.
-/

namespace DbnPipe.Tls

open Callbacks

variable {S : Ssl}

/-- The chain of decrypted data is within its limit. -/
def Bounded (t : Tls S) : Prop := Within kMaxPendingRead t.pendingReadChain

/-- The further calls of `TlsTransport`. -/
inductive Extra where
  | startHandshake
  | write (segments : List Segment)

/-- The calls of `TlsTransport`. -/
def handlers (S : Ssl) (rounds : Component (Tls S) → ℕ) : Handlers (Tls S) where
  Extra := Extra
  onData deliver chain := readIn deliver rounds chain
  onDone := onDoneIn
  processPending deliver := processPendingIn deliver rounds
  flushAndComplete := flushAndCompleteIn
  doClose := doCloseIn
  consume := consume
  extra deliver
    | .startHandshake => startHandshakeIn deliver rounds
    | .write segments => write (segments.foldl (BufferChain.append id) {})

variable {c : Component (Tls S)}

/-! ### The functions -/

theorem owns_handleSSLError (e : SslError) (operation : String) (h : Owns Bounded c) :
    Owns Bounded (handleSSLError e operation c) := Owns.fail h _

theorem owns_overflow (message : String) (h : Owns Bounded c) : Owns Bounded (overflow message c) :=
  Owns.fail (c := update (fun t => { t with overflowed := true }) c) h _

theorem bounded_driveWrite (data : Chain) (h : Owns Bounded c) : Owns Bounded (driveWrite data c) := by
  rw [driveWrite]
  split
  · exact h
  · exact h
  · exact owns_handleSSLError _ _
      (c := update (fun t => { t with
        ssl := (writeLoop data.totalSize c.own.ssl data c.own.accepted).ssl
        accepted := (writeLoop data.totalSize c.own.ssl data c.own.accepted).accepted }) c) h
  · exact h
  · exact h

theorem bounded_retryPendingWrites (h : Owns Bounded c) : Owns Bounded (retryPendingWrites c) := by
  rw [retryPendingWrites]
  split
  · exact h
  · exact bounded_driveWrite _
      (c := update (fun t => { t with writePending := c.own.writePending.movedFrom }) c) h

theorem bounded_write (data : Chain) : Keeps (Owns Bounded) (write (S := S) data) := by
  refine keeps_guarded fun c h => ?_
  simp only
  split
  · exact h.fail _
  split
  · exact owns_overflow _ h
  split
  · exact bounded_driveWrite _
      (c := update (fun t =>
        { t with writePending := (Chain.compactAndSplice c.own.writePending data).1.movedFrom }) c) h
  · exact bounded_driveWrite _ h

section Deliver

variable {deliver : Component (Tls S) → Component (Tls S)} (hd : Keeps (Owns Bounded) deliver)
  (rounds : Component (Tls S) → ℕ)
include hd

theorem bounded_flushAndCompleteIn (h : Owns Bounded c) : Owns Bounded (flushAndCompleteIn deliver c) := by
  have hflush := owns_completeWithFlush hd Tls.pendingReadChain h
  rw [flushAndCompleteIn]
  split
  · exact hflush.requestClose
  · exact hflush

theorem bounded_deliverPendingIn (h : Owns Bounded c) : Owns Bounded (deliverPendingIn deliver c) := by
  rw [deliverPendingIn]
  split
  · exact h
  · exact hd c h

/-- **The loop of `ProcessPendingReads`**: what was read is appended if it fits. -/
theorem bounded_readLoopIn (fuel : ℕ) (h : Owns Bounded c) : Owns Bounded (readLoopIn deliver fuel c) := by
  induction fuel generalizing c with
  | zero => exact h
  | succ fuel ih =>
    have hread : Owns Bounded (sslRead c).2 := h
    rw [readLoopIn]
    split
    · rename_i l hl c' heq
      rw [heq] at hread
      have hbytes : Owns Bounded (update (fun t => { t with readBytes := t.readBytes ++ l }) c') := hread
      simp only
      split
      · exact owns_overflow _ hbytes
      rename_i hroom
      rw [Within.sizeSub_lt hbytes, Nat.not_lt] at hroom
      have happend : Owns Bounded (appendRead l hl (update (fun t => { t with readBytes := t.readBytes ++ l }) c')) :=
        Within.appended hbytes hroom
      split
      · split
        · exact hd _ happend
        · exact ih (hd _ happend)
      · exact ih happend
    · rename_i c' heq
      rw [heq] at hread
      exact bounded_deliverPendingIn hd hread
    · rename_i c' heq
      rw [heq] at hread
      exact bounded_retryPendingWrites (bounded_deliverPendingIn hd hread)
    · rename_i c' heq
      rw [heq] at hread
      split
      · exact hread.of_eq rfl
      · exact bounded_flushAndCompleteIn hd hread
    · rename_i e c' heq
      rw [heq] at hread
      exact owns_handleSSLError _ _ hread

theorem bounded_processPendingReadsIn (h : Owns Bounded c) : Owns Bounded (processPendingReadsIn deliver rounds c) := by
  have hrecycler : Owns Bounded (update (fun t =>
      { t with pendingReadChain := { t.pendingReadChain with recycleCallback := some 0 } }) c) :=
    Within.recycler h _
  rw [processPendingReadsIn]
  split
  · exact h
  simp only
  split
  · exact hrecycler
  · exact bounded_readLoopIn hd _ hrecycler

theorem bounded_processHandshakeIn (h : Owns Bounded c) : Owns Bounded (processHandshakeIn deliver rounds c) := by
  have hssl : Owns Bounded (update (fun t => { t with ssl := (S.handshake c.own.ssl).2 }) c) := h
  rw [processHandshakeIn]
  split
  · exact h
  simp only
  split
  · split
    · exact h
    · exact bounded_processPendingReadsIn hd rounds (show Owns Bounded (update _ (update _ c)) from hssl)
  · exact hssl
  · split
    · exact hssl.of_eq rfl
    · exact bounded_flushAndCompleteIn hd hssl
  · exact owns_handleSSLError _ _ hssl

theorem bounded_startHandshakeIn (h : Owns Bounded c) : Owns Bounded (startHandshakeIn deliver rounds c) := by
  rw [startHandshakeIn]
  split
  · exact h
  · exact bounded_processHandshakeIn hd rounds
      (c := update (fun t => { t with handshakeState := .inProgress }) c) h

theorem bounded_readIn (data : Chain) : Keeps (Owns Bounded) (readIn deliver rounds data) := by
  refine keeps_guarded fun c h => ?_
  have hfed : Owns Bounded (update (fun t => { t with ssl := feedLoop data.totalSize t.ssl data }) c) := h
  simp only
  split
  · exact owns_overflow _ h
  split
  · exact bounded_processHandshakeIn hd rounds hfed
  · exact bounded_processPendingReadsIn hd rounds hfed

theorem bounded_onDoneIn : Keeps (Owns Bounded) (onDoneIn deliver) := by
  refine keeps_guarded fun c h => ?_
  split
  · exact h.of_eq rfl
  · exact bounded_flushAndCompleteIn hd h

theorem bounded_processPendingIn (h : Owns Bounded c) : Owns Bounded (processPendingIn deliver rounds c) := by
  have hforward := owns_forwardData hd Tls.pendingReadChain h
  rw [processPendingIn]
  split
  · exact hforward
  · exact bounded_processPendingReadsIn hd rounds hforward

end Deliver

theorem bounded_doCloseIn (deliver : Component (Tls S) → Component (Tls S)) (c : Component (Tls S)) :
    Owns Bounded (doCloseIn deliver c) := Within.cleared _ _

/-- **Every call keeps the limit.** -/
theorem handlers_keep (S : Ssl) (rounds : Component (Tls S) → ℕ) : (handlers S rounds).Keep Bounded where
  onData hd _ _ := bounded_readIn hd rounds _
  onDone hd := bounded_onDoneIn hd
  processPending hd _ h := bounded_processPendingIn hd rounds h
  flushAndComplete hd _ h := bounded_flushAndCompleteIn hd h
  doClose _ c _ := bounded_doCloseIn _ c
  consume n _ h := Within.consumed h n
  extra hd x c h := by
    cases x with
    | startHandshake => exact bounded_startHandshakeIn hd rounds h
    | write segments => exact bounded_write _ c h

/-- A new transport. -/
def newTlsTransport (ssl : S.State) : Component (Tls S) := { own := { ssl } }

theorem bounded_new (ssl : S.State) : Owns Bounded (newTlsTransport ssl) := Within.empty _ none

/-! ### The checks -/

/-- The check on `pending_read_chain_` does not wrap around, and what does not fit is refused. -/
structure Guarded (c : Component (Tls S)) : Prop where
  pendingRead : Exact kMaxPendingRead c.own.pendingReadChain
  read : ∀ deliver fuel l h, (sslRead c).1 = .data l h →
    kMaxPendingRead < (Chain.bytes c.own.pendingReadChain).length + l.length →
    Declined { code := .bufferOverflow, message := "TLS decrypted output buffer overflow" }
      (update (fun t => { t with readBytes := t.readBytes ++ l, overflowed := true }) (sslRead c).2)
      (readLoopIn deliver (fuel + 1) c)

theorem Bounded.guarded (h : Owns Bounded c) : Guarded c where
  pendingRead := Within.exact h
  read deliver fuel l hl hread hover := by
    have hfull : sizeSub kMaxPendingRead (update (fun t => { t with readBytes := t.readBytes ++ l })
        (sslRead c).2).own.pendingReadChain.size < l.length := (Within.sizeSub_lt h l.length).mpr hover
    rw [readLoopIn]
    have hpair : sslRead c = (.data l hl, (sslRead c).2) := Prod.ext hread rfl
    rw [hpair]
    simp only
    rw [if_pos hfull]
    exact declined _ _

end DbnPipe.Tls
