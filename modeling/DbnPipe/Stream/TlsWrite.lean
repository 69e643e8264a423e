import DbnPipe.Library.Runs
import DbnPipe.Stream.TlsTransport

/-!
# The TLS write path conserves plaintext

Runs of `Write` and `RetryPendingWrites` after the handshake.

* `WriteOp` / `writeStep` / `written` — the calls, and all data written by them;
* `writeLoop_spec` — the loop over a well-formed chain ends and splits its bytes into accepted and kept;
* `Husk` — what a move leaves of a non-empty chain: no segments, the cached size still there;
* `Conserved` — **the invariant**: accepted bytes, then `write_pending_`, are the data written;
* `write_conserves` — it holds along every run that makes no call on a husk;
* `retry_husk` — a call on a husk reads behind the last segment.
-/

namespace DbnPipe.Tls

variable {S : Ssl}

/-- A call on the write path, with a well-formed chain. -/
inductive WriteOp where
  | write (data : Chain) (h : Chain.WF data)
  | retry

/-- One call. -/
def writeStep (c : Component (Tls S)) : WriteOp → Component (Tls S)
  | .write data _ => write data c
  | .retry => retryPendingWrites c

/-- The data given to `Write`, in order. -/
def written (ops : List WriteOp) : List Byte :=
  ops.flatMap fun op =>
    match op with
    | .write data _ => Chain.bytes data
    | .retry => []

/-- `SSL_write` as documented, without a fatal error: it accepts a non-empty prefix or asks to retry. -/
structure WriteLawful (S : Ssl) : Prop where
  accepted : ∀ s l n, l ≠ [] → (S.write s l).1 = .accepted n → 0 < n ∧ n ≤ l.length
  not_failed : ∀ s l e, (S.write s l).1 ≠ .failed e

/-- A moved-from chain that was not empty: `Empty()` is false and there is no segment. -/
def Husk (c : Chain) : Prop := c.segments.isEmpty = true ∧ c.totalSize ≠ 0

instance (c : Chain) : Decidable (Husk c) :=
  inferInstanceAs (Decidable (c.segments.isEmpty = true ∧ c.totalSize ≠ 0))

/-! ### The loop -/

/-- **The loop ends**, its chain emptied or blocked, and every byte of the chain is accepted or kept. -/
theorem writeLoop_spec (hS : WriteLawful S) (fuel : ℕ) (ssl : S.State) {data : Chain}
    (h : Chain.WF data) (hf : data.totalSize ≤ fuel) (acc : List Byte) :
    (writeLoop fuel ssl data acc).accepted ++ Chain.bytes (writeLoop fuel ssl data acc).data =
        acc ++ Chain.bytes data ∧
      Chain.WF (writeLoop fuel ssl data acc).data ∧
      ((writeLoop fuel ssl data acc).ending = .blocked ∨
        (writeLoop fuel ssl data acc).ending = .emptied ∧
          Chain.bytes (writeLoop fuel ssl data acc).data = []) := by
  induction fuel generalizing ssl data acc with
  | zero =>
    have he : data.empty = true := by simp only [BufferChain.empty, beq_iff_eq]; omega
    simp only [writeLoop, he, if_true]
    exact ⟨trivial, h, Or.inr ⟨trivial, (Chain.empty_iff h).1 he⟩⟩
  | succ fuel ih =>
    cases he : data.empty with
    | true =>
      simp only [writeLoop, he, if_true]
      exact ⟨trivial, h, Or.inr ⟨trivial, (Chain.empty_iff h).1 he⟩⟩
    | false =>
      obtain ⟨seg, hd, hsize, hpos, hfront⟩ := Chain.front h he
      have hchunk : (seg.bytes.drop data.consumedOffset).take (data.contiguousSize id) =
          seg.bytes.drop data.consumedOffset := by
        rw [hsize]
        exact List.take_length
      simp only [writeLoop, he, hd, hchunk, Bool.false_eq_true, if_false]
      generalize seg.bytes.drop data.consumedOffset = chunk at *
      generalize hw : S.write ssl chunk = r
      obtain ⟨result, ssl'⟩ := r
      cases result with
      | accepted n =>
        obtain ⟨hn, hle⟩ := hS.accepted ssl chunk n (List.length_pos_iff.1 hpos) (congrArg Prod.fst hw)
        have hwf' := Chain.wf_consumed h n
        have hbytes := Chain.bytes_consumed h n
        have hdec : (data.consume id n).totalSize ≤ fuel := by
          have h1 := Chain.totalSize_eq hwf'
          have h2 := Chain.totalSize_eq h
          rw [hbytes, List.length_drop] at h1
          omega
        obtain ⟨e1, e2, e3⟩ := ih ssl' hwf' hdec (acc ++ chunk.take n)
        refine ⟨?_, e2, e3⟩
        have htake : chunk.take n = (Chain.bytes data).take n := by
          rw [hfront, List.take_append_of_le_length hle]
        show (writeLoop fuel ssl' _ _).accepted ++ Chain.bytes (writeLoop fuel ssl' _ _).data = _
        rw [e1, htake, hbytes, List.append_assoc, List.take_append_drop]
      | wantRead => exact ⟨rfl, h, Or.inl rfl⟩
      | wantWrite => exact ⟨rfl, h, Or.inl rfl⟩
      | failed e => exact absurd (congrArg Prod.fst hw) (hS.not_failed ssl chunk e)

/-! ### One call -/

/-- What holds of a transport on which `Write` and `RetryPendingWrites` have been called, `data` being all
that was given to `Write`. -/
structure Conserved (c : Component (Tls S)) (data : List Byte) : Prop where
  handshake : c.own.handshakeState = .complete
  opened : c.closed = false
  fault : c.own.fault = false
  diverged : c.own.diverged = false
  pending : Chain.WF c.own.writePending ∨ Husk c.own.writePending
  bytes : c.own.accepted ++ Chain.bytes c.own.writePending = data

theorem driveWrite_spec (hS : WriteLawful S) {c : Component (Tls S)} {data : Chain}
    (h : Chain.WF data) (hh : c.own.handshakeState = .complete) (hc : c.closed = false)
    (hf : c.own.fault = false) (hd : c.own.diverged = false)
    (hp : Chain.WF c.own.writePending ∨ Husk c.own.writePending)
    (hnil : Chain.bytes c.own.writePending = []) :
    Conserved (driveWrite data c) (c.own.accepted ++ Chain.bytes data) := by
  obtain ⟨e1, e2, e3⟩ := writeLoop_spec hS data.totalSize c.own.ssl h (Nat.le_refl _) c.own.accepted
  rw [driveWrite]
  rcases e3 with e3 | ⟨e3, e4⟩
  · simp only [e3]
    exact ⟨hh, hc, hf, hd, Or.inl e2, e1⟩
  · simp only [e3]
    refine ⟨hh, hc, hf, hd, hp, ?_⟩
    rw [e4, List.append_nil] at e1
    show (writeLoop _ _ _ _).accepted ++ Chain.bytes c.own.writePending = _
    rw [hnil, List.append_nil, e1]

/-- A chain that was not empty leaves a husk when it is moved from. -/
theorem husk_movedFrom {c : Chain} (he : c.empty = false) : Husk c.movedFrom :=
  ⟨rfl, by simpa [BufferChain.empty, BufferChain.movedFrom] using he⟩

theorem wf_of_not_husk {c : Component (Tls S)} {data : List Byte} (h : Conserved c data)
    (hn : ¬ Husk c.own.writePending) : Chain.WF c.own.writePending :=
  h.pending.resolve_right hn

theorem retry_conserves (hS : WriteLawful S) {c : Component (Tls S)} {data : List Byte}
    (h : Conserved c data) (hn : ¬ Husk c.own.writePending) :
    Conserved (retryPendingWrites c) data := by
  have hwf := wf_of_not_husk h hn
  rw [retryPendingWrites]
  cases he : c.own.writePending.empty with
  | true => exact h
  | false =>
    have hdrive := driveWrite_spec (c := update (fun t =>
        { t with writePending := c.own.writePending.movedFrom }) c)
      hS hwf h.handshake h.opened h.fault h.diverged (Or.inr (husk_movedFrom he))
      (Chain.bytes_movedFrom _)
    rw [← h.bytes]
    exact hdrive

theorem conserved_guarded {c : Component (Tls S)} {data : List Byte}
    (body : Component (Tls S) → Component (Tls S)) (hc : c.closed = false)
    (h : Conserved (body c.enter) data) : Conserved (c.guarded body) data := by
  rw [Component.guarded, hc]
  simp only [Bool.false_eq_true, if_false]
  exact ⟨by rw [Component.leave_own]; exact h.handshake, by rw [Component.leave_closed]; exact h.opened,
    by rw [Component.leave_own]; exact h.fault, by rw [Component.leave_own]; exact h.diverged,
    by rw [Component.leave_own]; exact h.pending, by rw [Component.leave_own]; exact h.bytes⟩

theorem write_conserves_step (hS : WriteLawful S) {c : Component (Tls S)} {before : List Byte}
    (h : Conserved c before) (hn : ¬ Husk c.own.writePending) {data : Chain} (hdata : Chain.WF data)
    (hroom : (Chain.bytes c.own.writePending).length + (Chain.bytes data).length ≤ kMaxPendingWrite) :
    Conserved (write data c) (before ++ Chain.bytes data) := by
  have hwf := wf_of_not_husk h hn
  have hfits : c.own.writePending.wouldOverflow data.size kMaxPendingWrite = false := by
    have h1 := Chain.totalSize_eq hwf
    have h2 := Chain.size_eq hdata
    rw [BufferChain.wouldOverflow, sizeSub_of_le (by omega), decide_eq_false_iff_not]
    omega
  refine conserved_guarded _ h.opened ?_
  have hown : c.enter.own = c.own := rfl
  simp only [hown, h.handshake, hfits, ne_eq, not_true_eq_false, if_false, Bool.false_eq_true]
  cases he : c.own.writePending.empty with
  | true =>
    have hnil := (Chain.empty_iff hwf).1 he
    have hacc : c.own.accepted = before := by
      have hb := h.bytes
      rw [hnil, List.append_nil] at hb
      exact hb
    simp only [Bool.not_true, Bool.false_eq_true, if_false]
    rw [← hacc]
    exact driveWrite_spec hS hdata h.handshake h.opened h.fault h.diverged (Or.inl hwf) hnil
  | false =>
    obtain ⟨s1, s2, -, -⟩ := Chain.compactAndSplice_spec hwf hdata
    have hne : (Chain.compactAndSplice c.own.writePending data).1.empty = false := by
      have hpos := (Chain.not_empty_iff hwf).1 he
      rw [Chain.not_empty_iff s1, s2]
      simp [hpos]
    simp only [Bool.not_false, if_true]
    rw [← h.bytes, List.append_assoc, ← s2]
    exact driveWrite_spec (c := update (fun t => { t with writePending := _ }) c.enter) hS s1
      h.handshake h.opened h.fault h.diverged (Or.inr (husk_movedFrom hne)) (Chain.bytes_movedFrom _)

/-! ### Runs -/

/-- The condition on a call and the state before it: `write_pending_` is not a husk, and the data fits. -/
def WriteOk (c : Component (Tls S)) : WriteOp → Prop
  | .write data _ =>
    ¬ Husk c.own.writePending ∧
      (Chain.bytes c.own.writePending).length + (Chain.bytes data).length ≤ kMaxPendingWrite
  | .retry => ¬ Husk c.own.writePending

theorem conserved_run (hS : WriteLawful S) {c : Component (Tls S)} {before : List Byte}
    (h : Conserved c before) (ops : List WriteOp) (hok : Runs.Along WriteOk writeStep c ops) :
    Conserved (Runs.run writeStep c ops) (before ++ written ops) := by
  induction ops generalizing c before with
  | nil => simpa [written] using h
  | cons op ops ih =>
    have hsplit : before ++ written (op :: ops) = (before ++ written [op]) ++ written ops := by
      simp only [written, List.flatMap_cons, List.flatMap_nil, List.append_nil, List.append_assoc]
    rw [hsplit]
    refine ih ?_ hok.2
    cases op with
    | write data hdata => simpa [written, writeStep] using write_conserves_step hS h hok.1.1 hdata hok.1.2
    | retry => simpa [written, writeStep] using retry_conserves hS h hok.1

/-- A transport whose handshake is complete and that nothing has been written to. -/
def connected (ssl : S.State) : Component (Tls S) :=
  { own := { ssl := ssl, handshakeState := .complete } }

theorem conserved_connected (ssl : S.State) : Conserved (connected ssl) [] :=
  ⟨rfl, rfl, rfl, rfl, Or.inl (BufferChain.wf_nil id none), rfl⟩

/-- **Write path conservation.**  Along every run that makes no call while `write_pending_` is a husk: the
plaintext accepted by `SSL_write`, then the contents of `write_pending_`, are the data written; every loop
ends; and `DataAt` is never called on a chain without segments. -/
theorem write_conserves (hS : WriteLawful S) (ssl : S.State) (ops : List WriteOp)
    (hok : Runs.Along WriteOk writeStep (connected ssl) ops) (p : List WriteOp) (hp : p <+: ops) :
    (Runs.run writeStep (connected ssl) p).own.accepted ++
        Chain.bytes (Runs.run writeStep (connected ssl) p).own.writePending = written p ∧
      (Runs.run writeStep (connected ssl) p).own.diverged = false ∧
      (Runs.run writeStep (connected ssl) p).own.fault = false := by
  obtain ⟨q, rfl⟩ := hp
  have h := conserved_run hS (conserved_connected ssl) p ((Runs.along_append _ _ _ _ _).1 hok).1
  exact ⟨h.bytes, h.diverged, h.fault⟩

/-- A connection whose `k`-th `SSL_write` blocks, or takes `n + 1` bytes where `outcomes k` is `n`. -/
def scriptedSsl (outcomes : ℕ → Option ℕ) : Ssl where
  State := ℕ
  bioWrite k _ := k
  bioPending _ := 0
  handshake k := (.complete, k)
  read k := (.wantRead, k)
  write k l :=
    match outcomes k with
    | none => (.wantWrite, k + 1)
    | some n => (.accepted (min (n + 1) l.length), k + 1)
  available _ := 0

theorem writeLawful_scriptedSsl (outcomes : ℕ → Option ℕ) : WriteLawful (scriptedSsl outcomes) where
  accepted := by
    intro k l n hl h
    simp only [scriptedSsl] at h
    have hpos := List.length_pos_iff.2 hl
    split at h
    · cases h
    · obtain rfl := WriteResult.accepted.inj h
      omega
  not_failed := by
    intro k l e h
    simp only [scriptedSsl] at h
    split at h <;> cases h

/-- Three bytes, of which one is taken before the write blocks. -/
def threeBytes : WriteOp := .write { segments := [.ofBytes [1, 2, 3]], totalSize := 3 } (by
  exact BufferChain.wf_append id (BufferChain.wf_nil id none) (.ofBytes [1, 2, 3]))

/-- One byte at a time, blocking at the second and the fourth call. -/
def blockingSsl : Ssl := scriptedSsl fun k => if k = 1 ∨ k = 3 then none else some 0

/-- A second write behind pending data, both drained by the retry. -/
theorem write_conserves_retried :
    (Runs.run writeStep (connected (S := blockingSsl) (0 : ℕ))
        [threeBytes, threeBytes, .retry]).own.accepted ++
      Chain.bytes (Runs.run writeStep (connected (S := blockingSsl) (0 : ℕ))
        [threeBytes, threeBytes, .retry]).own.writePending = written [threeBytes, threeBytes, .retry] ∧
      (Runs.run writeStep (connected (S := blockingSsl) (0 : ℕ))
        [threeBytes, threeBytes, .retry]).own.diverged = false ∧
      (Runs.run writeStep (connected (S := blockingSsl) (0 : ℕ))
        [threeBytes, threeBytes, .retry]).own.fault = false :=
  write_conserves (writeLawful_scriptedSsl _) (0 : ℕ) [threeBytes, threeBytes, .retry]
    ⟨⟨by decide +kernel, by decide +kernel⟩, ⟨by decide +kernel, by decide +kernel⟩,
      show ¬ Husk _ by decide +kernel, trivial⟩ _ List.prefix_rfl

/-- A retry on a husk asks for the data of a segment that is not there. -/
theorem retry_husk {c : Component (Tls S)} (h : Husk c.own.writePending) :
    (retryPendingWrites c).own.fault = true := by
  obtain ⟨hs, ht⟩ := h
  rw [List.isEmpty_iff] at hs
  have he : c.own.writePending.empty = false := by simp [BufferChain.empty, ht]
  have hd : BufferChain.dataAt id c.own.writePending 0 = none := by
    simp [BufferChain.dataAt, BufferChain.seek, hs, Chunks.locate]
  obtain ⟨k, hk⟩ := Nat.exists_eq_succ_of_ne_zero ht
  simp only [retryPendingWrites, he, Bool.false_eq_true, if_false, driveWrite]
  rw [hk]
  simp only [writeLoop, he, hd, Bool.false_eq_true, if_false]
  rfl

/-- One byte at a time, blocking at the second call. -/
def drainingSsl : Ssl := scriptedSsl fun k => if k = 1 then none else some 0

/-- **The husk.**  A partial write, then a retry that drains the rest, leave `write_pending_` without
segments but with a size and an offset; of the next three bytes the first is lost, and the loop asks for the
data of a segment that is not there. -/
theorem not_write_conserves_drained :
    WriteLawful drainingSsl ∧
      written [threeBytes, .retry, threeBytes] = [1, 2, 3, 1, 2, 3] ∧
      (Runs.run writeStep (connected (S := drainingSsl) (0 : ℕ))
        [threeBytes, .retry, threeBytes]).own.accepted = [1, 2, 3, 2, 3] ∧
      Chain.bytes (Runs.run writeStep (connected (S := drainingSsl) (0 : ℕ))
        [threeBytes, .retry, threeBytes]).own.writePending = [] ∧
      (Runs.run writeStep (connected (S := drainingSsl) (0 : ℕ))
        [threeBytes, .retry, threeBytes]).own.fault = true :=
  ⟨writeLawful_scriptedSsl _, by decide +kernel, by decide +kernel, by decide +kernel,
    by decide +kernel⟩

end DbnPipe.Tls
