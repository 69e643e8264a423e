import DbnPipe.Stream.BufferChain
import Mathlib.Data.Int.Notation

/-!
# llhttp

The HTTP parser that `HttpClient` drives is a third-party library, so it is a parameter: an automaton over
bytes.  Fixed here is what its documentation says of the driving interface.

* `Llhttp` — the automaton: what each byte announces, and what `llhttp_finish` finds;
* `Llhttp.trace` — the events of a byte list, with its append law;
* `bodyOf` — **the body of a response**: the bytes announced as body, in order.

Data callbacks get spans: the pieces announced by consecutive bytes of one `llhttp_execute` are handed over
together, at the latest when the chunk ends.
-/

namespace DbnPipe.Http

/-- The data callbacks that are set; `on_status` reads `parser->status_code`. -/
inductive SpanKind where
  | status (code : ℕ)
  | headerField
  | headerValue
  | body
deriving DecidableEq, Repr

/-- What a byte announces: a piece of a span, or an information callback. -/
inductive Event where
  | span (kind : SpanKind) (bytes : List Byte)
  | messageBegin
  | headersComplete
  | messageComplete
deriving DecidableEq, Repr

/-- What `llhttp_finish` finds: nothing is open, the open message ends with the connection, or the
connection ended inside a message. -/
inductive Finish where
  | safe
  | safeWithCallback
  | unsafeEof (name : String)
deriving DecidableEq, Repr

/-- The response parser.  `start` is its state after `llhttp_init`; a run in which a callback calls
`llhttp_init` goes on in `restarted`; `status` is `status_code`. -/
structure Llhttp where
  State : Type
  start : State
  restarted : State
  status : State → ℕ
  next : State → Byte → Except String (State × List Event)
  finish : State → Finish

/-- `llhttp_errno_t`: `HPE_OK`, `HPE_PAUSED`, a callback's refusal, or a parse error with its name. -/
inductive Errno where
  | ok
  | paused
  | user
  | other (name : String)
deriving DecidableEq, Repr

namespace Llhttp

variable (L : Llhttp)

/-- The state after some bytes and the events on the way, if there is no parse error. -/
def trace : L.State → List Byte → Option (L.State × List Event)
  | s, [] => some (s, [])
  | s, b :: bs =>
    match L.next s b with
    | .error _ => none
    | .ok (s', es) => (trace s' bs).map fun r => (r.1, es ++ r.2)

@[simp] theorem trace_nil (s : L.State) : L.trace s [] = some (s, []) := rfl

theorem trace_cons {s s' : L.State} {b : Byte} {es : List Event} (h : L.next s b = .ok (s', es))
    (bs : List Byte) : L.trace s (b :: bs) = (L.trace s' bs).map fun r => (r.1, es ++ r.2) := by
  rw [trace, h]

theorem trace_cons_inv {s u : L.State} {b : Byte} {bs : List Byte} {es : List Event}
    (h : L.trace s (b :: bs) = some (u, es)) :
    ∃ s' es₁ es₂, L.next s b = .ok (s', es₁) ∧ L.trace s' bs = some (u, es₂) ∧ es = es₁ ++ es₂ := by
  cases hn : L.next s b with
  | error e => simp [trace, hn] at h
  | ok p =>
    obtain ⟨s', es₁⟩ := p
    rw [L.trace_cons hn] at h
    obtain ⟨⟨u', es₂⟩, hu, heq⟩ := Option.map_eq_some_iff.mp h
    rw [Prod.mk.injEq] at heq
    obtain ⟨rfl, rfl⟩ := heq
    exact ⟨s', es₁, es₂, rfl, hu, rfl⟩

theorem trace_append {s s' : L.State} {x : List Byte} {es : List Event}
    (h : L.trace s x = some (s', es)) (y : List Byte) :
    L.trace s (x ++ y) = (L.trace s' y).map fun r => (r.1, es ++ r.2) := by
  induction x generalizing s es with
  | nil =>
    rw [trace_nil, Option.some.injEq, Prod.mk.injEq] at h
    obtain ⟨rfl, rfl⟩ := h
    simp
  | cons b x ih =>
    obtain ⟨t, es₁, es₂, hn, ht, rfl⟩ := L.trace_cons_inv h
    rw [List.cons_append, L.trace_cons hn, ih ht, Option.map_map]
    congr 1
    funext r
    show (r.1, es₁ ++ (es₂ ++ r.2)) = (r.1, es₁ ++ es₂ ++ r.2)
    rw [List.append_assoc]

/-- A prefix of traced bytes is traced. -/
theorem trace_prefix {s u : L.State} {x y : List Byte} {es : List Event}
    (h : L.trace s (x ++ y) = some (u, es)) :
    ∃ t es₁ es₂, L.trace s x = some (t, es₁) ∧ L.trace t y = some (u, es₂) ∧ es = es₁ ++ es₂ := by
  induction x generalizing s es with
  | nil => exact ⟨s, [], es, rfl, h, rfl⟩
  | cons b x ih =>
    obtain ⟨s', es', es'', hn, hu, rfl⟩ := L.trace_cons_inv h
    obtain ⟨t, es₁, es₂, h1, h2, rfl⟩ := ih hu
    refine ⟨t, es' ++ es₁, es₂, ?_, h2, (List.append_assoc _ _ _).symm⟩
    rw [L.trace_cons hn, h1]
    rfl

end Llhttp

/-- The body bytes that an event carries. -/
def Event.body : Event → List Byte
  | .span .body bytes => bytes
  | _ => []

/-- The body bytes of some events, in order. -/
def bodyOf (es : List Event) : List Byte := es.flatMap Event.body

@[simp] theorem bodyOf_nil : bodyOf [] = [] := rfl

theorem bodyOf_append (es fs : List Event) : bodyOf (es ++ fs) = bodyOf es ++ bodyOf fs :=
  List.flatMap_append

theorem bodyOf_cons (e : Event) (es : List Event) : bodyOf (e :: es) = e.body ++ bodyOf es :=
  List.flatMap_cons

/-! ### A parser for one response -/

/-- One byte of a fixed response, given with what each of its bytes announces. -/
def cannedNext (rows : List (Byte × List Event)) (i : ℕ) (b : Byte) : Except String (ℕ × List Event) :=
  match rows[i]? with
  | some row => if b = row.1 then .ok (i + 1, row.2) else .error "HPE_INVALID_CONSTANT"
  | none => .error "HPE_CLOSED_CONNECTION"

/-- The parser of one fixed response. -/
def canned (code : ℕ) (rows : List (Byte × List Event)) : Llhttp where
  State := ℕ
  start := 0
  restarted := 0
  status := fun _ => code
  next := cannedNext rows
  finish i := if 0 < i ∧ i < rows.length then .unsafeEof "HPE_INVALID_EOF_STATE" else .safe

/-- Bytes that announce nothing. -/
def plain (bytes : List Byte) : List (Byte × List Event) := bytes.map fun b => (b, [])

/-- Bytes of a span. -/
def spanned (kind : SpanKind) (bytes : List Byte) : List (Byte × List Event) :=
  bytes.map fun b => (b, [.span kind [b]])

/-- `HTTP/1.1 200 OK`, `Content-Length: 2`, and the body `hi`. -/
def okResponse : List (Byte × List Event) :=
  [(72, [.messageBegin])] ++ plain [84, 84, 80, 47, 49, 46, 49, 32, 50, 48, 48, 32] ++
    spanned (.status 200) [79, 75] ++ plain [13, 10] ++
    spanned .headerField [67, 111, 110, 116, 101, 110, 116, 45, 76, 101, 110, 103, 116, 104] ++
    plain [58, 32] ++ spanned .headerValue [50] ++ plain [13, 10, 13] ++
    [(10, [.headersComplete]), (104, [.span .body [104]]), (105, [.span .body [105], .messageComplete])]

theorem cannedNext_ok {rows : List (Byte × List Event)} {i s : ℕ} {b : Byte} {es : List Event}
    (h : cannedNext rows i b = .ok (s, es)) : s = i + 1 ∧ ∃ b', rows[i]? = some (b', es) := by
  rw [cannedNext] at h
  split at h
  · rename_i row hrow
    split at h
    · cases h
      exact ⟨rfl, row.1, hrow⟩
    · cases h
  · cases h

theorem canned_trace {code : ℕ} {rows : List (Byte × List Event)} {bytes : List Byte} {i s : ℕ}
    {es : List Event} (h : (canned code rows).trace i bytes = some (s, es)) (hi : i ≤ rows.length) :
    s = i + bytes.length ∧ s ≤ rows.length ∧
      es = ((rows.drop i).take bytes.length).flatMap Prod.snd := by
  induction bytes generalizing i es with
  | nil =>
    cases h
    exact ⟨rfl, hi, by simp⟩
  | cons b bytes ih =>
    obtain ⟨t, es₁, es₂, hn, ht, rfl⟩ := (canned code rows).trace_cons_inv h
    obtain ⟨rfl, b', hrow⟩ := cannedNext_ok hn
    obtain ⟨hlt, hget⟩ := List.getElem?_eq_some_iff.mp hrow
    obtain ⟨h1, h2, h3⟩ := ih ht hlt
    refine ⟨by rw [h1, List.length_cons]; omega, h2, ?_⟩
    rw [h3, List.drop_eq_getElem_cons hlt, hget, List.length_cons, List.take_succ_cons,
      List.flatMap_cons]

end DbnPipe.Http
