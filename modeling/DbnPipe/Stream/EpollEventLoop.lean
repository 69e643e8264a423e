import DbnPipe.Library.Runs
import Mathlib.Data.List.Basic
import Mathlib.Logic.Function.Basic

/-!
# The epoll event loop

`EpollEventLoop` and `EpollEventHandle` of `lib/stream/epoll_event_loop.cpp`: which handles there are, what the
kernel knows of them, and **what a batch of events does to both**.

* `EpollEventHandle`, `EpollEventLoop` — the members; a handle is known by its pointer, and the kernel's interest
  list by file descriptor;
* `Action`, `act` — what a callback may do: destroy a handle, close a descriptor, register, update, schedule, defer;
* `Behaviour`, `call` — **the callbacks are arbitrary**: what one does may depend on all that has happened;
* `onError`, `onReadable`, `onWritable` — the three uses that `HandleEvents` makes of a handle;
* `handleTimerExpired`, `handleEvents`, `dispatch`, `processDeferredCallbacks`, `poll` — the loop.

Every use of a handle is written down as an `Access`, with whether the handle still exists.  What the code would do
with the members of a handle that does not is undefined; the model leaves the use out.
-/

namespace DbnPipe.Epoll

/-- A pointer to a handle.  No two handles have the same. -/
abbrev HandleId := ℕ

/-- `on_read_`: empty, given by a client, or the one that `Schedule` gives. -/
inductive ReadCallback where
  | empty
  | client
  | timer (fd : ℕ)
deriving DecidableEq, Repr

/-- `EpollEventHandle`; of `on_write_` and `on_error_` only whether they are set. -/
structure EpollEventHandle where
  fd : ℕ
  onRead : ReadCallback := .empty
  onWrite : Bool := false
  onError : Bool := false
deriving DecidableEq, Repr

/-- What the kernel knows of a descriptor: `ev.data.ptr`, and the bits that it watches for. -/
structure Registration where
  handle : HandleId
  wantRead : Bool
  wantWrite : Bool
deriving DecidableEq, Repr

/-- `TimerEntry`. -/
structure TimerEntry where
  fd : ℕ
  callback : Bool
  handle : HandleId
deriving DecidableEq, Repr

/-- A call of a callback. -/
inductive Call where
  | read (h : HandleId)
  | write (h : HandleId)
  | error (h : HandleId)
  | timer (fd : ℕ)
  | deferred (n : ℕ)
deriving DecidableEq, Repr

/-- A use of a handle, and whether the handle exists. -/
structure Access where
  handle : HandleId
  live : Bool
deriving DecidableEq, Repr

/-- `EpollEventLoop`; `handles` are the handles that exist. -/
structure EpollEventLoop where
  handles : HandleId → Option EpollEventHandle := fun _ => none
  interest : ℕ → Option Registration := fun _ => none
  timers : List TimerEntry := []
  deferredCallbacks : List ℕ := []
  next : HandleId := 0
  calls : List Call := []
  accesses : List Access := []

/-- `events[i].events`: `EPOLLIN`, `EPOLLOUT`, and `EPOLLERR` or `EPOLLHUP`. -/
structure Bits where
  readable : Bool := false
  writable : Bool := false
  failed : Bool := false
deriving DecidableEq, Repr

/-- `epoll_event`; the pointer is null for the wake descriptor. -/
structure EpollEvent where
  handle : Option HandleId
  bits : Bits
deriving DecidableEq, Repr

/-- What a callback may do. -/
inductive Action where
  | destroy (h : HandleId)
  | close (fd : ℕ)
  | register (fd : ℕ) (wantRead wantWrite : Bool) (onRead onWrite onError : Bool)
  | update (h : HandleId) (wantRead wantWrite : Bool)
  | schedule (fd : ℕ) (callback : Bool)
  | defer (n : ℕ)
deriving DecidableEq, Repr

namespace EpollEventLoop

/-- `~EpollEventHandle`: `EPOLL_CTL_DEL` removes whatever is registered for the descriptor. -/
def destroy (h : HandleId) (s : EpollEventLoop) : EpollEventLoop :=
  match s.handles h with
  | none => s
  | some handle =>
    { s with
      handles := Function.update s.handles h none
      interest := Function.update s.interest handle.fd none }

/-- `close`: the kernel forgets the descriptor. -/
def close (fd : ℕ) (s : EpollEventLoop) : EpollEventLoop :=
  { s with interest := Function.update s.interest fd none }

/-- `Register`; where `EPOLL_CTL_ADD` fails the constructor throws. -/
def register (handle : EpollEventHandle) (wantRead wantWrite : Bool) (s : EpollEventLoop) : EpollEventLoop :=
  if (s.interest handle.fd).isSome then s
  else
    { s with
      handles := Function.update s.handles s.next (some handle)
      interest := Function.update s.interest handle.fd (some ⟨s.next, wantRead, wantWrite⟩)
      next := s.next + 1 }

/-- `EpollEventHandle::Update`; where `EPOLL_CTL_MOD` fails it throws. -/
def update (h : HandleId) (wantRead wantWrite : Bool) (s : EpollEventLoop) : EpollEventLoop :=
  match s.handles h with
  | none => s
  | some handle =>
    if (s.interest handle.fd).isSome then
      { s with interest := Function.update s.interest handle.fd (some ⟨h, wantRead, wantWrite⟩) }
    else s

/-- `Schedule`, with the descriptor of the new timer. -/
def schedule (fd : ℕ) (callback : Bool) (s : EpollEventLoop) : EpollEventLoop :=
  if (s.interest fd).isSome then s
  else
    let handle := s.next
    let s := s.register { fd := fd, onRead := .timer fd } true false
    { s with timers := s.timers ++ [{ fd := fd, callback := callback, handle := handle }] }

/-- An action of a callback. -/
def act (s : EpollEventLoop) : Action → EpollEventLoop
  | .destroy h => s.destroy h
  | .close fd => s.close fd
  | .register fd wantRead wantWrite onRead onWrite onError =>
    s.register
      { fd := fd, onRead := if onRead then .client else .empty, onWrite := onWrite, onError := onError }
      wantRead wantWrite
  | .update h wantRead wantWrite => s.update h wantRead wantWrite
  | .schedule fd callback => s.schedule fd callback
  | .defer n => { s with deferredCallbacks := s.deferredCallbacks ++ [n] }

end EpollEventLoop

/-- What the callbacks do. -/
abbrev Behaviour := EpollEventLoop → Call → List Action

namespace EpollEventLoop

variable (behave : Behaviour)

/-- A callback runs. -/
def call (c : Call) (s : EpollEventLoop) : EpollEventLoop :=
  (behave s c).foldl act { s with calls := s.calls ++ [c] }

/-- A member of a handle is read. -/
def access (h : HandleId) (s : EpollEventLoop) : EpollEventLoop :=
  { s with accesses := s.accesses ++ [⟨h, (s.handles h).isSome⟩] }

/-- What `HandleTimerExpired` does under the lock; the handle goes with its entry. -/
def eraseTimer (fd : ℕ) (entry : TimerEntry) (s : EpollEventLoop) : EpollEventLoop :=
  let s := s.close fd
  let s := { s with timers := s.timers.eraseP fun e => e.fd = fd }
  s.destroy entry.handle

/-- `HandleTimerExpired`: the entry is gone before its callback runs. -/
def handleTimerExpired (fd : ℕ) (s : EpollEventLoop) : EpollEventLoop :=
  match s.timers.find? fun e => e.fd = fd with
  | none => s
  | some entry =>
    let s := s.eraseTimer fd entry
    if entry.callback then s.call behave (.timer fd) else s

/-- `EPOLLERR` or `EPOLLHUP`. -/
def onError (h : HandleId) (s : EpollEventLoop) : EpollEventLoop :=
  match s.handles h with
  | none => s.access h
  | some handle => if handle.onError then (s.access h).call behave (.error h) else s.access h

/-- `EPOLLIN`. -/
def onReadable (h : HandleId) (s : EpollEventLoop) : EpollEventLoop :=
  match s.handles h with
  | none => s.access h
  | some handle =>
    match handle.onRead with
    | .empty => s.access h
    | .client => (s.access h).call behave (.read h)
    | .timer fd => (s.access h).handleTimerExpired behave fd

/-- `EPOLLOUT`. -/
def onWritable (h : HandleId) (s : EpollEventLoop) : EpollEventLoop :=
  match s.handles h with
  | none => s.access h
  | some handle => if handle.onWrite then (s.access h).call behave (.write h) else s.access h

/-- `HandleEvents`. -/
def handleEvents (h : HandleId) (bits : Bits) (s : EpollEventLoop) : EpollEventLoop :=
  if bits.failed then s.onError behave h
  else
    let s := if bits.readable then s.onReadable behave h else s
    if bits.writable then s.onWritable behave h else s

/-- The loop over the events; the wake descriptor is only read. -/
def dispatch (events : List EpollEvent) (s : EpollEventLoop) : EpollEventLoop :=
  events.foldl (fun s e => match e.handle with
    | some h => s.handleEvents behave h e.bits
    | none => s) s

/-- `ProcessDeferredCallbacks`. -/
def processDeferredCallbacks (s : EpollEventLoop) : EpollEventLoop :=
  s.deferredCallbacks.foldl (fun s n => s.call behave (.deferred n)) { s with deferredCallbacks := [] }

/-- `Poll`, with the events of `epoll_wait`, if it is not interrupted. -/
def poll (events : Option (List EpollEvent)) (s : EpollEventLoop) : EpollEventLoop :=
  let s := s.processDeferredCallbacks behave
  match events with
  | none => s
  | some events => (s.dispatch behave events).processDeferredCallbacks behave

/-- `kMaxEvents`. -/
def kMaxEvents : ℕ := 64

/-- What `epoll_wait` returns: registered descriptors, each once, with bits that are watched for or cannot be
masked. -/
structure Returned (s : EpollEventLoop) (events : List EpollEvent) : Prop where
  count : events.length ≤ kMaxEvents
  once : (events.map EpollEvent.handle).Nodup
  registered : ∀ e ∈ events, ∀ h, e.handle = some h → ∃ fd r, s.interest fd = some r ∧ r.handle = h ∧
    (e.bits.readable = true → r.wantRead = true) ∧ (e.bits.writable = true → r.wantWrite = true)

end EpollEventLoop

end DbnPipe.Epoll
