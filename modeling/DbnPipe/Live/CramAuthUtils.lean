import DbnPipe.Stream.BufferChain

/-!
# The texts of the live protocol

`CramAuthUtils` of `src/cram_auth.hpp`, and the lines that `CramAuth` writes.  Texts are byte lists.

* `parseGreeting`, `parseChallenge`, `parseAuthResponse` — the server's lines;
* `computeResponse` — the answer to a challenge, **with SHA-256 as a parameter**;
* `formatAuthRequest`, `subscriptionLine`, `startSession` — the client's lines, without their newline;
* what the lines of each kind begin with, so that they can be told apart.
-/

namespace DbnPipe.Live

/-- The characters of a text, all of them ASCII. -/
def ascii (s : String) : List Byte := s.toList.map fun c => UInt8.ofNat c.toNat

/-- `find(c)`: what stands before the first `c` and behind it. -/
def cut (c : Byte) : List Byte → Option (List Byte × List Byte)
  | [] => none
  | b :: bs => if b = c then some ([], bs) else (cut c bs).map fun p => (b :: p.1, p.2)

/-- The text up to the first occurrence of `pat`. -/
def upTo (pat : List Byte) : List Byte → List Byte
  | [] => []
  | b :: bs => if pat.isPrefixOf (b :: bs) then [] else b :: upTo pat bs

/-- A decimal number. -/
def decimal (n : ℕ) : List Byte := (Nat.toDigits 10 n).map fun c => UInt8.ofNat c.toNat

/-- `{:02x}`. -/
def hexByte (b : Byte) : List Byte :=
  [Nat.digitChar (b.toNat / 16), Nat.digitChar (b.toNat % 16)].map fun c => UInt8.ofNat c.toNat

/-! ### The server's lines -/

/-- `Greeting`. -/
structure Greeting where
  sessionId : List Byte := []
  version : List Byte := []
deriving DecidableEq, Repr

/-- A line without its newline, and without a carriage return at its end. -/
def trimLine (data : List Byte) : List Byte :=
  let data := ((cut 10 data).map Prod.fst).getD data
  if data.getLast? = some 13 then data.dropLast else data

/-- `ParseGreeting`. -/
def parseGreeting (data : List Byte) : Option Greeting :=
  let data := trimLine data
  match cut 124 data with
  | some (id, version) => some { sessionId := id, version := version }
  | none =>
    match cut 61 data with
    | some (_, value) => some { version := upTo (ascii " (") value }
    | none => some { version := data }

/-- `cram=`. -/
def cramPrefix : List Byte := ascii "cram="

/-- `ParseChallenge`. -/
def parseChallenge (data : List Byte) : Option (List Byte) :=
  if cramPrefix.isPrefixOf data then
    let rest := data.drop cramPrefix.length
    some (((cut 10 rest).map Prod.fst).getD rest)
  else none

/-- What `HandleAuthResponse` gathers from the fields of a line. -/
structure AuthFields where
  foundSuccess : Bool := false
  isSuccess : Bool := false
  errorMsg : List Byte := []
  sessionId : Option (List Byte) := none
deriving DecidableEq, Repr

/-- One `key=value` field. -/
def AuthFields.add (f : AuthFields) (kv : List Byte) : AuthFields :=
  match cut 61 kv with
  | none => f
  | some (key, value) =>
    if key = ascii "success" then { f with foundSuccess := true, isSuccess := value == ascii "1" }
    else if key = ascii "error" then { f with errorMsg := value }
    else if key = ascii "session_id" then { f with sessionId := some value }
    else f

/-- The loop over the fields between the pipes; a round takes at least one character. -/
def authFields : ℕ → List Byte → AuthFields → AuthFields
  | 0, _, f => f
  | fuel + 1, remaining, f =>
    if remaining.isEmpty then f
    else
      match cut 124 remaining with
      | some (kv, rest) => authFields fuel rest (f.add kv)
      | none => f.add remaining

/-- The fields of an auth response. -/
def parseAuthResponse (line : List Byte) : AuthFields := authFields line.length line {}

/-- The message of a failed auth response, if it is one. -/
def authFailure (line : List Byte) : Option (List Byte) :=
  if (ascii "err=").isPrefixOf line then some (ascii "Authentication failed: " ++ line)
  else
    let f := parseAuthResponse line
    if f.foundSuccess && !f.isSuccess then
      some (ascii "Authentication failed" ++ if f.errorMsg.isEmpty then [] else ascii ": " ++ f.errorMsg)
    else none

/-! ### The client's lines -/

/-- `kBucketIdLength`. -/
def kBucketIdLength : ℕ := 5

/-- `ComputeResponse`. -/
def computeResponse (sha256 : List Byte → List Byte) (challenge apiKey : List Byte) : List Byte :=
  let digest := (sha256 (challenge ++ ascii "|" ++ apiKey)).flatMap hexByte
  if kBucketIdLength ≤ apiKey.length then
    digest ++ ascii "-" ++ apiKey.drop (apiKey.length - kBucketIdLength)
  else digest

/-- `FormatAuthRequest`. -/
def formatAuthRequest (auth dataset : List Byte) : List Byte :=
  ascii "auth=" ++ auth ++ ascii "|dataset=" ++ dataset ++
    ascii "|encoding=dbn|ts_out=0|client=dbn-pipe/0.1"

/-- The parameters of a subscription. -/
structure Subscription where
  symbols : List Byte
  schema : List Byte
  stypeIn : List Byte
  start : Option (List Byte) := none
  snapshot : Bool := false
deriving DecidableEq, Repr

/-- The line of a subscription. -/
def subscriptionLine (p : Subscription) (id : ℕ) : List Byte :=
  ascii "schema=" ++ (p.schema ++ ascii "|stype_in=" ++ p.stypeIn ++
    (match p.start with
      | some start => ascii "|start=" ++ start
      | none => []) ++
    ascii "|id=" ++ decimal id ++ ascii "|symbols=" ++ p.symbols ++
    ascii "|snapshot=" ++ (if p.snapshot then ascii "1" else ascii "0") ++ ascii "|is_last=1")

/-- `start_session`. -/
def startSession : List Byte := ascii "start_session"

/-- A line that subscribes. -/
def IsSubscription (line : List Byte) : Prop := ascii "schema=" <+: line

instance (line : List Byte) : Decidable (IsSubscription line) := inferInstanceAs (Decidable (_ <+: _))

theorem isSubscription_line (p : Subscription) (id : ℕ) : IsSubscription (subscriptionLine p id) :=
  List.prefix_append _ _

theorem not_isSubscription_startSession : ¬IsSubscription startSession := by decide

theorem not_isSubscription_auth (auth dataset : List Byte) :
    ¬IsSubscription (formatAuthRequest auth dataset) := by
  rintro ⟨rest, h⟩
  have hhead := congrArg List.head? h
  rw [formatAuthRequest] at hhead
  exact absurd hhead (by simp [ascii])

theorem auth_ne_startSession (auth dataset : List Byte) : formatAuthRequest auth dataset ≠ startSession := by
  intro h
  have hhead := congrArg List.head? h
  rw [formatAuthRequest] at hhead
  exact absurd hhead (by simp [ascii, startSession])

/-! ### Cutting -/

theorem cut_of_not_mem {c : Byte} {xs : List Byte} (h : c ∉ xs) (ys : List Byte) :
    cut c (xs ++ c :: ys) = some (xs, ys) := by
  induction xs with
  | nil => simp [cut]
  | cons x xs ih =>
    have hx : x ≠ c := fun he => h (he ▸ List.mem_cons_self)
    rw [List.cons_append, cut, if_neg hx, ih fun hm => h (List.mem_cons_of_mem _ hm)]
    rfl

end DbnPipe.Live
