import DbnPipe.Http.HttpClient
import DbnPipe.Live.CramAuthUtils

/-!
# Headers in fragments

llhttp hands a header over in pieces: some calls of `OnHeaderField`, then some of `OnHeaderValue`.

* `Fragmented` — a header with its pieces, at least one of each kind; `header` — the name and the value;
* `feed`, `feed_eq` — **what the calls for one header do**: they settle the header before, and gather this one;
* `responseHead` — a response up to `OnHeadersComplete`;
* `lastRetryAfter` — the last header that asks for a delay;
* `retryAfter_fragments` — **the pieces do not matter**, and the last such header is what remains.
-/

namespace DbnPipe.Http

variable {L : Llhttp}

/-- A header, as llhttp hands it over. -/
structure Fragmented where
  name : List (List Byte)
  value : List (List Byte)
  name_ne : name ≠ []
  value_ne : value ≠ []

namespace Fragmented

/-- The name and the value. -/
def header (f : Fragmented) : List Byte × List Byte := (f.name.flatten, f.value.flatten)

/-- The header in one piece each. -/
def joined (f : Fragmented) : Fragmented where
  name := [f.name.flatten]
  value := [f.value.flatten]
  name_ne := List.cons_ne_nil _ _
  value_ne := List.cons_ne_nil _ _

theorem header_joined (f : Fragmented) : f.joined.header = f.header := by
  simp [header, joined]

/-- The calls for one header. -/
def feed (f : Fragmented) (c : Component (HttpClient L)) : Component (HttpClient L) :=
  f.value.foldl (fun c bytes => onHeaderValue bytes c) (f.name.foldl (fun c bytes => onHeaderField bytes c) c)

end Fragmented

/-- A response up to the end of its headers. -/
def responseHead (code : ℕ) (fs : List Fragmented) (c : Component (HttpClient L)) : Component (HttpClient L) :=
  onHeadersComplete (fs.foldl (fun c f => f.feed c) (onStatus code (onMessageBegin c)))

/-- The delay a header asks for, in milliseconds: its name is `retry-after` in any case, its value begins with a
number. -/
def retryAfterOf (header : List Byte × List Byte) : Option ℤ :=
  if header.1.map toLower = retryAfterName then (stoi header.2).map (1000 * ·) else Option.none

/-- The last delay that is asked for. -/
def lastRetryAfter (headers : List (List Byte × List Byte)) : Option ℤ := (headers.filterMap retryAfterOf).getLast?

/-- No header has been seen of the current response. -/
structure Fresh (c : Component (HttpClient L)) : Prop where
  headerState : c.own.headerState = .none
  retryAfter : c.own.retryAfter = Option.none

theorem fresh_new (L : Llhttp) : Fresh (newClient L) := ⟨rfl, rfl⟩

theorem fresh_reset (c : Component (HttpClient L)) : Fresh (resetMessageState c) := ⟨rfl, rfl⟩

/-! ### One header -/

/-- The name that is being gathered. -/
def withField (field : List Byte) (h : HttpClient L) : HttpClient L :=
  { h with headerState := .field, currentHeaderField := field }

/-- The value that is being gathered. -/
def withValue (value : List Byte) (h : HttpClient L) : HttpClient L :=
  { h with headerState := .value, currentHeaderValue := value }

/-- The header before the next one, or the end, is processed. -/
def settled (h : HttpClient L) : HttpClient L := if h.headerState = .value then processHeader h else h

/-- The header before is processed, and this one gathered. -/
def Fragmented.gather (f : Fragmented) (h : HttpClient L) : HttpClient L :=
  withValue f.header.2 (withField (f.header.1.map toLower) (settled h))

theorem toLower_toLower (b : Byte) : toLower (toLower b) = toLower b := by
  by_cases h : (65 ≤ b && b ≤ 90) = true
  · have hlower : ¬(65 ≤ b + 32 && b + 32 ≤ 90) = true := by
      simp only [Bool.and_eq_true, decide_eq_true_eq, UInt8.le_iff_toNat_le] at h ⊢
      rw [UInt8.toNat_add]
      have h65 : (65 : Byte).toNat = 65 := rfl
      have h90 : (90 : Byte).toNat = 90 := rfl
      have h32 : (32 : Byte).toNat = 32 := rfl
      omega
    rw [show toLower b = b + 32 from if_pos h, toLower, if_neg hlower]
  · rw [show toLower b = b from if_neg h, toLower, if_neg h]

/-- A text in lower case stays so. -/
theorem map_toLower_twice (l : List Byte) : (l.map toLower).map toLower = l.map toLower := by
  rw [List.map_map]
  exact List.map_congr_left fun b _ => toLower_toLower b

/-- The first call for a name starts it. -/
theorem onHeaderField_start {c : Component (HttpClient L)} (h : c.own.headerState ≠ .field) (bytes : List Byte) :
    onHeaderField bytes c = update (fun h => withField (bytes.map toLower) (settled h)) c := by
  have hstate : (settled c.own).headerState ≠ .field := by
    rw [settled]
    split
    · exact h
    · exact h
  show update _ c = _
  simp only [update]
  rw [show (if c.own.headerState = .value then processHeader c.own else c.own) = settled c.own from rfl,
    if_neg hstate]
  rfl

/-- The other calls append to it. -/
theorem foldl_onHeaderField (pieces : List (List Byte)) (field : List Byte) (c : Component (HttpClient L)) :
    pieces.foldl (fun c bytes => onHeaderField bytes c) (update (withField (field.map toLower)) c) =
      update (withField ((field ++ pieces.flatten).map toLower)) c := by
  induction pieces generalizing field with
  | nil => rw [List.foldl_nil, List.flatten_nil, List.append_nil]
  | cons bytes pieces ih =>
    have hnext : onHeaderField bytes (update (withField (field.map toLower)) c) =
        update (withField ((field ++ bytes).map toLower)) c := by
      show update (withField ((field.map toLower ++ bytes).map toLower)) c = _
      rw [List.map_append, map_toLower_twice, ← List.map_append]
    rw [List.foldl_cons, hnext, ih, List.flatten_cons, List.append_assoc]

/-- The first call for a value starts it. -/
theorem onHeaderValue_start {c : Component (HttpClient L)} (h : c.own.headerState ≠ .value) (bytes : List Byte) :
    onHeaderValue bytes c = update (withValue bytes) c := by
  show update _ c = _
  simp only [update, if_neg h]
  rfl

/-- The other calls append to it. -/
theorem foldl_onHeaderValue (pieces : List (List Byte)) (value : List Byte) (c : Component (HttpClient L)) :
    pieces.foldl (fun c bytes => onHeaderValue bytes c) (update (withValue value) c) =
      update (withValue (value ++ pieces.flatten)) c := by
  induction pieces generalizing value with
  | nil => rw [List.foldl_nil, List.flatten_nil, List.append_nil]
  | cons bytes pieces ih =>
    have hnext : onHeaderValue bytes (update (withValue value) c) = update (withValue (value ++ bytes)) c := rfl
    rw [List.foldl_cons, hnext, ih, List.flatten_cons, List.append_assoc]

/-- **What the calls for one header do**, in any pieces. -/
theorem Fragmented.feed_eq (f : Fragmented) {c : Component (HttpClient L)} (h : c.own.headerState ≠ .field) :
    f.feed c = update f.gather c := by
  obtain ⟨names, values, hnames, hvalues⟩ := f
  obtain ⟨name, names, rfl⟩ := List.exists_cons_of_ne_nil hnames
  obtain ⟨value, values, rfl⟩ := List.exists_cons_of_ne_nil hvalues
  have hname : (name :: names).foldl (fun c bytes => onHeaderField bytes c) c =
      update (withField ((name ++ names.flatten).map toLower)) (update settled c) := by
    rw [List.foldl_cons, onHeaderField_start h]
    exact foldl_onHeaderField names name (update settled c)
  rw [Fragmented.feed, hname, List.foldl_cons, onHeaderValue_start (fun hv => HeaderState.noConfusion hv),
    foldl_onHeaderValue]
  rfl

/-! ### The headers of a response -/

/-- The delay that has been asked for, when the current header is processed. -/
theorem settled_retryAfter (f : Fragmented) (h : HttpClient L) :
    (settled (f.gather h)).retryAfter = (retryAfterOf f.header).or (settled h).retryAfter := by
  have hvalue : (f.gather h).currentHeaderValue = f.header.2 := rfl
  show (processHeader (f.gather h)).retryAfter = _
  rw [processHeader, retryAfterOf, hvalue]
  show (if f.header.1.map toLower = retryAfterName then _ else _) = _
  by_cases hname : f.header.1.map toLower = retryAfterName
  · rw [if_pos hname, if_pos hname]
    cases stoi f.header.2 with
    | none => rfl
    | some seconds => rfl
  · rw [if_neg hname, if_neg hname]
    rfl

/-- Headers leave the last delay that one of them asks for, and else the one there was. -/
theorem headers_retryAfter (fs : List Fragmented) {c : Component (HttpClient L)} (h : c.own.headerState ≠ .field) :
    (fs.foldl (fun c f => f.feed c) c).own.headerState ≠ .field ∧
      (settled (fs.foldl (fun c f => f.feed c) c).own).retryAfter =
        (lastRetryAfter (fs.map Fragmented.header)).or (settled c.own).retryAfter := by
  induction fs generalizing c with
  | nil => exact ⟨h, rfl⟩
  | cons f fs ih =>
    rw [List.foldl_cons, f.feed_eq h]
    have hnext : (update f.gather c).own.headerState ≠ .field := fun hv => HeaderState.noConfusion hv
    obtain ⟨hstate, hretry⟩ := ih hnext
    refine ⟨hstate, hretry.trans ?_⟩
    have hhere : (settled (update f.gather c).own).retryAfter = _ := settled_retryAfter f c.own
    rw [hhere, List.map_cons, lastRetryAfter, lastRetryAfter]
    cases hdelay : retryAfterOf f.header with
    | none => rw [List.filterMap_cons_none hdelay, Option.none_or]
    | some delay =>
      rw [List.filterMap_cons_some hdelay, List.getLast?_cons]
      cases (List.filterMap retryAfterOf (fs.map Fragmented.header)).getLast? with
      | none => rfl
      | some last => rfl

theorem onHeadersComplete_retryAfter (c : Component (HttpClient L)) :
    (onHeadersComplete c).own.retryAfter = (settled c.own).retryAfter := by
  have hown : (onHeadersComplete c).own =
      if 300 ≤ (settled c.own).statusCode then { settled c.own with headerState := .none, errorBody := [] }
      else { settled c.own with headerState := .none } := rfl
  rw [hown]
  by_cases h : 300 ≤ (settled c.own).statusCode
  · rw [if_pos h]
  · rw [if_neg h]

/-- Pieces and whole headers leave the same client. -/
theorem headers_joined (fs : List Fragmented) {c : Component (HttpClient L)} (h : c.own.headerState ≠ .field) :
    fs.foldl (fun c f => f.feed c) c = (fs.map Fragmented.joined).foldl (fun c f => f.feed c) c := by
  induction fs generalizing c with
  | nil => rfl
  | cons f fs ih =>
    have hgather : (f.joined.gather : HttpClient L → HttpClient L) = f.gather := by
      funext own
      rw [Fragmented.gather, Fragmented.gather, f.header_joined]
    have hsame : f.joined.feed c = f.feed c := by rw [f.joined.feed_eq h, f.feed_eq h, hgather]
    rw [List.map_cons, List.foldl_cons, List.foldl_cons, hsame, ih]
    rw [f.feed_eq h]
    exact fun hv => HeaderState.noConfusion hv

/-- **Fragments do not matter.**  After the headers of a response, in any pieces, the client is the one after the whole
headers, and the delay is that of the last header named `retry-after`, in any case, whose value begins with a number
in the range of `int`; there is none without such a header. -/
theorem retryAfter_fragments {c : Component (HttpClient L)} (h : Fresh c) (code : ℕ) (fs : List Fragmented) :
    responseHead code fs c = responseHead code (fs.map Fragmented.joined) c ∧
      (responseHead code fs c).own.retryAfter = lastRetryAfter (fs.map Fragmented.header) := by
  have hstart : (onStatus code (onMessageBegin c)).own.headerState ≠ .field := by
    show c.own.headerState ≠ .field
    rw [h.headerState]
    exact fun hv => HeaderState.noConfusion hv
  constructor
  · rw [responseHead, responseHead, headers_joined fs hstart]
  · have hnone : (onStatus code (onMessageBegin c)).own.headerState = .none := h.headerState
    have hsettled : (settled (onStatus code (onMessageBegin c)).own).retryAfter = Option.none := by
      rw [settled, if_neg (by rw [hnone]; decide)]
      exact h.retryAfter
    obtain ⟨-, hretry⟩ := headers_retryAfter fs hstart
    rw [hsettled, Option.or_none] at hretry
    rw [responseHead, onHeadersComplete_retryAfter, hretry]

/-- `RETRY-AFTER: 3` in pieces, a header in between, and `Retry-After: soon`. -/
def delays : List Fragmented :=
  [⟨[Live.ascii "RET", Live.ascii "RY-", Live.ascii "AFTER"], [[], Live.ascii "3"], by decide, by decide⟩,
    ⟨[Live.ascii "Vary"], [Live.ascii "*"], by decide, by decide⟩,
    ⟨[Live.ascii "Retry-After"], [Live.ascii "so", Live.ascii "on"], by decide, by decide⟩]

/-- The third header is no number; the first one stays. -/
theorem retryAfter_fragments_delays :
    (responseHead 429 delays (newClient (canned 429 []))).own.retryAfter = some 3000 :=
  (retryAfter_fragments (fresh_new (canned 429 [])) 429 delays).2.trans (by decide)

end DbnPipe.Http
