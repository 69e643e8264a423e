import DbnPipe.Http.HttpRequestBuilder
import DbnPipe.Stream.BufferChain

/-!
# The request for historical data

`HistoricalProtocol::SendRequest` formats a request into one segment, through a pointer into its array.

* `HistoricalRequest`, `requestText` — the request, and **the text that the builder emits**;
* `put`, `sendRequest` — the pointer, **which no one compares with the end of the array**;
* `requestLength`, `length_requestText` — the length of the text, by the lengths of its parts;
* `sendRequest_iff` — nothing is written behind the array **exactly where that length fits**.
-/

namespace DbnPipe.Http

open DbnPipe.Live (ascii decimal)

/-- `HistoricalRequest`; the timestamps are unsigned nanoseconds. -/
structure HistoricalRequest where
  dataset : List Byte
  symbols : List Byte
  schema : List Byte
  start : UInt64
  stop : UInt64
  stypeIn : List Byte := []
  stypeOut : List Byte := []

/-- `kHistoricalHostname`. -/
def kHistoricalHostname : List Byte := ascii "hist.databento.com"

namespace HistoricalRequest

/-- The request line of `SendRequest`, without its optional parameters. -/
def requestLine (request : HistoricalRequest) : HttpRequestBuilder :=
  let builder := (({} : HttpRequestBuilder).method (ascii "GET")).path (ascii "/v0/timeseries.get_range")
  let builder := builder.queryParam (ascii "dataset") request.dataset
  let builder := builder.queryParam (ascii "symbols") request.symbols
  let builder := builder.queryParam (ascii "schema") request.schema
  let builder := builder.queryParamNumber (ascii "start") request.start.toNat
  let builder := builder.queryParamNumber (ascii "end") request.stop.toNat
  let builder := builder.queryParam (ascii "encoding") (ascii "dbn")
  builder.queryParam (ascii "compression") (ascii "zstd")

/-- A parameter that is left out if it is empty. -/
def optionalParam (key value : List Byte) (b : HttpRequestBuilder) : HttpRequestBuilder :=
  if value.isEmpty then b else b.queryParam key value

/-- The headers of `SendRequest`, to the end. -/
def headers (apiKey : List Byte) (b : HttpRequestBuilder) : HttpRequestBuilder :=
  let builder := (b.host kHistoricalHostname).basicAuth apiKey
  let builder := builder.header (ascii "Accept") (ascii "application/octet-stream")
  let builder := builder.header (ascii "Accept-Encoding") (ascii "zstd")
  (builder.header (ascii "Connection") (ascii "close")).finish

/-- What `SendRequest` makes the builder write. -/
def requestText (request : HistoricalRequest) (apiKey : List Byte) : List Byte :=
  let builder := request.requestLine
  let builder := optionalParam (ascii "stype_in") request.stypeIn builder
  let builder := optionalParam (ascii "stype_out") request.stypeOut builder
  (headers apiKey builder).out

/-- `*out++ = c`, through a pointer into the array of a segment: there is no byte to write to behind it. -/
def put (written : List Byte) (c : Byte) : Option (List Byte) :=
  if written.length < Segment.kSize then some (written ++ [c]) else none

/-- `SendRequest`: the bytes of the segment that it sends, if it writes nothing behind the array. -/
def sendRequest (request : HistoricalRequest) (apiKey : List Byte) : Option (List Byte) :=
  (request.requestText apiKey).foldlM put []

/-- **A text is written exactly if the array has room for it.** -/
theorem foldlM_put (text written : List Byte) (h : written.length ≤ Segment.kSize) :
    text.foldlM put written =
      if written.length + text.length ≤ Segment.kSize then some (written ++ text) else none := by
  induction text generalizing written with
  | nil => rw [List.foldlM_nil, List.length_nil, Nat.add_zero, if_pos h, List.append_nil]; rfl
  | cons c text ih =>
    rw [List.foldlM_cons, put, List.length_cons]
    rcases Nat.lt_or_ge written.length Segment.kSize with hlt | hge
    · have hlength : (written ++ [c]).length = written.length + 1 := by
        rw [List.length_append, List.length_singleton]
      rw [if_pos hlt]
      have hrest := ih (written ++ [c]) (by omega)
      rw [hlength, List.append_assoc, List.singleton_append, Nat.add_right_comm] at hrest
      exact hrest
    · rw [if_neg (by omega), if_neg (by omega)]
      rfl

theorem sendRequest_isSome (request : HistoricalRequest) (apiKey : List Byte) :
    (request.sendRequest apiKey).isSome ↔ (request.requestText apiKey).length ≤ Segment.kSize := by
  rw [sendRequest, foldlM_put _ [] (Nat.zero_le _), List.length_nil, Nat.zero_add]
  split
  · rename_i h
    exact iff_of_true rfl h
  · rename_i h
    exact iff_of_false Bool.false_ne_true h

/-! ### The length of the text -/

/-- The length of a text in a query: three bytes for one that is not accepted. -/
def encodedLength (text : List Byte) : ℕ := text.length + 2 * text.countP fun c => !accepted c

/-- An optional parameter: its name with two separators, and its value. -/
def optionalLength (name : ℕ) (value : List Byte) : ℕ := if value = [] then 0 else name + 2 + encodedLength value

/-- The length of the text, by those of its parts. -/
def requestLength (request : HistoricalRequest) (apiKey : List Byte) : ℕ :=
  234 + encodedLength request.dataset + encodedLength request.symbols + encodedLength request.schema +
    (decimal request.start.toNat).length + (decimal request.stop.toNat).length +
    optionalLength 8 request.stypeIn + optionalLength 9 request.stypeOut + 4 * ((apiKey.length + 3) / 3)

theorem length_urlEncode (text : List Byte) : (urlEncode text).length = encodedLength text :=
  PercentEncoding.length_encode accepted text

section calls

variable (b : HttpRequestBuilder)

theorem length_write (text : List Byte) : (b.write text).out.length = b.out.length + text.length :=
  List.length_append

theorem length_queryParam (key value : List Byte) :
    (b.queryParam key value).out.length = b.out.length + encodedLength key + encodedLength value + 2 := by
  simp only [HttpRequestBuilder.queryParam, length_write, List.length_singleton, length_urlEncode]
  omega

theorem length_queryParamNumber (key : List Byte) (value : ℕ) :
    (b.queryParamNumber key value).out.length = b.out.length + encodedLength key + (decimal value).length + 2 := by
  simp only [HttpRequestBuilder.queryParamNumber, length_write, List.length_cons, List.length_nil,
    length_urlEncode]
  omega

theorem length_optionalParam (key value : List Byte) :
    (optionalParam key value b).out.length = b.out.length + optionalLength (encodedLength key) value := by
  rw [optionalParam, optionalLength]
  cases value with
  | nil => rfl
  | cons c value =>
    rw [List.isEmpty_cons, if_neg Bool.false_ne_true, if_neg (List.cons_ne_nil c value), length_queryParam]
    omega

theorem optionalParam_flags (key value : List Byte) :
    (optionalParam key value b).headersStarted = b.headersStarted ∧
      (optionalParam key value b).bodyWritten = b.bodyWritten := by
  rw [optionalParam]
  split
  · exact ⟨rfl, rfl⟩
  · exact ⟨rfl, rfl⟩

/-- The end of the request line, the headers, and the blank line. -/
theorem length_headers (apiKey : List Byte) (hheaders : b.headersStarted = false) (hbody : b.bodyWritten = false) :
    (headers apiKey b).out.length = b.out.length + 138 + 4 * ((apiKey.length + 3) / 3) := by
  have hascii : (ascii " HTTP/1.1").length = 9 ∧ (ascii "Host: ").length = 6 ∧ kHistoricalHostname.length = 18 ∧
      (ascii "Authorization: Basic ").length = 21 ∧ (ascii "Accept").length = 6 ∧
      (ascii "application/octet-stream").length = 24 ∧ (ascii "Accept-Encoding").length = 15 ∧
      (ascii "zstd").length = 4 ∧ (ascii "Connection").length = 10 ∧ (ascii "close").length = 5 ∧
      (ascii ": ").length = 2 ∧ crlf.length = 2 := by decide
  simp only [headers, HttpRequestBuilder.host, HttpRequestBuilder.basicAuth, HttpRequestBuilder.header,
    HttpRequestBuilder.finish, HttpRequestBuilder.ensureHeadersStarted, hheaders, hbody, Bool.false_eq_true, if_false,
    if_true, HttpRequestBuilder.write, List.length_append, base64Encode_eq, Base64.length_encode,
    List.length_singleton, hascii]
  omega

end calls

/-- The request line without its optional parameters. -/
theorem length_requestLine (request : HistoricalRequest) :
    request.requestLine.out.length =
      96 + encodedLength request.dataset + encodedLength request.symbols + encodedLength request.schema +
        (decimal request.start.toNat).length + (decimal request.stop.toNat).length := by
  have hkeys : encodedLength (ascii "dataset") = 7 ∧ encodedLength (ascii "symbols") = 7 ∧
      encodedLength (ascii "schema") = 6 ∧ encodedLength (ascii "start") = 5 ∧ encodedLength (ascii "end") = 3 ∧
      encodedLength (ascii "encoding") = 8 ∧ encodedLength (ascii "dbn") = 3 ∧
      encodedLength (ascii "compression") = 11 ∧ encodedLength (ascii "zstd") = 4 := by decide
  have hstart : ((({} : HttpRequestBuilder).method (ascii "GET")).path (ascii "/v0/timeseries.get_range")).out.length =
      28 := by decide
  simp only [requestLine, length_queryParam, length_queryParamNumber, hkeys, hstart]
  omega

/-- **The length of the text.** -/
theorem length_requestText (request : HistoricalRequest) (apiKey : List Byte) :
    (request.requestText apiKey).length = request.requestLength apiKey := by
  have hkeys : encodedLength (ascii "stype_in") = 8 ∧ encodedLength (ascii "stype_out") = 9 := by decide
  obtain ⟨hheaders, hbody⟩ := optionalParam_flags request.requestLine (ascii "stype_in") request.stypeIn
  obtain ⟨hheaders', hbody'⟩ :=
    optionalParam_flags (optionalParam (ascii "stype_in") request.stypeIn request.requestLine)
      (ascii "stype_out") request.stypeOut
  simp only [requestText, requestLength]
  rw [length_headers _ _ (hheaders'.trans (hheaders.trans rfl)) (hbody'.trans (hbody.trans rfl)), length_optionalParam,
    length_optionalParam, length_requestLine, hkeys.1, hkeys.2]
  omega

/-- **Nothing is written behind the segment exactly where the request fits in it.** -/
theorem sendRequest_iff (request : HistoricalRequest) (apiKey : List Byte) :
    (request.sendRequest apiKey).isSome ↔ request.requestLength apiKey ≤ 65536 := by
  rw [sendRequest_isSome, length_requestText]
  exact Iff.rfl

theorem length_le_requestLength (request : HistoricalRequest) (apiKey : List Byte) :
    request.symbols.length ≤ request.requestLength apiKey := by
  rw [requestLength, encodedLength, encodedLength, encodedLength]
  omega

/-- A list of symbols longer than a segment. -/
def longList : HistoricalRequest where
  dataset := ascii "GLBX.MDP3"
  symbols := List.replicate 65537 65
  schema := ascii "trades"
  start := 1735689600000000000
  stop := 1735776000000000000

/-- **It is written behind the end of the segment.** -/
theorem not_sendRequest_longList : (longList.sendRequest (ascii "db-key")).isSome = false := by
  rw [Bool.eq_false_iff]
  intro h
  have hlength := length_le_requestLength longList (ascii "db-key")
  have hsymbols : longList.symbols.length = 65537 := List.length_replicate
  rw [← length_requestText] at hlength
  have hfits := (sendRequest_isSome longList (ascii "db-key")).mp h
  rw [Segment.kSize] at hfits
  omega

end HistoricalRequest

end DbnPipe.Http
