import DbnPipe.Http.HttpRequestBuilder

/-!
# ApiRequest

`ApiRequest::BuildHttpRequest` of `src/api_protocol.hpp`: a request to a JSON API as **an HTTP/1.1 message**.

* `ApiRequest`, `buildHttpRequest` — the request, and its text;
* `message` — the message that the text is meant to be, with `buildHttpRequest_eq`: **the text is its rendering**;
* `RoundTrip` — what a server that parses the text reads;
* `request_roundtrip` — it reads the request, whatever the names and values of the parameters are.
-/

namespace DbnPipe.Api

open DbnPipe.Live (ascii decimal)
open DbnPipe.Http
open DbnPipe.PercentEncoding (pairs parseQuery parsePairs decodeForm Separates)

/-- `ApiRequest`, without the place to connect to. -/
structure ApiRequest where
  method : List Byte := ascii "GET"
  path : List Byte
  pathParams : Params := []
  queryParams : Params := []
  formParams : Params := []
deriving DecidableEq, Repr

namespace ApiRequest

/-- A form goes with a `POST` only. -/
def SendsForm (r : ApiRequest) : Prop := r.method = ascii "POST" ∧ r.formParams ≠ []

instance (r : ApiRequest) : Decidable r.SendsForm := inferInstanceAs (Decidable (_ ∧ _))

/-- `BuildHttpRequest`. -/
def buildHttpRequest (r : ApiRequest) (hostHeader apiKey : List Byte) : List Byte :=
  let builder := ({} : HttpRequestBuilder).method r.method
  let builder :=
    if r.pathParams.isEmpty then builder.path r.path else builder.pathTemplate r.path r.pathParams
  let builder := r.queryParams.foldl (fun b p => b.queryParam p.1 p.2) builder
  let builder := (builder.host hostHeader).basicAuth apiKey
  let builder := builder.header (ascii "Accept") (ascii "application/json")
  let builder := builder.header (ascii "Connection") (ascii "close")
  (if r.SendsForm then builder.formBody r.formParams else builder.finish).out

/-! ### The message -/

/-- The query of a target. -/
def query (params : Params) : List Byte := if params = [] then [] else 63 :: pairs accepted params

/-- The fields of every request. -/
def commonFields (hostHeader apiKey : List Byte) : List HttpMessage.Field :=
  [(ascii "Host", hostHeader), (ascii "Authorization", ascii "Basic " ++ Base64.encode (apiKey ++ [58])),
    (ascii "Accept", ascii "application/json"), (ascii "Connection", ascii "close")]

/-- The fields of a form. -/
def formFields (body : List Byte) : List HttpMessage.Field :=
  [(ascii "Content-Type", ascii "application/x-www-form-urlencoded"), (ascii "Content-Length", decimal body.length)]

/-- **The message of a request.** -/
def message (r : ApiRequest) (hostHeader apiKey : List Byte) : HttpMessage.Message where
  method := r.method
  target := r.path ++ query r.queryParams
  fields := commonFields hostHeader apiKey ++ if r.SendsForm then formFields (pairs accepted r.formParams) else []
  body := if r.SendsForm then pairs accepted r.formParams else []

theorem queryParam_out (b : HttpRequestBuilder) (key value : List Byte) :
    b.queryParam key value =
      { b with
        out := b.out ++ (if b.firstParam then 63 else 38) :: (urlEncode key ++ 61 :: urlEncode value)
        firstParam := false } := by
  simp only [HttpRequestBuilder.queryParam, HttpRequestBuilder.write, List.append_assoc, List.cons_append,
    List.nil_append]

/-- Parameters behind the first. -/
theorem queryParams_behind (params : Params) {b : HttpRequestBuilder} (hb : b.firstParam = false) :
    params.foldl (fun b p => b.queryParam p.1 p.2) b =
      { b with out := b.out ++ params.flatMap fun p => 38 :: (urlEncode p.1 ++ 61 :: urlEncode p.2) } := by
  induction params generalizing b with
  | nil => rw [List.foldl_nil, List.flatMap_nil, List.append_nil]
  | cons p params ih =>
    rw [List.foldl_cons, queryParam_out, ih rfl, List.flatMap_cons, hb]
    simp only [Bool.false_eq_true, if_false, List.append_assoc]

/-- **All parameters**, from the start. -/
theorem queryParams_out (params : Params) {b : HttpRequestBuilder} (hb : b.firstParam = true) :
    (params.foldl (fun b p => b.queryParam p.1 p.2) b).out = b.out ++ query params ∧
      (params.foldl (fun b p => b.queryParam p.1 p.2) b).headersStarted = b.headersStarted ∧
      (params.foldl (fun b p => b.queryParam p.1 p.2) b).bodyWritten = b.bodyWritten := by
  cases params with
  | nil => exact ⟨(List.append_nil _).symm, rfl, rfl⟩
  | cons p params =>
    rw [List.foldl_cons, queryParam_out, queryParams_behind params rfl, query, if_neg (List.cons_ne_nil p params),
      PercentEncoding.pairs_cons, hb]
    refine ⟨?_, rfl, rfl⟩
    simp only [if_true, List.append_assoc, List.cons_append]
    rfl

/-- The loop of `FormBody`, behind the first parameter. -/
theorem formParams_behind (params : Params) (body : List Byte) :
    (params.foldl HttpRequestBuilder.addFormParam (body, false)).1 =
      body ++ params.flatMap fun p => 38 :: (urlEncode p.1 ++ 61 :: urlEncode p.2) := by
  induction params generalizing body with
  | nil => rw [List.foldl_nil, List.flatMap_nil, List.append_nil]
  | cons p params ih =>
    rw [List.foldl_cons, HttpRequestBuilder.addFormParam, ih, List.flatMap_cons]
    simp only [Bool.false_eq_true, if_false, List.append_assoc, List.cons_append, List.nil_append]

/-- **The body** of a form. -/
theorem formBody_eq (params : Params) :
    (params.foldl HttpRequestBuilder.addFormParam ([], true)).1 = pairs accepted params := by
  cases params with
  | nil => rfl
  | cons p params =>
    rw [List.foldl_cons, HttpRequestBuilder.addFormParam, formParams_behind, PercentEncoding.pairs_cons]
    simp only [if_true, List.append_assoc, List.cons_append, List.nil_append]
    rfl

/-- A field is written as such, in headers that have started. -/
theorem header_eq {b : HttpRequestBuilder} (hb : b.headersStarted = true) (name value : List Byte) :
    b.header name value = { b with out := b.out ++ HttpMessage.renderField (name, value) } := by
  have hcolon : ascii ": " = [58, 32] := rfl
  simp only [HttpRequestBuilder.header, HttpRequestBuilder.ensureHeadersStarted, hb, if_true, HttpRequestBuilder.write,
    HttpMessage.renderField, hcolon, crlf, List.append_assoc, List.cons_append, List.nil_append]

/-- `Host` starts the headers. -/
theorem host_eq {b : HttpRequestBuilder} (hb : b.headersStarted = false) (hostHeader : List Byte) :
    b.host hostHeader =
      { b with
        out := b.out ++ 32 :: HttpMessage.version ++ [13, 10] ++ HttpMessage.renderField (ascii "Host", hostHeader)
        headersStarted := true } := by
  have hversion : ascii " HTTP/1.1" = 32 :: HttpMessage.version := rfl
  have hname : ascii "Host: " = ascii "Host" ++ [58, 32] := rfl
  simp only [HttpRequestBuilder.host, HttpRequestBuilder.ensureHeadersStarted, hb, Bool.false_eq_true, if_false,
    HttpRequestBuilder.write, HttpMessage.renderField, hversion, hname, crlf, List.append_assoc, List.cons_append,
    List.nil_append]

theorem basicAuth_eq {b : HttpRequestBuilder} (hb : b.headersStarted = true) (apiKey : List Byte) :
    b.basicAuth apiKey =
      { b with
        out := b.out ++
          HttpMessage.renderField (ascii "Authorization", ascii "Basic " ++ Base64.encode (apiKey ++ [58])) } := by
  have hname : ascii "Authorization: Basic " = ascii "Authorization" ++ 58 :: 32 :: ascii "Basic " := rfl
  simp only [HttpRequestBuilder.basicAuth, HttpRequestBuilder.ensureHeadersStarted, hb, if_true, base64Encode_eq,
    HttpRequestBuilder.write, HttpMessage.renderField, hname, crlf, List.append_assoc, List.cons_append]

theorem formBody_out {b : HttpRequestBuilder} (hb : b.headersStarted = true) (params : Params) :
    (b.formBody params).out =
      b.out ++ (formFields (pairs accepted params)).flatMap HttpMessage.renderField ++ [13, 10] ++
        pairs accepted params := by
  have htype : ascii "Content-Type: application/x-www-form-urlencoded" =
      ascii "Content-Type" ++ 58 :: 32 :: ascii "application/x-www-form-urlencoded" := rfl
  have hlength : ascii "Content-Length: " = ascii "Content-Length" ++ [58, 32] := rfl
  simp only [HttpRequestBuilder.formBody, formBody_eq, HttpRequestBuilder.ensureHeadersStarted, hb, if_true,
    HttpRequestBuilder.write, formFields, List.flatMap_cons, List.flatMap_nil, HttpMessage.renderField, htype, hlength,
    crlf, List.append_assoc, List.cons_append, List.nil_append, List.append_nil]

theorem finish_out {b : HttpRequestBuilder} (hb : b.headersStarted = true) (hbody : b.bodyWritten = false) :
    b.finish.out = b.out ++ [13, 10] := by
  simp only [HttpRequestBuilder.finish, HttpRequestBuilder.ensureHeadersStarted, hb, if_true, hbody,
    Bool.false_eq_true, if_false, HttpRequestBuilder.write, crlf]

/-- **The text is the rendering of the message.** -/
theorem buildHttpRequest_eq {r : ApiRequest} (hpath : r.pathParams = []) (hostHeader apiKey : List Byte) :
    r.buildHttpRequest hostHeader apiKey = HttpMessage.render (r.message hostHeader apiKey) := by
  have hstart : ((({} : HttpRequestBuilder).method r.method).path r.path).firstParam = true := rfl
  obtain ⟨hout, hheaders, hbody⟩ := queryParams_out r.queryParams hstart
  rw [buildHttpRequest, hpath, List.isEmpty_nil, if_pos rfl]
  generalize r.queryParams.foldl (fun (b : HttpRequestBuilder) p => b.queryParam p.1 p.2) _ = b at *
  have hline : b.out = r.method ++ 32 :: (r.path ++ query r.queryParams) := by
    rw [hout]
    exact List.append_assoc r.method (32 :: r.path) _
  rw [host_eq hheaders, basicAuth_eq rfl, header_eq rfl, header_eq rfl, HttpMessage.render, message]
  split
  · rw [formBody_out rfl]
    simp only [hline, commonFields, List.flatMap_cons, List.append_assoc, List.cons_append, List.nil_append]
  · rw [finish_out rfl (by exact hbody)]
    simp only [hline, commonFields, List.flatMap_cons, List.flatMap_nil, List.append_assoc, List.cons_append,
      List.nil_append, List.append_nil]

/-! ### The message is well formed -/

/-- No space and no line end. -/
def Plain (l : List Byte) : Prop := 32 ∉ l ∧ 13 ∉ l ∧ 10 ∉ l

theorem separates_space : Separates accepted 32 := ⟨by decide, by decide, by decide⟩

theorem separates_cr : Separates accepted 13 := ⟨by decide, by decide, by decide⟩

theorem separates_amp : Separates accepted 38 := ⟨by decide, by decide, by decide⟩

theorem separates_equals : Separates accepted 61 := ⟨by decide, by decide, by decide⟩

theorem separates_plus : Separates accepted 43 := ⟨by decide, by decide, by decide⟩

theorem not_mem_query {b : Byte} (h : Separates accepted b) (hquestion : b ≠ 63) (hamp : b ≠ 38) (hequals : b ≠ 61)
    (params : Params) : b ∉ query params := by
  rw [query]
  split
  · exact List.not_mem_nil
  · exact List.not_mem_cons_of_ne_of_not_mem hquestion (PercentEncoding.not_mem_pairs accepted h hamp hequals params)

theorem base64_ne (l : List Byte) (b : Byte) : Base64.encode (l ++ [b]) ≠ [] := by
  intro h
  have hround := Base64.decode_encode (l ++ [b])
  rw [h] at hround
  exact List.append_ne_nil_of_right_ne_nil l (List.cons_ne_nil b []) (Option.some.inj hround).symm

/-- A value without white space. -/
theorem last_not_white {l : List Byte} (hspace : 32 ∉ l) (htab : 9 ∉ l) :
    ∀ b ∈ l.getLast?, HttpMessage.isWhite b = false := by
  intro b hb
  have hmem : b ∈ l := List.mem_of_getLast? hb
  rw [HttpMessage.isWhite, Bool.or_eq_false_iff, decide_eq_false_iff_not, decide_eq_false_iff_not]
  exact ⟨fun h => hspace (h ▸ hmem), fun h => htab (h ▸ hmem)⟩

theorem first_not_white {l : List Byte} (hspace : 32 ∉ l) (htab : 9 ∉ l) :
    ∀ b ∈ l.head?, HttpMessage.isWhite b = false := by
  intro b hb
  have hmem : b ∈ l := List.mem_of_head? hb
  rw [HttpMessage.isWhite, Bool.or_eq_false_iff, decide_eq_false_iff_not, decide_eq_false_iff_not]
  exact ⟨fun h => hspace (h ▸ hmem), fun h => htab (h ▸ hmem)⟩

/-- The credentials as a field. -/
theorem wellFormed_credentials (apiKey : List Byte) :
    HttpMessage.Field.WellFormed (ascii "Authorization", ascii "Basic " ++ Base64.encode (apiKey ++ [58])) where
  nameNe := show ascii "Authorization" ≠ [] by decide
  colon := show 58 ∉ ascii "Authorization" by decide
  nameLine := show 13 ∉ ascii "Authorization" by decide
  valueLine := by
    intro h
    rcases List.mem_append.mp h with h | h
    · exact absurd h (by decide)
    · exact Base64.not_mem_encode (by decide) (by decide) _ h
  first b hb := by
    obtain rfl := Option.some.inj hb
    rfl
  last := by
    rw [List.getLast?_append_of_ne_nil _ (base64_ne apiKey 58)]
    exact last_not_white (Base64.not_mem_encode (by decide) (by decide) _)
      (Base64.not_mem_encode (by decide) (by decide) _)

/-- The length of a body as a field. -/
theorem wellFormed_length (n : ℕ) : HttpMessage.Field.WellFormed (ascii "Content-Length", decimal n) := by
  have hdigit : ∀ b : Byte, b.toNat < 48 → b ∉ decimal n := fun b hb hmem =>
    absurd (mem_decimal hmem).1 (Nat.not_le_of_lt hb)
  exact
    { nameNe := show ascii "Content-Length" ≠ [] by decide
      colon := show 58 ∉ ascii "Content-Length" by decide
      nameLine := show 13 ∉ ascii "Content-Length" by decide
      valueLine := hdigit 13 (by decide)
      first := first_not_white (hdigit 32 (by decide)) (hdigit 9 (by decide))
      last := last_not_white (hdigit 32 (by decide)) (hdigit 9 (by decide)) }

/-- A host without spaces and line ends, and without a tab at either end. -/
theorem wellFormed_host {hostHeader : List Byte} (hplain : Plain hostHeader) (hfirst : hostHeader.head? ≠ some 9)
    (hlast : hostHeader.getLast? ≠ some 9) : HttpMessage.Field.WellFormed (ascii "Host", hostHeader) where
  nameNe := show ascii "Host" ≠ [] by decide
  colon := show 58 ∉ ascii "Host" by decide
  nameLine := show 13 ∉ ascii "Host" by decide
  valueLine := hplain.2.1
  first b hb := by
    rw [HttpMessage.isWhite, Bool.or_eq_false_iff, decide_eq_false_iff_not, decide_eq_false_iff_not]
    exact ⟨fun h => hplain.1 (h ▸ List.mem_of_head? hb), fun h => hfirst (h ▸ hb)⟩
  last b hb := by
    rw [HttpMessage.isWhite, Bool.or_eq_false_iff, decide_eq_false_iff_not, decide_eq_false_iff_not]
    exact ⟨fun h => hplain.1 (h ▸ List.mem_of_getLast? hb), fun h => hlast (h ▸ hb)⟩

theorem wellFormed_message {r : ApiRequest} {hostHeader : List Byte} (apiKey : List Byte) (hmethod : Plain r.method)
    (hpath : Plain r.path) (hhost : HttpMessage.Field.WellFormed (ascii "Host", hostHeader)) :
    (r.message hostHeader apiKey).WellFormed where
  method := ⟨hmethod.1, hmethod.2.1⟩
  target := by
    refine ⟨fun h => ?_, fun h => ?_⟩
    · rcases List.mem_append.mp h with h | h
      · exact hpath.1 h
      · exact not_mem_query separates_space (by decide) (by decide) (by decide) _ h
    · rcases List.mem_append.mp h with h | h
      · exact hpath.2.1 h
      · exact not_mem_query separates_cr (by decide) (by decide) (by decide) _ h
  fields := by
    intro f hf
    rcases List.mem_append.mp hf with hf | hf
    · simp only [commonFields, List.mem_cons, List.not_mem_nil, or_false] at hf
      rcases hf with rfl | rfl | rfl | rfl
      · exact hhost
      · exact wellFormed_credentials apiKey
      · exact ⟨by decide, by decide, by decide, by decide, by decide +kernel, by decide +kernel⟩
      · exact ⟨by decide, by decide, by decide, by decide, by decide +kernel, by decide +kernel⟩
    · split at hf
      · rcases List.mem_pair.mp hf with rfl | rfl
        · exact ⟨by decide, by decide, by decide, by decide, by decide +kernel, by decide +kernel⟩
        · exact wellFormed_length _
      · exact absurd hf List.not_mem_nil
  body := by
    rw [message]
    split
    · exact .inr ⟨_, rfl, number_decimal _⟩
    · exact .inl ⟨rfl, rfl⟩

/-! ### The round trip -/

/-- **What a server reads**: the request line, the query, the host, the credentials, and the form if there is one;
nothing is behind the message. -/
def RoundTrip (r : ApiRequest) (hostHeader apiKey : List Byte) : Prop :=
  ∃ m, HttpMessage.parse (r.buildHttpRequest hostHeader apiKey) = some (m, []) ∧
    m.method = r.method ∧
    parseQuery m.target = (r.path, r.queryParams) ∧
    HttpMessage.field (ascii "Host") m.fields = some hostHeader ∧
    (∃ text, HttpMessage.field (ascii "Authorization") m.fields = some (ascii "Basic " ++ text) ∧
      Base64.decode text = some (apiKey ++ ascii ":")) ∧
    (r.SendsForm →
      (HttpMessage.field HttpMessage.contentLength m.fields).bind HttpMessage.number = some m.body.length ∧
        parsePairs decodeForm m.body = r.formParams) ∧
    (¬r.SendsForm → HttpMessage.field HttpMessage.contentLength m.fields = none ∧ m.body = [])

theorem parseQuery_target {path : List Byte} (hpath : 63 ∉ path) (params : Params) :
    parseQuery (path ++ query params) = (path, params) := by
  by_cases hnil : params = []
  · rw [query, if_pos hnil, List.append_nil, parseQuery, Delimited.breakAt_of_not_mem hpath, hnil]
  · rw [query, if_neg hnil, parseQuery, Delimited.breakAt_append hpath]
    exact congrArg (Prod.mk path)
      (PercentEncoding.parsePairs_pairs accepted separates_amp separates_equals
        (PercentEncoding.decode_encode accepted (by decide)) hnil)

/-- **The round trip of a request**, for arbitrary parameters. -/
theorem request_roundtrip (r : ApiRequest) (hostHeader apiKey : List Byte) (hparams : r.pathParams = [])
    (hmethod : Plain r.method) (hpath : Plain r.path) (hquestion : 63 ∉ r.path) (hhost : Plain hostHeader)
    (hfirst : hostHeader.head? ≠ some 9) (hlast : hostHeader.getLast? ≠ some 9) : RoundTrip r hostHeader apiKey := by
  have hwf := wellFormed_message apiKey hmethod hpath (wellFormed_host hhost hfirst hlast)
  refine ⟨r.message hostHeader apiKey, ?_, rfl, parseQuery_target hquestion r.queryParams, rfl,
    ⟨_, rfl, Base64.decode_encode _⟩, fun hform => ?_, fun hform => ?_⟩
  · rw [buildHttpRequest_eq hparams]
    exact HttpMessage.parse_render hwf
  · rw [message, if_pos hform, if_pos hform]
    exact ⟨number_decimal _, PercentEncoding.parsePairs_pairs accepted separates_amp separates_equals
      (PercentEncoding.decodeForm_encode accepted (by decide) separates_plus) hform.2⟩
  · rw [message, if_neg hform, if_neg hform]
    exact ⟨rfl, rfl⟩

/-- A search with a value that holds separators, and a form. -/
def login : ApiRequest where
  method := ascii "POST"
  path := ascii "/login"
  queryParams := [(ascii "q", ascii "a&b=c?")]
  formParams := [(ascii "user name", ascii "x+y")]

theorem request_roundtrip_login : RoundTrip login (ascii "example.com") (ascii "db-key") :=
  request_roundtrip login (ascii "example.com") (ascii "db-key") rfl ⟨by decide, by decide, by decide⟩
    ⟨by decide, by decide, by decide⟩ (by decide) ⟨by decide, by decide, by decide⟩ (by decide) (by decide)

/-- **A tab at the end of the host is white space around a value**, and is not read. -/
theorem tab_not_read :
    ¬∀ (r : ApiRequest) (hostHeader apiKey : List Byte), r.pathParams = [] → Plain r.method → Plain r.path → 63 ∉ r.path →
      Plain hostHeader → RoundTrip r hostHeader apiKey := by
  intro h
  have hplain : Plain (ascii "/") := ⟨by decide, by decide, by decide⟩
  obtain ⟨m, hparse, -, -, hhost, -⟩ := h { path := ascii "/" } [9] [] rfl ⟨by decide, by decide, by decide⟩ hplain
    (by decide) ⟨by decide, by decide, by decide⟩
  have hread : (HttpMessage.parse (buildHttpRequest { path := ascii "/" } [9] [])).map
      (fun p => HttpMessage.field (ascii "Host") p.1.fields) = some (some []) := by decide +kernel
  rw [hparse, Option.map_some, hhost] at hread
  exact absurd hread (by decide)

end ApiRequest

end DbnPipe.Api
