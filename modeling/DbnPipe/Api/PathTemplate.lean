import DbnPipe.Api.ApiRequest

/-!
# Path templates

`HttpRequestBuilder::PathTemplate` puts the values of parameters into a path, and `QueryParam` goes on from there.

* `Piece`, `Template` — a path template: literal text and placeholders, **a list for each segment**;
* `Template.segmentTexts` — the texts that the segments stand for, with their values put in;
* `requestLineText` — what the builder writes, with `requestLineText_eq`;
* `ReadsAs` — **what a server reads**: method, target and version, the segments of the path, and the query;
* `Clean` — a text that can stand in a path as it is;
* `readsAs_iff` — a server reads the request **exactly where every segment is clean**: nothing encodes the values.
-/

namespace DbnPipe.Api

open DbnPipe.Live (ascii cut cut_of_not_mem)
open DbnPipe.Http
open DbnPipe.PercentEncoding (parseQuery decode)
open Delimited

/-! ### Templates -/

/-- A part of a template: literal text, or a placeholder. -/
inductive Piece where
  | literal (text : List Byte)
  | placeholder (name : List Byte)
deriving DecidableEq, Repr

namespace Piece

/-- A literal has no brace, a name no closing one, and neither has a slash. -/
def WellFormed : Piece → Prop
  | literal text => 123 ∉ text ∧ 125 ∉ text ∧ 47 ∉ text
  | placeholder name => 125 ∉ name ∧ 47 ∉ name

instance : DecidablePred WellFormed
  | literal _ => inferInstanceAs (Decidable (_ ∧ _))
  | placeholder _ => inferInstanceAs (Decidable (_ ∧ _))

/-- How a piece is written in a template. -/
def render : Piece → List Byte
  | literal text => text
  | placeholder name => 123 :: name ++ [125]

/-- The loop of the builder finds the end of the piece. -/
def Scans : Piece → Prop
  | literal text => 123 ∉ text
  | placeholder name => 125 ∉ name

theorem WellFormed.scans {p : Piece} (h : p.WellFormed) : p.Scans := by
  cases p with
  | literal text => exact h.1
  | placeholder name => exact h.1

/-- What a piece stands for; a placeholder without a parameter stands for the empty text. -/
def value (params : Params) : Piece → List Byte
  | literal text => text
  | placeholder name => HttpRequestBuilder.substitute params name

end Piece

/-- The segments of a path template; there is one at least. -/
structure Template where
  segments : List (List Piece)
  nonempty : segments ≠ []
  wellFormed : ∀ s ∈ segments, ∀ p ∈ s, p.WellFormed

namespace Template

/-- The text of a template. -/
def text (t : Template) : List Byte := [47].intercalate (t.segments.map fun s => s.flatMap Piece.render)

/-- The segments with their values put in. -/
def segmentTexts (t : Template) (params : Params) : List (List Byte) :=
  t.segments.map fun s => s.flatMap (Piece.value params)

end Template

/-! ### What the builder writes -/

theorem cut_eq_breakAt (c : Byte) (l : List Byte) : cut c l = breakAt c l := by
  induction l with
  | nil => rfl
  | cons b l ih => rw [cut, breakAt, ih]

/-- The loop puts the values in: behind a literal text come pieces. -/
theorem expand_pieces (params : Params) (pieces : List Piece) (hpieces : ∀ p ∈ pieces, p.Scans)
    {literal : List Byte} (hliteral : 123 ∉ literal) {fuel : ℕ}
    (hfuel : (literal ++ pieces.flatMap Piece.render).length ≤ fuel) :
    HttpRequestBuilder.expand params fuel (literal ++ pieces.flatMap Piece.render) =
      literal ++ pieces.flatMap (Piece.value params) := by
  induction pieces generalizing literal fuel with
  | nil =>
    rw [List.flatMap_nil, List.append_nil, List.flatMap_nil, List.append_nil]
    cases fuel with
    | zero => rfl
    | succ fuel => rw [HttpRequestBuilder.expand, cut_eq_breakAt, breakAt_of_not_mem hliteral]
  | cons p pieces ih =>
    have hrest := fun q hq => hpieces q (List.mem_cons_of_mem p hq)
    have hp := hpieces p List.mem_cons_self
    rw [List.flatMap_cons] at hfuel
    rw [List.flatMap_cons, List.flatMap_cons]
    cases p with
    | literal text =>
      have hboth : 123 ∉ literal ++ text := by
        rw [List.mem_append, not_or]
        exact ⟨hliteral, hp⟩
      simp only [Piece.render, Piece.value] at hfuel ⊢
      rw [← List.append_assoc] at hfuel
      rw [← List.append_assoc, ← List.append_assoc, ih hrest hboth hfuel]
    | placeholder name =>
      have hfirst : literal ++ ((123 :: name ++ [125]) ++ pieces.flatMap Piece.render) =
          literal ++ 123 :: (name ++ 125 :: pieces.flatMap Piece.render) := by
        simp only [List.append_assoc, List.cons_append, List.nil_append]
      simp only [Piece.render, Piece.value] at hfuel ⊢
      rw [hfirst] at hfuel ⊢
      simp only [List.length_append, List.length_cons] at hfuel
      obtain ⟨fuel, rfl⟩ : ∃ k, fuel = k + 1 := ⟨fuel - 1, by omega⟩
      have hgo : HttpRequestBuilder.expand params fuel ([] ++ pieces.flatMap Piece.render) =
          [] ++ pieces.flatMap (Piece.value params) :=
        ih hrest List.not_mem_nil (by rw [List.nil_append]; omega)
      rw [List.nil_append, List.nil_append] at hgo
      rw [HttpRequestBuilder.expand, cut_of_not_mem hliteral]
      dsimp only
      rw [cut_of_not_mem hp]
      dsimp only
      rw [hgo, List.append_assoc]

/-- Joined segments as one list of pieces, with a slash between them. -/
theorem intercalate_pieces (f : Piece → List Byte) (hslash : f (.literal [47]) = [47]) (segments : List (List Piece)) :
    [47].intercalate (segments.map fun s => s.flatMap f) =
      ([Piece.literal [47]].intercalate segments).flatMap f := by
  induction segments with
  | nil => rfl
  | cons s segments ih =>
    cases segments with
    | nil => simp only [List.map_cons, List.map_nil, List.intercalate_singleton]
    | cons s' segments =>
      rw [List.map_cons, List.map_cons, List.intercalate_cons_cons, List.intercalate_cons_cons, List.flatMap_append,
        List.flatMap_append, ← ih, List.flatMap_singleton, hslash]
      rfl

/-- **The loop puts the values into a template.** -/
theorem expand_text (t : Template) (params : Params) :
    HttpRequestBuilder.expand params t.text.length t.text = [47].intercalate (t.segmentTexts params) := by
  have hscans : ∀ p ∈ [Piece.literal [47]].intercalate t.segments, p.Scans := by
    intro p hp
    rcases mem_intercalate hp with rfl | ⟨s, hs, hps⟩
    · show (123 : Byte) ∉ [47]
      decide
    · exact (t.wellFormed s hs p hps).scans
  have htext : t.text = [] ++ ([Piece.literal [47]].intercalate t.segments).flatMap Piece.render :=
    intercalate_pieces Piece.render rfl t.segments
  have hvalues : [47].intercalate (t.segmentTexts params) =
      [] ++ ([Piece.literal [47]].intercalate t.segments).flatMap (Piece.value params) :=
    intercalate_pieces (Piece.value params) rfl t.segments
  rw [hvalues, htext]
  exact expand_pieces params _ hscans List.not_mem_nil (Nat.le_refl _)

/-- What `Method`, `PathTemplate` and calls of `QueryParam` write, with the end of the line. -/
def requestLineText (method template : List Byte) (pathParams queryParams : Params) : List Byte :=
  let builder := (({} : HttpRequestBuilder).method method).pathTemplate template pathParams
  (queryParams.foldl (fun b p => b.queryParam p.1 p.2) builder).ensureHeadersStarted.out

theorem requestLineText_eq (method : List Byte) (t : Template) (pathParams queryParams : Params) :
    requestLineText method t.text pathParams queryParams =
      method ++ 32 :: ([47].intercalate (t.segmentTexts pathParams) ++ ApiRequest.query queryParams) ++
        32 :: HttpMessage.version ++ [13, 10] := by
  have hstart : ((({} : HttpRequestBuilder).method method).pathTemplate t.text pathParams).firstParam = true := rfl
  obtain ⟨hout, hheaders, -⟩ := ApiRequest.queryParams_out queryParams hstart
  have hfalse : ((({} : HttpRequestBuilder).method method).pathTemplate t.text pathParams).headersStarted = false := rfl
  have hversion : ascii " HTTP/1.1" = 32 :: HttpMessage.version := rfl
  have hpath : ((({} : HttpRequestBuilder).method method).pathTemplate t.text pathParams).out =
      method ++ 32 :: [47].intercalate (t.segmentTexts pathParams) := by
    rw [HttpRequestBuilder.pathTemplate, expand_text]
    simp only [HttpRequestBuilder.write, HttpRequestBuilder.method, List.nil_append, List.append_assoc,
      List.cons_append]
  simp only [requestLineText, HttpRequestBuilder.ensureHeadersStarted]
  rw [hheaders, hfalse, if_neg Bool.false_ne_true]
  simp only [HttpRequestBuilder.write, hout, hpath, hversion, crlf, List.append_assoc, List.cons_append]

/-! ### What a server reads -/

/-- The first line, cut at its spaces, is a method, a target and the version; the path of the target, cut at its
slashes and decoded, is the segments, and its query is the parameters. -/
def ReadsAs (method : List Byte) (segments : List (List Byte)) (queryParams : Params) (text : List Byte) : Prop :=
  ∃ line rest target, breakAtPair 13 10 text = some (line, rest) ∧
    line.splitOn 32 = [method, target, HttpMessage.version] ∧
    ((parseQuery target).1.splitOn 47).map decode = segments ∧ (parseQuery target).2 = queryParams

/-- A text that can stand in a path as it is: no separator, no line end, and no escape. -/
structure Clean (l : List Byte) : Prop where
  space : 32 ∉ l
  question : 63 ∉ l
  slash : 47 ∉ l
  lineEnd : breakAtPair 13 10 l = none
  escape : decode l = l

instance (l : List Byte) : Decidable (Clean l) :=
  decidable_of_iff (32 ∉ l ∧ 63 ∉ l ∧ 47 ∉ l ∧ breakAtPair 13 10 l = none ∧ decode l = l)
    ⟨fun ⟨h1, h2, h3, h4, h5⟩ => ⟨h1, h2, h3, h4, h5⟩, fun ⟨h1, h2, h3, h4, h5⟩ => ⟨h1, h2, h3, h4, h5⟩⟩

/-- The target of a request. -/
def target (segments : List (List Byte)) (queryParams : Params) : List Byte :=
  [47].intercalate segments ++ ApiRequest.query queryParams

theorem not_mem_query_space (queryParams : Params) : 32 ∉ ApiRequest.query queryParams :=
  ApiRequest.not_mem_query ApiRequest.separates_space (by decide) (by decide) (by decide) queryParams

/-- The line of a request is cut at its two spaces. -/
theorem splitOn_line {method path : List Byte} (hmethod : 32 ∉ method) (hpath : 32 ∉ path) :
    (method ++ 32 :: path ++ 32 :: HttpMessage.version).splitOn 32 = [method, path, HttpMessage.version] := by
  have hjoin : method ++ 32 :: path ++ 32 :: HttpMessage.version =
      [32].intercalate [method, path, HttpMessage.version] := by simp
  have hversion : (32 : Byte) ∉ HttpMessage.version := by decide
  rw [hjoin, List.splitOn_intercalate 32 ?_ (List.cons_ne_nil _ _)]
  intro l hl
  simp only [List.mem_cons, List.not_mem_nil, or_false] at hl
  rcases hl with rfl | rfl | rfl
  · exact hmethod
  · exact hpath
  · exact hversion

/-- Clean segments make a path without spaces, question marks and line ends. -/
theorem clean_path {segments : List (List Byte)} (h : ∀ t ∈ segments, Clean t) :
    32 ∉ [47].intercalate segments ∧ 63 ∉ [47].intercalate segments ∧
      breakAtPair 13 10 ([47].intercalate segments) = none := by
  refine ⟨fun hmem => ?_, fun hmem => ?_, breakAtPair_intercalate (by decide) (by decide) fun t ht => (h t ht).lineEnd⟩
  · rcases mem_intercalate hmem with heq | ⟨t, ht, hb⟩
    · exact absurd heq (by decide)
    · exact (h t ht).space hb
  · rcases mem_intercalate hmem with heq | ⟨t, ht, hb⟩
    · exact absurd heq (by decide)
    · exact (h t ht).question hb

section reading

variable {method : List Byte} (hspace : 32 ∉ method) {segments : List (List Byte)} (hne : segments ≠ [])
  (queryParams : Params) (rest : List Byte)

include hspace hne

/-- **Clean segments are read.** -/
theorem readsAs_of_clean (hline : 13 ∉ method) (h : ∀ t ∈ segments, Clean t) :
    ReadsAs method segments queryParams
      (method ++ 32 :: target segments queryParams ++ 32 :: HttpMessage.version ++ 13 :: 10 :: rest) := by
  obtain ⟨hpathSpace, hquestion, hpathLine⟩ := clean_path h
  have hquerySpace := not_mem_query_space queryParams
  have hqueryLine : 13 ∉ ApiRequest.query queryParams :=
    ApiRequest.not_mem_query ApiRequest.separates_cr (by decide) (by decide) (by decide) queryParams
  have hqueryLine' : 10 ∉ ApiRequest.query queryParams :=
    ApiRequest.not_mem_query ⟨by decide, by decide, by decide⟩ (by decide) (by decide) (by decide) queryParams
  have htarget : 32 ∉ target segments queryParams := by
    rw [target, List.mem_append, not_or]
    exact ⟨hpathSpace, hquerySpace⟩
  have htargetLine : breakAtPair 13 10 (target segments queryParams) = none :=
    breakAtPair_append_eq_none hpathLine (breakAtPair_of_not_mem hqueryLine) fun hhead =>
      hqueryLine' (List.mem_of_head? hhead)
  have hfull : breakAtPair 13 10 (method ++ 32 :: target segments queryParams ++ 32 :: HttpMessage.version) = none := by
    have hend : (13 : Byte) ∉ 32 :: HttpMessage.version := by decide
    have hmiddle : breakAtPair 13 10 (32 :: target segments queryParams) = none := by
      rw [breakAtPair, if_neg fun hpair => absurd hpair.1 (by decide), htargetLine]
      rfl
    exact breakAtPair_append_eq_none (breakAtPair_append_eq_none (breakAtPair_of_not_mem hline) hmiddle (by simp))
      (breakAtPair_of_not_mem hend) (by simp)
  refine ⟨_, rest, target segments queryParams, ?_, splitOn_line hspace htarget, ?_, ?_⟩
  · rw [breakAtPair_append_of_none hfull (by simp)]
    simp [breakAtPair]
  · rw [target, ApiRequest.parseQuery_target hquestion, List.splitOn_intercalate 47 (fun t ht => (h t ht).slash) hne]
    exact (List.map_congr_left fun t ht => (h t ht).escape).trans (List.map_id _)
  · rw [target, ApiRequest.parseQuery_target hquestion]

omit hspace in
/-- **What is read as the segments is clean.**  The path that is read is no longer than the one written, and its
segments no shorter: so it is the whole path, and nothing was decoded. -/
theorem clean_of_readsAs
    (h : ReadsAs method segments queryParams
      (method ++ 32 :: target segments queryParams ++ 32 :: HttpMessage.version ++ 13 :: 10 :: rest)) :
    ∀ t ∈ segments, Clean t := by
  obtain ⟨line, rest', readTarget, hbreak, hsplit, hpath, -⟩ := h
  obtain ⟨htext, hlineEnd⟩ := breakAtPair_eq_some hbreak
  have hline : line = method ++ 32 :: readTarget ++ 32 :: HttpMessage.version := by
    have hjoin : [32].intercalate (line.splitOn 32) = line := List.intercalate_splitOn 32
    rw [hsplit] at hjoin
    rw [← hjoin]
    simp
  have htargetSpace : 32 ∉ readTarget := not_mem_of_mem_splitOn (l := line) (by rw [hsplit]; simp)
  -- both texts go on behind the method
  have hsame : readTarget ++ (32 :: HttpMessage.version ++ 13 :: 10 :: rest') =
      [47].intercalate segments ++ (ApiRequest.query queryParams ++ 32 :: HttpMessage.version ++ 13 :: 10 :: rest) := by
    rw [hline, target] at htext
    simp only [List.append_assoc, List.cons_append, List.append_cancel_left_eq, List.cons.injEq, true_and] at htext ⊢
    exact htext.symm
  obtain ⟨⟨z, hz⟩, hquestion⟩ := PercentEncoding.parseQuery_path readTarget
  generalize (parseQuery readTarget).1 = path at hz hpath hquestion
  have hpathSpace : 32 ∉ path := fun hmem => htargetSpace (hz ▸ List.mem_append_left z hmem)
  have hlengths : ([47].intercalate segments).length ≤ path.length := by
    have hwritten := length_intercalate 47 hne
    have hread := length_intercalate 47 (List.splitOn_ne_nil 47 path)
    rw [List.intercalate_splitOn] at hread
    have hcount := congrArg List.length hpath
    rw [List.length_map] at hcount
    have hdecoded := PercentEncoding.length_map_decode_le (path.splitOn 47)
    rw [hpath] at hdecoded
    omega
  have hwhole : path = [47].intercalate segments := by
    rw [hz, List.append_assoc] at hsame
    obtain ⟨w, hw⟩ := List.prefix_of_prefix_length_le ⟨_, hsame.symm⟩ ⟨_, rfl⟩ hlengths
    cases w with
    | nil => rw [← hw, List.append_nil]
    | cons c w =>
      -- behind the path stands a question mark or a space, and what is read has neither
      rw [← hw, List.append_assoc, List.append_cancel_left_eq, List.cons_append] at hsame
      have hc : c ∈ path := hw ▸ List.mem_append_right _ List.mem_cons_self
      rw [ApiRequest.query] at hsame
      split at hsame
      · obtain ⟨rfl, -⟩ := List.cons.inj hsame
        exact absurd hc hpathSpace
      · obtain ⟨rfl, -⟩ := List.cons.inj hsame
        exact absurd hc hquestion
  subst hwhole
  have hself : ([47].intercalate segments).splitOn 47 = segments := by
    have hlengths := length_intercalate 47 hne
    have hread := length_intercalate 47 (List.splitOn_ne_nil 47 ([47].intercalate segments))
    rw [List.intercalate_splitOn] at hread
    have hcount := congrArg List.length hpath
    rw [List.length_map] at hcount
    have hdecoded : (([47].intercalate segments).splitOn 47).map decode = ([47].intercalate segments).splitOn 47 :=
      PercentEncoding.map_decode_eq_self (by rw [hpath]; omega)
    rw [← hdecoded]
    exact hpath
  rw [hself] at hpath
  intro t ht
  obtain ⟨before, behind, hpart⟩ := exists_intercalate (c := (47 : Byte)) ht
  have hmem : ∀ b ∈ t, b ∈ [47].intercalate segments := fun b hb =>
    hpart ▸ List.mem_append_right _ (List.mem_append_left _ hb)
  refine ⟨fun hb => hpathSpace (hmem _ hb), fun hb => hquestion (hmem _ hb),
    not_mem_of_mem_splitOn (l := [47].intercalate segments) (by rw [hself]; exact ht), ?_, ?_⟩
  · rw [hline, hz, hpart] at hlineEnd
    simp only [List.append_assoc, List.cons_append] at hlineEnd
    have hbehind := (breakAtPair_of_append (x := method ++ 32 :: before) (by simpa using hlineEnd)).2
    exact (breakAtPair_of_append hbehind).1
  · exact List.map_inj_left.mp (hpath.trans (List.map_id segments).symm) t ht

end reading

/-- **A server reads the request exactly where every segment of its path is clean**, with the values put in. -/
theorem readsAs_iff {method : List Byte} (hspace : 32 ∉ method) (hline : 13 ∉ method) (t : Template)
    (pathParams queryParams : Params) (rest : List Byte) :
    ReadsAs method (t.segmentTexts pathParams) queryParams
        (requestLineText method t.text pathParams queryParams ++ rest) ↔
      ∀ segment ∈ t.segmentTexts pathParams, Clean segment := by
  have hne : t.segmentTexts pathParams ≠ [] := fun h => t.nonempty (List.map_eq_nil_iff.mp h)
  have htext : requestLineText method t.text pathParams queryParams ++ rest =
      method ++ 32 :: target (t.segmentTexts pathParams) queryParams ++ 32 :: HttpMessage.version ++
        13 :: 10 :: rest := by
    rw [requestLineText_eq, target, List.append_assoc _ [13, 10]]
    rfl
  rw [htext]
  constructor
  · exact clean_of_readsAs hne queryParams rest
  · exact readsAs_of_clean hspace hne queryParams rest hline

/-- `BuildHttpRequest` writes this request line, where there are parameters of the path. -/
theorem buildHttpRequest_requestLine (r : ApiRequest) (hparams : r.pathParams ≠ []) (hostHeader apiKey : List Byte) :
    ∃ rest, r.buildHttpRequest hostHeader apiKey =
      requestLineText r.method r.path r.pathParams r.queryParams ++ rest := by
  have hstart : ((({} : HttpRequestBuilder).method r.method).pathTemplate r.path r.pathParams).firstParam = true := rfl
  obtain ⟨-, hheaders, hbody⟩ := ApiRequest.queryParams_out r.queryParams hstart
  have hempty : r.pathParams.isEmpty = false := List.isEmpty_eq_false_iff.mpr hparams
  rw [ApiRequest.buildHttpRequest, hempty, if_neg Bool.false_ne_true, requestLineText]
  generalize r.queryParams.foldl (fun (b : HttpRequestBuilder) p => b.queryParam p.1 p.2) _ = b at *
  have hfalse : b.headersStarted = false := hheaders
  have hversion : ascii " HTTP/1.1" = 32 :: HttpMessage.version := rfl
  have hline : b.ensureHeadersStarted.out = b.out ++ 32 :: HttpMessage.version ++ [13, 10] := by
    rw [HttpRequestBuilder.ensureHeadersStarted, hfalse, if_neg Bool.false_ne_true]
    simp only [HttpRequestBuilder.write, hversion, crlf, List.append_assoc, List.cons_append]
  rw [hline, ApiRequest.host_eq hheaders, ApiRequest.basicAuth_eq rfl, ApiRequest.header_eq rfl,
    ApiRequest.header_eq rfl]
  split
  · rw [ApiRequest.formBody_out rfl]
    simp only [List.append_assoc]
    exact ⟨_, rfl⟩
  · rw [ApiRequest.finish_out rfl (by exact hbody)]
    simp only [List.append_assoc]
    exact ⟨_, rfl⟩

/-- `/v2/aggs/ticker/{ticker}`. -/
def tickerTemplate : Template where
  segments := [[], [.literal (ascii "v2")], [.literal (ascii "aggs")], [.literal (ascii "ticker")],
    [.placeholder (ascii "ticker")]]
  nonempty := List.cons_ne_nil _ _
  wellFormed := by decide

theorem readsAs_ticker :
    ReadsAs (ascii "GET") (tickerTemplate.segmentTexts [(ascii "ticker", ascii "AAPL")]) [(ascii "limit", ascii "10")]
      (requestLineText (ascii "GET") tickerTemplate.text [(ascii "ticker", ascii "AAPL")]
        [(ascii "limit", ascii "10")] ++ []) :=
  (readsAs_iff (by decide) (by decide) tickerTemplate [(ascii "ticker", ascii "AAPL")] [(ascii "limit", ascii "10")]
    []).mpr (by decide)

/-- **A value with a question mark ends the path**, and what is behind it is read as a parameter. -/
theorem not_readsAs_question :
    ¬ ReadsAs (ascii "GET") (tickerTemplate.segmentTexts [(ascii "ticker", ascii "BRK/B?limit=1")])
      [(ascii "limit", ascii "10")]
      (requestLineText (ascii "GET") tickerTemplate.text [(ascii "ticker", ascii "BRK/B?limit=1")]
        [(ascii "limit", ascii "10")]) := by
  intro h
  rw [requestLineText_eq] at h
  have hclean := clean_of_readsAs (by decide) _ [] h _ (List.mem_of_getLast? rfl)
  exact absurd hclean.question (by decide)

end DbnPipe.Api
