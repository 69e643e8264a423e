import DbnPipe.Http.HttpRequestBuilder

/-!
# The loop of `Base64Encode`

`base64Encode` takes a text apart by its first bytes.  The source has an index, a loop over the groups of three, and
two cases for what is left; each byte is read by its position.

* `encodeTriples`, `encodeTail` — the loop and the two cases; **a read past the end gives nothing**;
* `encodeTriples_eq` — what a run of the loop leaves, from any index;
* `base64EncodeIndexed_eq` — **every read is inside**, and the text is that of `base64Encode`;
* `base64_rfc4648` — the text is read back by the decoder, with its length, its alphabet and its padding.
-/

namespace DbnPipe.Http

/-- The loop of `Base64Encode`, with the index and what has been written. -/
def encodeTriples (input : List Byte) (i : ℕ) (out : List Byte) : Option (ℕ × List Byte) :=
  if i + 2 < input.length then do
    let a ← input[i]?
    let b ← input[i + 1]?
    let c ← input[i + 2]?
    let triple := a.toNat <<< 16 ||| b.toNat <<< 8 ||| c.toNat
    encodeTriples input (i + 3)
      (out ++ [base64Char (triple >>> 18), base64Char (triple >>> 12), base64Char (triple >>> 6), base64Char triple])
  else some (i, out)
termination_by input.length - i

/-- What follows the loop: one byte is left, or two, or none. -/
def encodeTail (input : List Byte) (i : ℕ) (out : List Byte) : Option (List Byte) :=
  if i + 1 = input.length then do
    let a ← input[i]?
    let val := a.toNat <<< 16
    some (out ++ [base64Char (val >>> 18), base64Char (val >>> 12), 61, 61])
  else if i + 2 = input.length then do
    let a ← input[i]?
    let b ← input[i + 1]?
    let val := a.toNat <<< 16 ||| b.toNat <<< 8
    some (out ++ [base64Char (val >>> 18), base64Char (val >>> 12), base64Char (val >>> 6), 61])
  else some out

/-- `Base64Encode` by its index. -/
def base64EncodeIndexed (input : List Byte) : Option (List Byte) :=
  (encodeTriples input 0 []).bind fun s => encodeTail input s.1 s.2

/-- The bytes from an index on, where there are three. -/
theorem drop_three {input : List Byte} {i : ℕ} {a b c : Byte} {rest : List Byte}
    (h : input.drop i = a :: b :: c :: rest) :
    input[i]? = some a ∧ input[i + 1]? = some b ∧ input[i + 2]? = some c ∧ input.drop (i + 3) = rest := by
  refine ⟨?_, ?_, ?_, ?_⟩
  · rw [← Nat.add_zero i, ← List.getElem?_drop, h]
    rfl
  · rw [← List.getElem?_drop, h]
    rfl
  · rw [← List.getElem?_drop, h]
    rfl
  · rw [← List.drop_drop, h]
    rfl

/-- **The loop and the tail, from any index.**  The rest of the text is encoded after what has been written. -/
theorem encodeTriples_eq {input rest : List Byte} {i : ℕ} (h : input.drop i = rest) (hi : i ≤ input.length)
    (out : List Byte) :
    (encodeTriples input i out).bind (fun s => encodeTail input s.1 s.2) = some (out ++ base64Encode rest) := by
  have hlength : input.length = i + rest.length := by
    rw [← h, List.length_drop]
    omega
  induction rest using base64Encode.induct generalizing i out with
  | case1 a b c rest ih =>
    obtain ⟨ha, hb, hc, hrest⟩ := drop_three h
    simp only [List.length_cons] at hlength
    rw [encodeTriples, if_pos (by omega), ha, hb, hc]
    show (encodeTriples input (i + 3) _).bind _ = _
    rw [ih hrest (by omega) _ (by omega), base64Encode, List.append_assoc]
    rfl
  | case2 a =>
    have hlast : input[i]? = some a := by
      rw [← Nat.add_zero i, ← List.getElem?_drop, h]
      rfl
    simp only [List.length_cons, List.length_nil] at hlength
    rw [encodeTriples, if_neg (by omega), Option.bind_some, encodeTail, if_pos (by omega), hlast]
    rfl
  | case3 a b =>
    have hfirst : input[i]? = some a := by
      rw [← Nat.add_zero i, ← List.getElem?_drop, h]
      rfl
    have hsecond : input[i + 1]? = some b := by
      rw [← List.getElem?_drop, h]
      rfl
    simp only [List.length_cons, List.length_nil] at hlength
    rw [encodeTriples, if_neg (by omega), Option.bind_some, encodeTail, if_neg (by omega), if_pos (by omega), hfirst,
      hsecond]
    rfl
  | case4 =>
    simp only [List.length_nil] at hlength
    rw [encodeTriples, if_neg (by omega), Option.bind_some, encodeTail, if_neg (by omega), if_neg (by omega)]
    rw [base64Encode, List.append_nil]

/-- The loop never reads past the input, and writes what `base64Encode` does. -/
theorem base64EncodeIndexed_eq (input : List Byte) : base64EncodeIndexed input = some (base64Encode input) := by
  rw [base64EncodeIndexed, encodeTriples_eq (List.drop_zero) (Nat.zero_le _), List.nil_append]

/-- The digits are the characters of the table. -/
theorem digit_mem_kBase64Chars {k : ℕ} (h : k < 64) : Base64.digit k ∈ kBase64Chars := by
  have hall : ∀ i : Fin 64, Base64.digit i ∈ kBase64Chars := by decide +kernel
  exact hall ⟨k, h⟩

/-- **`Base64Encode` is the encoding of RFC 4648.**  For every text, all reads are inside; the decoder gives the text
back; four characters stand for three bytes or fewer; they are of the alphabet, but for two `=` at the end at most. -/
theorem base64_rfc4648 (s : List Byte) :
    ∃ out body pad, base64EncodeIndexed s = some out ∧ Base64.decode out = some s ∧
      out.length = 4 * ((s.length + 2) / 3) ∧ out = body ++ List.replicate pad 61 ∧ pad ≤ 2 ∧
      ∀ b ∈ body, b ∈ kBase64Chars := by
  obtain ⟨body, hencode, hbody⟩ := Base64.encode_padded s
  refine ⟨Base64.encode s, body, (3 - s.length % 3) % 3, ?_, Base64.decode_encode s, Base64.length_encode s, hencode,
    by omega, fun b hb => ?_⟩
  · rw [base64EncodeIndexed_eq, base64Encode_eq]
  · obtain ⟨k, hk, rfl⟩ := hbody b hb
    exact digit_mem_kBase64Chars hk

end DbnPipe.Http
