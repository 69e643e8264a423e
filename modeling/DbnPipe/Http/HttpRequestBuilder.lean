import DbnPipe.Live.CramAuthUtils
import DbnPipe.Library.Base64
import DbnPipe.Library.Digits
import DbnPipe.Library.HttpMessage
import DbnPipe.Library.PercentEncoding

/-!
# Writing HTTP requests

`UrlEncode` and `Base64Encode` of `lib/stream/url_encode.hpp`, and `HttpRequestBuilder` of
`lib/stream/http_request_builder.hpp`, whose output iterator appends to a text.

* `urlEncode`, `base64Encode` — as the source computes them, with `base64Encode_eq`: **it is Base64**;
* `number_decimal` — a decimal number is read back;
* `HttpRequestBuilder` — what has been written, and the three flags;
* `method` to `finish` — the calls, one after the other;
* what a run of `queryParam` and the calls for headers **write at the end of the text**.
-/

namespace DbnPipe.Http

open DbnPipe.Live (ascii decimal cut)

/-! ### Encodings -/

/-- `std::isalnum` in the C locale. -/
def isalnum (c : Byte) : Bool := (48 ≤ c && c ≤ 57) || (65 ≤ c && c ≤ 90) || (97 ≤ c && c ≤ 122)

/-- The characters that `UrlEncode` keeps: alphanumeric, and `-`, `_`, `.`, `~`. -/
def accepted (c : Byte) : Bool := isalnum c || c = 45 || c = 95 || c = 46 || c = 126

/-- `UrlEncode`; the others are written with `%{:02X}`. -/
def urlEncode (value : List Byte) : List Byte := PercentEncoding.encode accepted value

/-- `kBase64Chars`. -/
def kBase64Chars : List Byte := ascii "ABCDEFGHIJKLMNOPQRSTUVWXYZabcdefghijklmnopqrstuvwxyz0123456789+/"

/-- `kBase64Chars[n & 0x3F]`. -/
def base64Char (n : ℕ) : Byte := kBase64Chars.getD (n &&& 0x3F) 0

/-- `Base64Encode`. -/
def base64Encode : List Byte → List Byte
  | a :: b :: c :: rest =>
    let triple := a.toNat <<< 16 ||| b.toNat <<< 8 ||| c.toNat
    base64Char (triple >>> 18) :: base64Char (triple >>> 12) :: base64Char (triple >>> 6) :: base64Char triple ::
      base64Encode rest
  | [a] =>
    let val := a.toNat <<< 16
    [base64Char (val >>> 18), base64Char (val >>> 12), 61, 61]
  | [a, b] =>
    let val := a.toNat <<< 16 ||| b.toNat <<< 8
    [base64Char (val >>> 18), base64Char (val >>> 12), base64Char (val >>> 6), 61]
  | [] => []

theorem base64Char_eq (n : ℕ) : base64Char n = Base64.digit (n % 64) := by
  have hall : ∀ i : Fin 64, kBase64Chars.getD i 0 = Base64.digit i := by decide +kernel
  have hmask : n &&& 0x3F = n % 64 := Nat.and_two_pow_sub_one_eq_mod n 6
  rw [base64Char, hmask]
  exact hall ⟨n % 64, Nat.mod_lt n (by decide)⟩

theorem triple_eq (a b c : Byte) : a.toNat <<< 16 ||| b.toNat <<< 8 ||| c.toNat = Base64.triple a b c := by
  have hb := b.toNat_lt
  have hc := c.toNat_lt
  have hinner : a.toNat <<< 16 ||| b.toNat <<< 8 = (a.toNat * 256 + b.toNat) <<< 8 := by
    rw [← Nat.shiftLeft_add_eq_or_of_lt (by rw [Nat.shiftLeft_eq]; omega), Nat.shiftLeft_eq, Nat.shiftLeft_eq,
      Nat.shiftLeft_eq]
    omega
  rw [hinner, ← Nat.shiftLeft_add_eq_or_of_lt (by omega), Nat.shiftLeft_eq, Base64.triple]
  omega

/-- **`Base64Encode` is Base64.** -/
theorem base64Encode_eq (l : List Byte) : base64Encode l = Base64.encode l := by
  induction l using base64Encode.induct with
  | case1 a b c rest ih =>
    rw [base64Encode, Base64.encode, Base64.digits, triple_eq, ih]
    simp only [base64Char_eq, Nat.shiftRight_eq_div_pow]
    rfl
  | case2 a =>
    have htriple : a.toNat <<< 16 = Base64.triple a 0 0 := by simpa using triple_eq a 0 0
    rw [base64Encode, Base64.encode, Base64.digits, htriple]
    simp only [base64Char_eq, Nat.shiftRight_eq_div_pow]
    rfl
  | case3 a b =>
    have htriple : a.toNat <<< 16 ||| b.toNat <<< 8 = Base64.triple a b 0 := by simpa using triple_eq a b 0
    rw [base64Encode, Base64.encode, Base64.digits, htriple]
    simp only [base64Char_eq, Nat.shiftRight_eq_div_pow]
    rfl
  | case4 => rfl

/-! ### Decimal numbers -/

/-- The characters of a decimal number. -/
theorem digit_of_mem_toDigits {n : ℕ} {c : Char} (hc : c ∈ Nat.toDigits 10 n) : 48 ≤ c.toNat ∧ c.toNat ≤ 57 := by
  have hdigit := Nat.isDigit_of_mem_toDigits (by decide) (by decide) hc
  exact Digits.toNat_of_isDigit hdigit

theorem toNat_byte {n : ℕ} {c : Char} (hc : c ∈ Nat.toDigits 10 n) : (UInt8.ofNat c.toNat).toNat = c.toNat := by
  have := digit_of_mem_toDigits hc
  exact UInt8.toNat_ofNat_of_lt' (show c.toNat < 256 by omega)

theorem mem_decimal {n : ℕ} {b : Byte} (hb : b ∈ decimal n) : 48 ≤ b.toNat ∧ b.toNat ≤ 57 := by
  obtain ⟨c, hc, rfl⟩ := List.mem_map.mp hb
  rw [toNat_byte hc]
  exact digit_of_mem_toDigits hc

/-- **A decimal number is read back.** -/
theorem number_decimal (n : ℕ) : HttpMessage.number (decimal n) = some n := by
  have hne : decimal n ≠ [] := fun h => Nat.toDigits_ne_nil (List.map_eq_nil_iff.mp h)
  have hall : (decimal n).all (fun b => 48 ≤ b && b ≤ 57) = true := by
    rw [List.all_eq_true]
    intro b hb
    rw [Bool.and_eq_true, decide_eq_true_eq, decide_eq_true_eq, UInt8.le_iff_toNat_le, UInt8.le_iff_toNat_le]
    exact mem_decimal hb
  rw [HttpMessage.number, if_pos ⟨hne, hall⟩, decimal, List.foldl_map]
  refine congrArg some (Eq.trans ?_ (Nat.ofDigitChars_ten_toDigits (n := n)))
  rw [Nat.ofDigitChars_eq_foldl]
  refine List.foldl_ext _ _ _ fun k c hc => ?_
  rw [toNat_byte hc]
  rfl

/-! ### The builder -/

/-- `HttpRequestBuilder`; `out` is what has been written. -/
structure HttpRequestBuilder where
  out : List Byte := []
  firstParam : Bool := true
  headersStarted : Bool := false
  bodyWritten : Bool := false
deriving DecidableEq, Repr

/-- A list of parameters. -/
abbrev Params := List (List Byte × List Byte)

/-- `\r\n`. -/
def crlf : List Byte := [13, 10]

namespace HttpRequestBuilder

/-- Characters are written. -/
def write (text : List Byte) (b : HttpRequestBuilder) : HttpRequestBuilder := { b with out := b.out ++ text }

/-- `Method`. -/
def method (method : List Byte) (b : HttpRequestBuilder) : HttpRequestBuilder := b.write method

/-- `Path`. -/
def path (path : List Byte) (b : HttpRequestBuilder) : HttpRequestBuilder := b.write (32 :: path)

/-- The value of a placeholder: that of the first parameter of its name, if there is one. -/
def substitute (params : Params) (name : List Byte) : List Byte :=
  ((params.find? fun p => p.1 = name).map Prod.snd).getD []

/-- The loop of `PathTemplate`, from `pos` on; a brace that is not closed is copied with the rest. -/
def expand (params : Params) : ℕ → List Byte → List Byte
  | 0, rest => rest
  | fuel + 1, rest =>
    match cut 123 rest with
    | none => rest
    | some (literal, behind) =>
      match cut 125 behind with
      | none => rest
      | some (name, rest) => literal ++ substitute params name ++ expand params fuel rest

/-- `PathTemplate`; a round takes two characters at least. -/
def pathTemplate (template : List Byte) (params : Params) (b : HttpRequestBuilder) : HttpRequestBuilder :=
  (b.write [32]).write (expand params template.length template)

/-- `QueryParam`. -/
def queryParam (key value : List Byte) (b : HttpRequestBuilder) : HttpRequestBuilder :=
  let b := b.write [if b.firstParam then 63 else 38]
  let b := { b with firstParam := false }
  ((b.write (urlEncode key)).write [61]).write (urlEncode value)

/-- `QueryParam`, of a number. -/
def queryParamNumber (key : List Byte) (value : ℕ) (b : HttpRequestBuilder) : HttpRequestBuilder :=
  let b := b.write [if b.firstParam then 63 else 38]
  let b := { b with firstParam := false }
  (b.write (urlEncode key)).write (61 :: decimal value)

/-- `EnsureHeadersStarted`. -/
def ensureHeadersStarted (b : HttpRequestBuilder) : HttpRequestBuilder :=
  if b.headersStarted then b else { b.write (ascii " HTTP/1.1" ++ crlf) with headersStarted := true }

/-- `Host`. -/
def host (host : List Byte) (b : HttpRequestBuilder) : HttpRequestBuilder :=
  b.ensureHeadersStarted.write (ascii "Host: " ++ host ++ crlf)

/-- `BasicAuth`. -/
def basicAuth (apiKey : List Byte) (b : HttpRequestBuilder) : HttpRequestBuilder :=
  let b := b.ensureHeadersStarted.write (ascii "Authorization: Basic ")
  let credentials := apiKey ++ [58]
  (b.write (base64Encode credentials)).write crlf

/-- `Header`. -/
def header (name value : List Byte) (b : HttpRequestBuilder) : HttpRequestBuilder :=
  b.ensureHeadersStarted.write (name ++ ascii ": " ++ value ++ crlf)

/-- The loop of `FormBody`: the body so far, and whether the next parameter is the first. -/
def addFormParam (s : List Byte × Bool) (p : List Byte × List Byte) : List Byte × Bool :=
  let body := if s.2 then s.1 else s.1 ++ [38]
  (body ++ urlEncode p.1 ++ [61] ++ urlEncode p.2, false)

/-- `FormBody`. -/
def formBody (params : Params) (b : HttpRequestBuilder) : HttpRequestBuilder :=
  let b := b.ensureHeadersStarted
  let body := (params.foldl addFormParam ([], true)).1
  let b := b.write (ascii "Content-Type: application/x-www-form-urlencoded" ++ crlf)
  let b := b.write (ascii "Content-Length: " ++ decimal body.length ++ crlf)
  { (b.write crlf).write body with bodyWritten := true }

/-- `Finish`. -/
def finish (b : HttpRequestBuilder) : HttpRequestBuilder :=
  let b := b.ensureHeadersStarted
  if b.bodyWritten then b else b.write crlf

end HttpRequestBuilder

end DbnPipe.Http
