import DbnPipe.Pg.Mapper

/-!
# Reading binary COPY

What PostgreSQL reads from the bytes of `Mapper`, **by the grammar of the binary format**.

* `PgValue`, `PgRow` — the values on the server: a timestamp is microseconds since 2000-01-01;
* `toPg` — the value that a value of the table stands for;
* `decodeField`, `decodeFields`, `decodeTuples`, `decode` — header, tuples with their field count, trailer;
* `decode_encode` — **each field is read as it was written**, in front of whatever follows;
* `copy_roundtrip` — the rows of a stream.
-/

namespace DbnPipe.Pg

open Endian

/-- The values of a column on the server. -/
def PgValue : LogicalType → Type
  | .timestampCol => ℤ
  | .int64 => Int64
  | .int32 => Int32
  | .int16 => Int16
  | .char => Byte
  | .text => List Byte
  | .bool => Bool
  | .float64 => UInt64

/-- A row on the server. -/
def PgRow : List LogicalType → Type
  | [] => Unit
  | t :: ts => PgValue t × PgRow ts

/-- **The value on the server**: of a timestamp, the nanoseconds since 1970 divided as C++ divides, from the year 2000
on. -/
def toPg : (t : LogicalType) → t.CppType → PgValue t
  | .timestampCol, (ns : Int64) => ns.toInt.tdiv 1000 - 946684800000000
  | .int64, v => v
  | .int32, v => v
  | .int16, v => v
  | .char, v => v
  | .text, v => v
  | .bool, v => v
  | .float64, v => v

/-- The row on the server. -/
def toPgRow : (ts : List LogicalType) → Row ts → PgRow ts
  | [], _ => ()
  | t :: ts, (value, row) => (toPg t value, toPgRow ts row)

/-! ### The grammar -/

/-- A signed number of two bytes. -/
def readInt16 (l : List Byte) : Option (ℤ × List Byte) :=
  (split 2 l).map fun p => ((BitVec.ofNat 16 (ofBE p.1)).toInt, p.2)

/-- A signed number of four bytes. -/
def readInt32 (l : List Byte) : Option (ℤ × List Byte) :=
  (split 4 l).map fun p => ((BitVec.ofNat 32 (ofBE p.1)).toInt, p.2)

/-- The number of a payload that has to have `k` bytes. -/
def payloadBits (k : ℕ) (payload : List Byte) : Option (BitVec (8 * k)) :=
  if payload.length = k then some (BitVec.ofNat (8 * k) (ofBE payload)) else none

/-- The payload of a field. -/
def decodePayload : (t : LogicalType) → List Byte → Option (PgValue t)
  | .int64, payload => (payloadBits 8 payload).map Int64.ofBitVec
  | .int32, payload => (payloadBits 4 payload).map Int32.ofBitVec
  | .int16, payload => (payloadBits 2 payload).map Int16.ofBitVec
  | .timestampCol, payload => (payloadBits 8 payload).map BitVec.toInt
  | .float64, payload => (payloadBits 8 payload).map UInt64.ofBitVec
  | .char, [b] => some b
  | .bool, [b] => some (decide (b ≠ 0))
  | .text, payload => some payload
  | _, _ => none

/-- A field; a length of -1 is a null, which no column of a table is. -/
def decodeField (t : LogicalType) (l : List Byte) : Option (PgValue t × List Byte) :=
  (readInt32 l).bind fun p =>
    if p.1 < 0 then none
    else (split p.1.toNat p.2).bind fun q => (decodePayload t q.1).map fun v => (v, q.2)

/-- The fields of a tuple. -/
def decodeFields : (ts : List LogicalType) → List Byte → Option (PgRow ts × List Byte)
  | [], l => some ((), l)
  | t :: ts, l =>
    (decodeField t l).bind fun p => (decodeFields ts p.2).map fun q => ((p.1, q.1), q.2)

/-- Tuples, up to the trailer; each has all columns. -/
def decodeTuples (ts : List LogicalType) : ℕ → List Byte → Option (List (PgRow ts) × List Byte)
  | 0, _ => none
  | fuel + 1, l =>
    (readInt16 l).bind fun p =>
      if p.1 = -1 then some ([], p.2)
      else if p.1 = ts.length then
        (decodeFields ts p.2).bind fun q => (decodeTuples ts fuel q.2).map fun r => (q.1 :: r.1, r.2)
      else none

/-- The header: the signature, flags of which the critical ones are clear, and an extension area that is skipped. -/
def decodeHeader (l : List Byte) : Option (List Byte) :=
  (split magic.length l).bind fun m =>
    if m.1 = magic then
      (split 4 m.2).bind fun flags =>
        if ofBE flags.1 < 2 ^ 16 then
          (readInt32 flags.2).bind fun area =>
            if area.1 < 0 then none else (split area.1.toNat area.2).map Prod.snd
        else none
    else none

/-- **A COPY stream**: nothing follows the trailer. -/
def decode (ts : List LogicalType) (l : List Byte) : Option (List (PgRow ts)) :=
  (decodeHeader l).bind fun body =>
    (decodeTuples ts (body.length + 1) body).bind fun r => if r.2 = [] then some r.1 else none

variable (native : NativeOrder)

/-! ### Numbers -/

theorem readInt16_put (v : Int16) (rest : List Byte) :
    readInt16 (put native 2 v.toBitVec.toNat ++ rest) = some (v.toInt, rest) := by
  have hlt : v.toBitVec.toNat < 256 ^ 2 := v.toBitVec.isLt
  rw [put_eq, readInt16, split_append_of_length (length_bytesBE 2 _), Option.map_some, ofBE_bytesBE hlt,
    BitVec.ofNat_toNat, BitVec.setWidth_eq]
  rfl

theorem readInt32_put (v : Int32) (rest : List Byte) :
    readInt32 (put native 4 v.toBitVec.toNat ++ rest) = some (v.toInt, rest) := by
  have hlt : v.toBitVec.toNat < 256 ^ 4 := v.toBitVec.isLt
  rw [put_eq, readInt32, split_append_of_length (length_bytesBE 4 _), Option.map_some, ofBE_bytesBE hlt,
    BitVec.ofNat_toNat, BitVec.setWidth_eq]
  rfl

theorem payloadBits_put (k : ℕ) (v : BitVec (8 * k)) : payloadBits k (put native k v.toNat) = some v := by
  have hlt : v.toNat < 256 ^ k := by
    have := v.isLt
    rwa [pow_mul] at this
  rw [put_eq, payloadBits, if_pos (length_bytesBE k _), ofBE_bytesBE hlt, BitVec.ofNat_toNat, BitVec.setWidth_eq]

theorem length_put (k n : ℕ) : (put native k n).length = k := by rw [put_eq, length_bytesBE]

/-! ### Fields -/

/-- The payload of a field. -/
def payload : (t : LogicalType) → t.CppType → List Byte
  | .int64, (v : Int64) => put native 8 v.toBitVec.toNat
  | .int32, (v : Int32) => put native 4 v.toBitVec.toNat
  | .int16, (v : Int16) => put native 2 v.toBitVec.toNat
  | .char, (v : Byte) => [v]
  | .timestampCol, (ns : Int64) => put native 8 (ns / 1000 - kPgEpochOffsetUsec).toBitVec.toNat
  | .text, (v : List Byte) => v
  | .bool, (v : Bool) => [if v then 1 else 0]
  | .float64, (v : UInt64) => put native 8 v.toBitVec.toNat

/-- A text is shorter than 2^31 bytes. -/
def Fits : (t : LogicalType) → t.CppType → Prop
  | .text, (v : List Byte) => v.length < 2 ^ 31
  | _, _ => True

/-- All texts of a row. -/
def RowFits : (ts : List LogicalType) → Row ts → Prop
  | [], _ => True
  | t :: ts, (value, row) => Fits t value ∧ RowFits ts row

/-- **A field is its length and its payload.** -/
theorem encode_eq (t : LogicalType) (v : t.CppType) (buf : List Byte) :
    encode native t v buf =
      buf ++ put native 4 (Int32.ofNat (payload native t v).length).toBitVec.toNat ++ payload native t v := by
  cases t <;> simp only [encode, bigInt, integer, smallInt, char, timestamptz, text, boolean, doublePrecision,
    putInt64Be, putInt32Be, putInt16Be, putByte, putBytes, payload, length_put] <;> rfl

theorem length_payload {t : LogicalType} {v : t.CppType} (h : Fits t v) : (payload native t v).length < 2 ^ 31 := by
  cases t with
  | text => exact h
  | char | bool => exact (by decide : 1 < 2 ^ 31)
  | int64 | timestampCol | float64 =>
    show (put native 8 _).length < 2 ^ 31
    rw [length_put]
    decide
  | int32 =>
    show (put native 4 _).length < 2 ^ 31
    rw [length_put]
    decide
  | int16 =>
    show (put native 2 _).length < 2 ^ 31
    rw [length_put]
    decide

/-- **The time on the server**, without overflow for any `int64_t`. -/
theorem pgUsec_toInt (ns : Int64) :
    (ns / 1000 - kPgEpochOffsetUsec).toInt = ns.toInt.tdiv 1000 - 946684800000000 := by
  have hdiv : (ns / 1000).toInt = ns.toInt.tdiv 1000 := Int64.toInt_div_of_ne_right ns 1000 (by decide)
  have hoffset : kPgEpochOffsetUsec.toInt = 946684800000000 := by decide
  have hsum := Int.mul_tdiv_add_tmod ns.toInt 1000
  have hupper := Int.tmod_lt_of_pos ns.toInt (by decide : (0 : ℤ) < 1000)
  have hlower := Int.lt_tmod_of_pos ns.toInt (by decide : (0 : ℤ) < 1000)
  have hmin := ns.le_toInt
  have hmax := ns.toInt_lt
  rw [Int64.toInt_sub, hdiv, hoffset]
  apply Int.bmod_eq_of_le <;> omega

theorem decodePayload_payload (t : LogicalType) (v : t.CppType) :
    decodePayload t (payload native t v) = some (toPg t v) := by
  cases t with
  | int64 =>
    show (payloadBits 8 (put native 8 _)).map Int64.ofBitVec = _
    rw [payloadBits_put native 8]
    rfl
  | int32 =>
    show (payloadBits 4 (put native 4 _)).map Int32.ofBitVec = _
    rw [payloadBits_put native 4]
    rfl
  | int16 =>
    show (payloadBits 2 (put native 2 _)).map Int16.ofBitVec = _
    rw [payloadBits_put native 2]
    rfl
  | char => rfl
  | timestampCol =>
    show (payloadBits 8 (put native 8 _)).map BitVec.toInt = _
    rw [payloadBits_put native 8]
    exact congrArg some (pgUsec_toInt v)
  | text => rfl
  | bool => cases (v : Bool) <;> rfl
  | float64 =>
    show (payloadBits 8 (put native 8 _)).map UInt64.ofBitVec = _
    rw [payloadBits_put native 8]
    rfl

theorem toInt_ofNat32 {n : ℕ} (h : n < 2 ^ 31) : (Int32.ofNat n).toInt = n := Int32.toInt_ofNat_of_lt h

/-- **A field is read as it was written**, in front of whatever follows. -/
theorem decode_encode {t : LogicalType} {v : t.CppType} (h : Fits t v) (rest : List Byte) :
    decodeField t (encode native t v [] ++ rest) = some (toPg t v, rest) := by
  have hlength := toInt_ofNat32 (length_payload native h)
  have hnonneg : ¬((payload native t v).length : ℤ) < 0 := Int.not_lt.mpr (Int.natCast_nonneg _)
  rw [encode_eq, List.nil_append, List.append_assoc, decodeField, readInt32_put, Option.bind_some, hlength,
    if_neg hnonneg, Int.toNat_natCast, split_append, Option.bind_some, decodePayload_payload, Option.map_some]

/-! ### Rows -/

theorem encode_append (t : LogicalType) (v : t.CppType) (buf : List Byte) :
    encode native t v buf = buf ++ encode native t v [] := by
  rw [encode_eq, encode_eq, List.nil_append, List.append_assoc]

theorem encodeFields_append (ts : List LogicalType) (row : Row ts) (buf : List Byte) :
    encodeFields native ts row buf = buf ++ encodeFields native ts row [] := by
  induction ts generalizing buf with
  | nil => exact (List.append_nil buf).symm
  | cons t ts ih =>
    obtain ⟨value, row⟩ := row
    rw [encodeFields, encodeFields, ih, ih row (encode native t value []), encode_append native t value buf,
      List.append_assoc]

/-- A row is its count and its fields. -/
theorem encodeRow_eq (ts : List LogicalType) (row : Row ts) (buf : List Byte) :
    encodeRow native ts row buf =
      buf ++ (put native 2 (Int16.ofNat ts.length).toBitVec.toNat ++ encodeFields native ts row []) := by
  rw [encodeRow, encodeFields_append, putInt16Be, List.append_assoc]

/-- The fields of a row are read as they were written. -/
theorem decodeFields_encodeFields {ts : List LogicalType} {row : Row ts} (h : RowFits ts row) (rest : List Byte) :
    decodeFields ts (encodeFields native ts row [] ++ rest) = some (toPgRow ts row, rest) := by
  induction ts generalizing rest with
  | nil => rfl
  | cons t ts ih =>
    obtain ⟨value, row⟩ := row
    rw [encodeFields, encodeFields_append, List.append_assoc, decodeFields, decode_encode native h.1, Option.bind_some,
      ih h.2, Option.map_some]
    rfl

/-- The count of a row. -/
theorem toInt_count {ts : List LogicalType} (h : ts.length ≤ 32767) : (Int16.ofNat ts.length).toInt = ts.length :=
  Int16.toInt_ofNat_of_lt (Nat.lt_succ_of_le h)

theorem decodeTuples_trailer (ts : List LogicalType) (fuel : ℕ) :
    decodeTuples ts (fuel + 1) (writeCopyTrailer native []) = some ([], []) := by
  have hread := readInt16_put native (-1) []
  rw [List.append_nil] at hread
  show decodeTuples ts (fuel + 1) (put native 2 (-1 : Int16).toBitVec.toNat) = _
  rw [decodeTuples, hread, Option.bind_some]
  rfl

/-- **The rows, up to the trailer.** -/
theorem decodeTuples_rows {ts : List LogicalType} (hts : ts.length ≤ 32767) {rows : List (Row ts)}
    (h : ∀ row ∈ rows, RowFits ts row) {fuel : ℕ} (hfuel : rows.length < fuel) :
    decodeTuples ts fuel (rows.flatMap (fun row => encodeRow native ts row []) ++ writeCopyTrailer native []) =
      some (rows.map (toPgRow ts), []) := by
  induction rows generalizing fuel with
  | nil =>
    obtain ⟨fuel, rfl⟩ : ∃ k, fuel = k + 1 := ⟨fuel - 1, by omega⟩
    exact decodeTuples_trailer native ts fuel
  | cons row rows ih =>
    obtain ⟨fuel, rfl⟩ : ∃ k, fuel = k + 1 := ⟨fuel - 1, by omega⟩
    have hcount := toInt_count hts
    have hne : (ts.length : ℤ) ≠ -1 := by omega
    rw [List.flatMap_cons, encodeRow_eq, List.nil_append, List.append_assoc, List.append_assoc, decodeTuples, readInt16_put,
      Option.bind_some, hcount, if_neg hne, if_pos rfl, decodeFields_encodeFields native (h row List.mem_cons_self),
      Option.bind_some, ih (fun r hr => h r (List.mem_cons_of_mem row hr)) (Nat.lt_of_succ_lt_succ hfuel),
      Option.map_some, List.map_cons]

/-- **The header is read**, and what follows is the body. -/
theorem decodeHeader_header (body : List Byte) : decodeHeader (writeCopyHeader native [] ++ body) = some body := by
  have hheader : writeCopyHeader native [] ++ body =
      magic ++ (put native 4 (0 : Int32).toBitVec.toNat ++ (put native 4 (0 : Int32).toBitVec.toNat ++ body)) := by
    simp only [writeCopyHeader, putInt32Be, putBytes, List.nil_append, List.append_assoc]
  have hflags : ofBE (put native 4 (0 : Int32).toBitVec.toNat) < 2 ^ 16 := by
    rw [put_eq, ofBE_bytesBE (by decide)]
    decide
  rw [hheader, decodeHeader, split_append, Option.bind_some, if_pos rfl,
    split_append_of_length (length_put native 4 _), Option.bind_some, if_pos hflags, readInt32_put, Option.bind_some,
    if_neg (show ¬(0 : Int32).toInt < 0 by decide)]
  rfl

theorem copyStream_eq (ts : List LogicalType) (rows : List (Row ts)) :
    copyStream native ts rows =
      writeCopyHeader native [] ++
        (rows.flatMap (fun row => encodeRow native ts row []) ++ writeCopyTrailer native []) := by
  have hrows : ∀ buf, rows.foldl (fun buf row => encodeRow native ts row buf) buf =
      buf ++ rows.flatMap fun row => encodeRow native ts row [] := by
    induction rows with
    | nil => exact fun buf => (List.append_nil buf).symm
    | cons row rows ih =>
      intro buf
      rw [List.foldl_cons, ih, List.flatMap_cons, encodeRow_eq, encodeRow_eq native ts row [], List.nil_append,
        List.append_assoc]
  have htrailer : ∀ buf, writeCopyTrailer native buf = buf ++ writeCopyTrailer native [] := fun buf => rfl
  rw [copyStream, hrows, htrailer, List.append_assoc]

theorem length_rows (ts : List LogicalType) (rows : List (Row ts)) :
    rows.length ≤ (rows.flatMap fun row => encodeRow native ts row []).length := by
  induction rows with
  | nil => exact Nat.le_refl 0
  | cons row rows ih =>
    rw [List.flatMap_cons, List.length_append, List.length_cons, encodeRow_eq, List.nil_append, List.length_append,
      length_put]
    omega

/-- A row begins with its count, which is not the trailer. -/
theorem take_encodeRow {ts : List LogicalType} (hts : ts.length ≤ 32767) (row : Row ts) :
    (encodeRow native ts row []).take 2 ≠ writeCopyTrailer native [] := by
  intro h
  rw [encodeRow_eq, List.nil_append, List.take_left' (length_put native 2 _)] at h
  have hcount := readInt16_put native (Int16.ofNat ts.length) []
  have htrailer := readInt16_put native (-1) []
  have hsame : put native 2 (Int16.ofNat ts.length).toBitVec.toNat = put native 2 (-1 : Int16).toBitVec.toNat := h
  rw [hsame, htrailer] at hcount
  have heq : (-1 : Int16).toInt = (Int16.ofNat ts.length).toInt := congrArg Prod.fst (Option.some.inj hcount)
  rw [toInt_count hts] at heq
  have hminus : (-1 : Int16).toInt = -1 := by decide
  omega

/-- **The round trip of binary COPY**: the server reads the rows, timestamps stay in the range of `int64_t`, and no row
can be taken for the trailer. -/
theorem copy_roundtrip (ts : List LogicalType) (rows : List (Row ts)) (hts : ts.length ≤ 32767)
    (h : ∀ row ∈ rows, RowFits ts row) :
    decode ts (copyStream native ts rows) = some (rows.map (toPgRow ts)) ∧
      (∀ ns : Int64, -2 ^ 63 ≤ ns.toInt.tdiv 1000 - 946684800000000 ∧ ns.toInt.tdiv 1000 - 946684800000000 < 2 ^ 63) ∧
      ∀ row ∈ rows, (encodeRow native ts row []).take 2 ≠ writeCopyTrailer native [] := by
  refine ⟨?_, fun ns => ?_, fun row _ => take_encodeRow native hts row⟩
  · have hfuel : rows.length <
        (rows.flatMap (fun row => encodeRow native ts row []) ++ writeCopyTrailer native []).length + 1 := by
      have hlength := length_rows native ts rows
      rw [List.length_append]
      omega
    rw [copyStream_eq, decode, decodeHeader_header, Option.bind_some, decodeTuples_rows native hts h hfuel,
      Option.bind_some, if_pos rfl]
  · rw [← pgUsec_toInt]
    exact ⟨Int64.le_toInt _, Int64.toInt_lt _⟩

/-- A trade: a time before 1970, a price, a symbol, a flag. -/
def tradeColumns : List LogicalType := [.timestampCol, .int64, .text, .bool]

/-- Two of its rows. -/
def tradeRows : List (Row tradeColumns) :=
  [((-1 : Int64), (-5 : Int64), ([83, 80, 89] : List Byte), true, ()),
    ((9223372036854775807 : Int64), (7 : Int64), ([] : List Byte), false, ())]

theorem copy_roundtrip_tradeRows :
    decode tradeColumns (copyStream .little tradeColumns tradeRows) = some (tradeRows.map (toPgRow tradeColumns)) ∧
      (∀ ns : Int64, -2 ^ 63 ≤ ns.toInt.tdiv 1000 - 946684800000000 ∧ ns.toInt.tdiv 1000 - 946684800000000 < 2 ^ 63) ∧
      ∀ row ∈ tradeRows, (encodeRow .little tradeColumns row []).take 2 ≠ writeCopyTrailer .little [] :=
  copy_roundtrip .little tradeColumns tradeRows (by decide) fun row hrow => by
    rcases List.mem_pair.mp hrow with rfl | rfl
    · exact ⟨trivial, trivial, (by decide : 3 < 2 ^ 31), trivial, trivial⟩
    · exact ⟨trivial, trivial, (by decide : 0 < 2 ^ 31), trivial, trivial⟩

end DbnPipe.Pg
