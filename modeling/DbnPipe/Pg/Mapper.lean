import DbnPipe.Library.Endian
import DbnPipe.Stream.BufferChain

/-!
# PostgreSQL binary COPY

`ByteBuffer`, the encoders of `src/pg/pg_types.hpp` and `Mapper` of `src/pg/mapper.hpp`: rows of a table as the
bytes of `COPY … WITH (FORMAT binary)`.

* `putInt16Be`, `putInt32Be`, `putInt64Be` — **with the byte order of the machine**: a little-endian one swaps the
  bytes before it writes them, and `put_eq` says that both write the most significant byte first;
* `LogicalType`, `CppType`, `Row` — the column types, and the tuple of a row;
* `encode` — `PgTypeFor`: the encoder of each type, length and payload;
* `encodeRow`, `writeCopyHeader`, `writeCopyTrailer` — `Mapper`.

A buffer is the bytes written so far.  A `double` is its 64 bits.
-/

namespace DbnPipe.Pg

open Endian

/-! ### ByteBuffer -/

/-- `std::endian::native`. -/
inductive NativeOrder where
  | little
  | big
deriving DecidableEq, Repr

/-- A number of `k` bytes in memory. -/
def memory : NativeOrder → ℕ → ℕ → List Byte
  | .little, k, n => bytesLE k n
  | .big, k, n => (bytesLE k n).reverse

/-- `__builtin_bswap16` and its siblings. -/
def bswap (k n : ℕ) : ℕ := ofLE (bytesLE k n).reverse

variable (native : NativeOrder)

/-- What `put_int16_be` and its siblings write. -/
def put (k n : ℕ) : List Byte :=
  memory native k (if native = .little then bswap k n else n)

/-- **The most significant byte first**, on either machine. -/
theorem put_eq (k n : ℕ) : put native k n = bytesBE k n := by
  cases native with
  | little =>
    have hlength : (bytesLE k n).reverse.length = k := by rw [List.length_reverse, length_bytesLE]
    have hround := bytesLE_ofLE (bytesLE k n).reverse
    rw [hlength] at hround
    exact hround
  | big => rfl

/-- `put_int16_be`. -/
def putInt16Be (val : Int16) (buf : List Byte) : List Byte := buf ++ put native 2 val.toBitVec.toNat

/-- `put_int32_be`. -/
def putInt32Be (val : Int32) (buf : List Byte) : List Byte := buf ++ put native 4 val.toBitVec.toNat

/-- `put_int64_be`. -/
def putInt64Be (val : Int64) (buf : List Byte) : List Byte := buf ++ put native 8 val.toBitVec.toNat

/-- `put_byte`. -/
def putByte (b : Byte) (buf : List Byte) : List Byte := buf ++ [b]

/-- `put_bytes`. -/
def putBytes (data : List Byte) (buf : List Byte) : List Byte := buf ++ data

/-! ### Column types -/

/-- The logical column types. -/
inductive LogicalType where
  | int64
  | int32
  | int16
  | char
  | timestampCol
  | text
  | bool
  | float64
deriving DecidableEq, Repr

/-- `cpp_type`; a `double` is its 64 bits. -/
def LogicalType.CppType : LogicalType → Type
  | .int64 => Int64
  | .int32 => Int32
  | .int16 => Int16
  | .char => Byte
  | .timestampCol => Int64
  | .text => List Byte
  | .bool => Bool
  | .float64 => UInt64

/-- `BigInt::encode`. -/
def bigInt (val : Int64) (buf : List Byte) : List Byte := putInt64Be native val (putInt32Be native 8 buf)

/-- `Integer::encode`. -/
def integer (val : Int32) (buf : List Byte) : List Byte := putInt32Be native val (putInt32Be native 4 buf)

/-- `SmallInt::encode`. -/
def smallInt (val : Int16) (buf : List Byte) : List Byte := putInt16Be native val (putInt32Be native 2 buf)

/-- `Char::encode`. -/
def char (val : Byte) (buf : List Byte) : List Byte := putByte val (putInt32Be native 1 buf)

/-- `kPgEpochOffsetUsec`. -/
def kPgEpochOffsetUsec : Int64 := 946684800000000

/-- `Timestamptz::encode`; the division of C++ truncates. -/
def timestamptz (unixNs : Int64) (buf : List Byte) : List Byte :=
  let pgUsec := unixNs / 1000 - kPgEpochOffsetUsec
  putInt64Be native pgUsec (putInt32Be native 8 buf)

/-- `Text::encode`. -/
def text (val : List Byte) (buf : List Byte) : List Byte :=
  putBytes val (putInt32Be native (Int32.ofNat val.length) buf)

/-- `Boolean::encode`. -/
def boolean (val : Bool) (buf : List Byte) : List Byte := putByte (if val then 1 else 0) (putInt32Be native 1 buf)

/-- `DoublePrecision::encode`. -/
def doublePrecision (bits : UInt64) (buf : List Byte) : List Byte :=
  putInt64Be native bits.toInt64 (putInt32Be native 8 buf)

/-- The encoder of `PgTypeFor`. -/
def encode : (t : LogicalType) → t.CppType → List Byte → List Byte
  | .int64, val => bigInt native val
  | .int32, val => integer native val
  | .int16, val => smallInt native val
  | .char, val => char native val
  | .timestampCol, val => timestamptz native val
  | .text, val => text native val
  | .bool, val => boolean native val
  | .float64, val => doublePrecision native val

/-! ### Mapper -/

/-- The tuple of a row. -/
def Row : List LogicalType → Type
  | [] => Unit
  | t :: ts => t.CppType × Row ts

/-- `encode_fields`. -/
def encodeFields : (ts : List LogicalType) → Row ts → List Byte → List Byte
  | [], _, buf => buf
  | t :: ts, (value, row), buf => encodeFields ts row (encode native t value buf)

/-- `encode_row`. -/
def encodeRow (ts : List LogicalType) (row : Row ts) (buf : List Byte) : List Byte :=
  encodeFields native ts row (putInt16Be native (Int16.ofNat ts.length) buf)

/-- `PGCOPY\n\377\r\n\0`. -/
def magic : List Byte := [80, 71, 67, 79, 80, 89, 10, 255, 13, 10, 0]

/-- `write_copy_header`. -/
def writeCopyHeader (buf : List Byte) : List Byte := putInt32Be native 0 (putInt32Be native 0 (putBytes magic buf))

/-- `write_copy_trailer`. -/
def writeCopyTrailer (buf : List Byte) : List Byte := putInt16Be native (-1) buf

/-- A whole COPY stream. -/
def copyStream (ts : List LogicalType) (rows : List (Row ts)) : List Byte :=
  writeCopyTrailer native (rows.foldl (fun buf row => encodeRow native ts row buf) (writeCopyHeader native []))

end DbnPipe.Pg
