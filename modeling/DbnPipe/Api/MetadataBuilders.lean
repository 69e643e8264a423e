import DbnPipe.Api.JsonParser

/-!
# The builders of the metadata client

`RecordCountBuilder`, `BillableSizeBuilder` and `DatasetRangeBuilder` of `src/api/metadata_client.hpp`.

* `CountBuilder` — the last integer of the response, **as a `uint64_t`**;
* `recordCountBuilder`, `billableSizeBuilder` — the two that differ in the text of their error only;
* `datasetRangeBuilder` — the last `start` and `end`.
-/

namespace DbnPipe.Api

/-- The member of `RecordCountBuilder` and of `BillableSizeBuilder`. -/
structure CountBuilder where
  value : Option ℕ := none
deriving DecidableEq, Repr

/-- `static_cast<uint64_t>` of an `int64_t`. -/
def toUint64 (v : ℤ) : ℕ := (v % 2 ^ 64).toNat

/-- A builder of a count, with the text of its error. -/
def countBuilder (missing : String) : JsonBuilder CountBuilder ℕ where
  onKey _ := id
  onString _ := id
  onInt v b := { b with value := some (toUint64 v) }
  onUint v b := { b with value := some v }
  onDouble _ := id
  onBool _ := id
  onNull := id
  onStartObject := id
  onEndObject := id
  onStartArray := id
  onEndArray := id
  build b := match b.value with
    | none => .error missing
    | some v => .ok v

/-- `RecordCountBuilder`. -/
def recordCountBuilder : JsonBuilder CountBuilder ℕ := countBuilder "missing record count value"

/-- `BillableSizeBuilder`. -/
def billableSizeBuilder : JsonBuilder CountBuilder ℕ := countBuilder "missing billable size value"

/-- `DatasetRange`. -/
structure DatasetRange where
  start : String
  «end» : String
deriving DecidableEq, Repr

/-- The members of `DatasetRangeBuilder`. -/
structure DatasetRangeBuilder where
  currentKey : String := ""
  start : Option String := none
  «end» : Option String := none
deriving DecidableEq, Repr

/-- `DatasetRangeBuilder`. -/
def datasetRangeBuilder : JsonBuilder DatasetRangeBuilder DatasetRange where
  onKey key b := { b with currentKey := key }
  onString value b :=
    if b.currentKey = "start" then { b with start := some value }
    else if b.currentKey = "end" then { b with «end» := some value }
    else b
  onInt _ := id
  onUint _ := id
  onDouble _ := id
  onBool _ := id
  onNull := id
  onStartObject := id
  onEndObject := id
  onStartArray := id
  onEndArray := id
  build b := match b.start, b.end with
    | none, _ => .error "missing 'start' field"
    | some _, none => .error "missing 'end' field"
    | some start, some «end» => .ok ⟨start, «end»⟩

/-! ### Counts -/

/-- The count of an event. -/
def countOf : SaxEvent → Option ℕ
  | .int i | .int64 i => some (toUint64 i)
  | .uint u | .uint64 u => some u
  | _ => none

/-- A number is held by 64 bits. -/
def Fits (minus : Bool) (n : ℕ) : Prop := if minus then n ≤ 2 ^ 63 else n < 2 ^ 64

instance (minus : Bool) (n : ℕ) : Decidable (Fits minus n) :=
  inferInstanceAs (Decidable (if minus then n ≤ 2 ^ 63 else n < 2 ^ 64))

/-- An integer counts if 64 bits hold it. -/
theorem countOf_integerEvent_isSome (minus : Bool) (n : ℕ) :
    (countOf (Json.integerEvent minus n)).isSome = true ↔ Fits minus n := by
  rw [Json.integerEvent, Fits]
  cases minus <;> simp only [Bool.false_eq_true, if_true, if_false] <;> split_ifs <;> simp [countOf] <;> omega

/-- Different integers of one sign give different counts. -/
theorem count_injective {minus : Bool} {m n x : ℕ} (hm : countOf (Json.integerEvent minus m) = some x)
    (hn : countOf (Json.integerEvent minus n) = some x) : m = n := by
  rw [Json.integerEvent] at hm hn
  cases minus <;> simp only [Bool.false_eq_true, if_true, if_false] at hm hn <;> split_ifs at hm hn <;>
    simp only [countOf, toUint64, Option.some.injEq, reduceCtorEq] at hm hn <;> omega

theorem build_countBuilder (missing : String) (e : SaxEvent) (x : ℕ) :
    (countBuilder missing).build ((countBuilder missing).handle {} e) = .ok x ↔ countOf e = some x := by
  cases e <;> simp [countBuilder, JsonBuilder.handle, countOf]

end DbnPipe.Api
