import Mathlib.Data.List.Basic
import Mathlib.Tactic.Common
import Mathlib.Tactic.Ring

/-!
# Numbers as bytes

A number of a fixed width in memory, least significant byte first or last.

* `bytesLE k n` — the `k` low bytes of `n`, the least significant first; `ofLE` — the number that bytes make;
* `ofLE_bytesLE`, `bytesLE_ofLE` — **the two are inverse** on numbers below `256 ^ k` and on `k` bytes;
* `bytesBE`, `ofBE` — the same with the most significant byte first;
* `split k` — the first `k` bytes of a text, if it has that many, and `split_append`.
-/

namespace DbnPipe.Endian

/-- The `k` low bytes, the least significant first. -/
def bytesLE : ℕ → ℕ → List UInt8
  | 0, _ => []
  | k + 1, n => UInt8.ofNat n :: bytesLE k (n / 256)

/-- The number of bytes with the least significant first. -/
def ofLE (l : List UInt8) : ℕ := l.foldr (fun b n => b.toNat + 256 * n) 0

@[simp] theorem length_bytesLE (k n : ℕ) : (bytesLE k n).length = k := by
  induction k generalizing n with
  | zero => rfl
  | succ k ih => rw [bytesLE, List.length_cons, ih]

theorem ofLE_bytesLE (k n : ℕ) : ofLE (bytesLE k n) = n % 256 ^ k := by
  induction k generalizing n with
  | zero => exact (Nat.mod_one n).symm
  | succ k ih =>
    have hbyte : (UInt8.ofNat n).toNat = n % 256 := UInt8.toNat_ofNat'
    show (UInt8.ofNat n).toNat + 256 * ofLE (bytesLE k (n / 256)) = _
    rw [ih, hbyte, pow_succ' 256 k, Nat.mod_mul]

theorem bytesLE_ofLE (l : List UInt8) : bytesLE l.length (ofLE l) = l := by
  induction l with
  | nil => rfl
  | cons b l ih =>
    have hb : b.toNat < 256 := b.toNat_lt
    have hbyte : UInt8.ofNat (b.toNat + 256 * ofLE l) = b := by
      rw [← UInt8.toNat_inj, UInt8.toNat_ofNat']
      omega
    have hrest : (b.toNat + 256 * ofLE l) / 256 = ofLE l := by omega
    show UInt8.ofNat (b.toNat + 256 * ofLE l) :: bytesLE l.length ((b.toNat + 256 * ofLE l) / 256) = _
    rw [hbyte, hrest, ih]

/-- The `k` low bytes, the most significant first. -/
def bytesBE (k n : ℕ) : List UInt8 := (bytesLE k n).reverse

/-- The number of bytes with the most significant first. -/
def ofBE (l : List UInt8) : ℕ := ofLE l.reverse

@[simp] theorem length_bytesBE (k n : ℕ) : (bytesBE k n).length = k := by
  rw [bytesBE, List.length_reverse, length_bytesLE]

theorem ofBE_bytesBE {k n : ℕ} (h : n < 256 ^ k) : ofBE (bytesBE k n) = n := by
  rw [ofBE, bytesBE, List.reverse_reverse, ofLE_bytesLE, Nat.mod_eq_of_lt h]

/-- The first `k` bytes, and the others. -/
def split (k : ℕ) (l : List UInt8) : Option (List UInt8 × List UInt8) :=
  if k ≤ l.length then some (l.take k, l.drop k) else none

theorem split_append (x rest : List UInt8) : split x.length (x ++ rest) = some (x, rest) := by
  rw [split, if_pos (by rw [List.length_append]; exact Nat.le_add_right _ _), List.take_left, List.drop_left]

theorem split_append_of_length {x : List UInt8} {k : ℕ} (h : x.length = k) (rest : List UInt8) :
    split k (x ++ rest) = some (x, rest) := h ▸ split_append x rest

end DbnPipe.Endian
