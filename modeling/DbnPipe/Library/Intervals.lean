import Mathlib.Order.Defs.LinearOrder
import Mathlib.Order.Basic
import Mathlib.Data.List.Basic
import Mathlib.Data.List.Pairwise
import Mathlib.Order.Lattice

/-!
# Half-open intervals, and searching them

Intervals are the elements of any type `ι` with a `start` and a `stop` in a linear order.

* `Covers`, `Apart` — a point inside an interval, and **two intervals without a common point**;
* `Apart.unique` — at most one of pairwise apart intervals covers a point;
* `upperBound` — **the binary search** of the first element that satisfies a predicate, on a list where the
  predicate stays true once it is;
* `upperBound_spec` — what it finds.
-/

namespace DbnPipe.Intervals

variable {ι δ : Type*}

section order

variable [LinearOrder δ] {start stop : ι → δ}

/-- The point is in the interval, whose end is outside. -/
def Covers (start stop : ι → δ) (i : ι) (d : δ) : Prop := start i ≤ d ∧ d < stop i

instance (i : ι) (d : δ) : Decidable (Covers start stop i d) := inferInstanceAs (Decidable (_ ∧ _))

/-- One of the intervals ends before the other starts. -/
def Apart (start stop : ι → δ) (i j : ι) : Prop := stop i ≤ start j ∨ stop j ≤ start i

instance (i j : ι) : Decidable (Apart start stop i j) := inferInstanceAs (Decidable (_ ∨ _))

instance : Std.Symm (Apart start stop) := ⟨fun _ _ h => Or.symm h⟩

/-- Two intervals that cover a point are not apart. -/
theorem Apart.not_covers {i j : ι} (h : Apart start stop i j) {d : δ} (hi : Covers start stop i d) :
    ¬ Covers start stop j d := by
  intro hj
  rcases h with h | h
  · exact absurd (hi.2.trans_le (h.trans hj.1)) (lt_irrefl d)
  · exact absurd (hj.2.trans_le (h.trans hi.1)) (lt_irrefl d)

/-- At most one of pairwise apart intervals covers a point. -/
theorem Apart.unique {l : List ι} (h : l.Pairwise (Apart start stop)) {i j : ι} (hi : i ∈ l) (hj : j ∈ l) {d : δ}
    (hid : Covers start stop i d) (hjd : Covers start stop j d) : i = j := by
  by_contra hne
  exact (h.forall hi hj hne).not_covers hid hjd

/-- An interval that covers the end of another one, and is apart from it, starts there. -/
theorem Apart.start_eq_of_covers_stop {i j : ι} (h : Apart start stop i j) (hi : start i < stop i)
    (hj : Covers start stop j (stop i)) : start j = stop i := by
  rcases h with h | h
  · exact le_antisymm hj.1 h
  · exact absurd (hi.trans (hj.2.trans_le h)) (lt_irrefl _)

end order

/-! ### Binary search -/

/-- What stands at two places of a sorted list is in the order of the places. -/
theorem getElem?_pairwise {r : ι → ι → Prop} (hrefl : ∀ a, r a a) {l : List ι} (h : l.Pairwise r) {k k' : ℕ}
    (hle : k ≤ k') {a b : ι} (ha : l[k]? = some a) (hb : l[k']? = some b) : r a b := by
  obtain ⟨hk, rfl⟩ := List.getElem?_eq_some_iff.mp ha
  obtain ⟨hk', rfl⟩ := List.getElem?_eq_some_iff.mp hb
  rcases Nat.eq_or_lt_of_le hle with heq | hlt
  · subst heq
    exact hrefl _
  · exact List.pairwise_iff_getElem.mp h k k' hk hk' hlt

/-- The search among the `len` elements from `first` on; `fuel` is at least `len`. -/
def upperBoundFrom (above : ι → Bool) (l : List ι) : ℕ → ℕ → ℕ → ℕ
  | 0, first, _ => first
  | fuel + 1, first, len =>
    if len = 0 then first
    else
      let half := len / 2
      match l[first + half]? with
      | none => first
      | some x =>
        if above x then upperBoundFrom above l fuel first half
        else upperBoundFrom above l fuel (first + half + 1) (len - half - 1)

/-- The position of the first element that is `above`, or the length of the list. -/
def upperBound (above : ι → Bool) (l : List ι) : ℕ := upperBoundFrom above l l.length 0 l.length

/-- `r` parts the list: nothing before it is above, everything from it on is. -/
structure Parts (above : ι → Bool) (l : List ι) (r : ℕ) : Prop where
  le : r ≤ l.length
  below : ∀ k < r, ∀ x, l[k]? = some x → above x = false
  above : ∀ k ≥ r, ∀ x, l[k]? = some x → above x = true

/-- The invariant of the search: the answer is between `first` and `first + len`. -/
theorem upperBoundFrom_spec {above : ι → Bool} {l : List ι}
    (hmono : l.Pairwise fun x y => above x = true → above y = true) :
    ∀ fuel first len, len ≤ fuel → first + len ≤ l.length →
      (∀ k < first, ∀ x, l[k]? = some x → above x = false) →
      (∀ k ≥ first + len, ∀ x, l[k]? = some x → above x = true) →
      Parts above l (upperBoundFrom above l fuel first len)
  | 0, first, len, hfuel, hle, hbelow, habove => by
      obtain rfl : len = 0 := by omega
      exact ⟨hle, hbelow, habove⟩
  | fuel + 1, first, len, hfuel, hle, hbelow, habove => by
      rw [upperBoundFrom]
      by_cases hzero : len = 0
      · rw [if_pos hzero]
        subst hzero
        exact ⟨hle, hbelow, habove⟩
      · have hmid : first + len / 2 < l.length := by omega
        have hget : l[first + len / 2]? = some l[first + len / 2] := List.getElem?_eq_getElem hmid
        have hpair : ∀ (i j : ℕ) x y, i < j → l[i]? = some x → l[j]? = some y → above x = true → above y = true := by
          intro i j x y hij hx hy
          obtain ⟨hi, rfl⟩ := List.getElem?_eq_some_iff.mp hx
          obtain ⟨hj, rfl⟩ := List.getElem?_eq_some_iff.mp hy
          exact List.pairwise_iff_getElem.mp hmono i j hi hj hij
        rw [if_neg hzero]
        simp only [hget]
        cases hx : above l[first + len / 2] with
        | true =>
            rw [if_pos rfl]
            refine upperBoundFrom_spec hmono fuel first (len / 2) (by omega) (by omega) hbelow fun k hk y hy => ?_
            rcases Nat.eq_or_lt_of_le hk with heq | hlt
            · rw [← heq, hget, Option.some.injEq] at hy
              rw [← hy]
              exact hx
            · exact hpair _ k _ y hlt hget hy hx
        | false =>
            rw [if_neg Bool.false_ne_true]
            refine upperBoundFrom_spec hmono fuel (first + len / 2 + 1) (len - len / 2 - 1) (by omega) (by omega)
              (fun k hk y hy => ?_) fun k hk y hy => habove k (by omega) y hy
            cases hy' : above y with
            | false => rfl
            | true =>
                have hback : above l[first + len / 2] = true := by
                  rcases Nat.eq_or_lt_of_le (Nat.le_of_lt_succ hk) with heq | hlt
                  · rw [heq, hget, Option.some.injEq] at hy
                    rw [hy]
                    exact hy'
                  · exact hpair k _ y _ hlt hy hget hy'
                rw [hx] at hback
                exact hback.symm

/-- **The binary search.** -/
theorem upperBound_spec {above : ι → Bool} {l : List ι}
    (hmono : l.Pairwise fun x y => above x = true → above y = true) : Parts above l (upperBound above l) := by
  refine upperBoundFrom_spec hmono l.length 0 l.length (Nat.le_refl _) (by omega)
    (fun k hk => absurd hk (Nat.not_lt_zero k)) fun k hk x hx => ?_
  have hlt := (List.getElem?_eq_some_iff.mp hx).1
  omega

end DbnPipe.Intervals
