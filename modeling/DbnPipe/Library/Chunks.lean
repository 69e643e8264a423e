import Mathlib.Data.List.Basic
import Mathlib.Tactic.Common

/-!
# Byte strings held as a list of chunks

A buffer is often not one array but a list of pieces, read as their concatenation.  Everything here is
over an arbitrary piece type `σ` with a content function `f : σ → List α`:

* `flat` — the concatenation of the contents;
* `locate` — walk to the piece that holds a position, the loop every positional access starts with;
  `locate_split` says exactly where it stops and `locate_drop` that nothing is lost on the way;
* `gather` — collect `len` elements starting inside the first piece, the copy loop;
  `gather_locate` identifies it with a slice of `flat`;
* `InOnePiece` — a slice lies inside one piece; `locate_fits_iff` decides it by one comparison.
-/

namespace DbnPipe.Chunks

variable {α σ : Type*} (f : σ → List α)

/-- The contents of all pieces, in order. -/
def flat (cs : List σ) : List α := cs.flatMap f

@[simp] theorem flat_nil : flat f [] = [] := rfl

@[simp] theorem flat_cons (c : σ) (cs : List σ) : flat f (c :: cs) = f c ++ flat f cs := by
  simp only [flat, List.flatMap_cons]

@[simp] theorem flat_append (cs ds : List σ) : flat f (cs ++ ds) = flat f cs ++ flat f ds := by
  simp only [flat, List.flatMap_append]

theorem flat_congr {g : σ → List α} {cs : List σ} (h : ∀ c ∈ cs, f c = g c) :
    flat f cs = flat g cs := by
  induction cs with
  | nil => rfl
  | cons c cs ih =>
    rw [flat_cons, flat_cons, h c (by simp), ih (fun d hd => h d (by simp [hd]))]

/-! ### Walking to a position -/

/-- Skip whole pieces while the position lies past them: the pieces from the one holding `pos` on, and the
position inside it. -/
def locate : List σ → ℕ → List σ × ℕ
  | [], pos => ([], pos)
  | c :: cs, pos => if (f c).length ≤ pos then locate cs (pos - (f c).length) else (c :: cs, pos)

/-- **Where the walk stops.**  The pieces skipped are a prefix whose length is what was subtracted. -/
theorem locate_split (cs : List σ) (pos : ℕ) :
    ∃ pre, cs = pre ++ (locate f cs pos).1 ∧ pos = (flat f pre).length + (locate f cs pos).2 := by
  induction cs generalizing pos with
  | nil => exact ⟨[], by simp [locate]⟩
  | cons c cs ih =>
    by_cases h : (f c).length ≤ pos
    · obtain ⟨pre, h1, h2⟩ := ih (pos - (f c).length)
      refine ⟨c :: pre, ?_, ?_⟩
      · rw [locate, if_pos h, List.cons_append, ← h1]
      · rw [locate, if_pos h, flat_cons, List.length_append]
        omega
    · exact ⟨[], by simp [locate, h]⟩

/-- The piece the walk stops at holds the position. -/
theorem locate_lt {cs : List σ} {pos p : ℕ} {c : σ} {rest : List σ}
    (h : locate f cs pos = (c :: rest, p)) : p < (f c).length := by
  induction cs generalizing pos with
  | nil => simp [locate] at h
  | cons d ds ih =>
    by_cases hd : (f d).length ≤ pos
    · rw [locate, if_pos hd] at h
      exact ih h
    · rw [locate, if_neg hd] at h
      simp only [Prod.mk.injEq, List.cons.injEq] at h
      obtain ⟨⟨rfl, -⟩, rfl⟩ := h
      omega

/-- Nothing is lost by the walk. -/
theorem locate_drop (cs : List σ) (pos : ℕ) :
    (flat f (locate f cs pos).1).drop (locate f cs pos).2 = (flat f cs).drop pos := by
  obtain ⟨pre, h1, h2⟩ := locate_split f cs pos
  have hflat : flat f cs = flat f pre ++ flat f (locate f cs pos).1 := by
    rw [← flat_append, ← h1]
  have hpre : (flat f pre).drop pos = [] := List.drop_of_length_le (by omega)
  rw [hflat, List.drop_append, hpre, List.nil_append]
  congr 1
  omega

/-- The walk finds a piece exactly when the position is inside the contents. -/
theorem locate_eq_nil_iff (cs : List σ) (pos : ℕ) :
    (locate f cs pos).1 = [] ↔ (flat f cs).length ≤ pos := by
  induction cs generalizing pos with
  | nil => simp [locate]
  | cons c cs ih =>
    by_cases h : (f c).length ≤ pos
    · rw [locate, if_pos h, ih, flat_cons, List.length_append]
      omega
    · rw [locate, if_neg h, flat_cons, List.length_append]
      simp only [reduceCtorEq, false_iff]
      omega

/-- A position inside the contents is found in some piece. -/
theorem locate_of_lt {cs : List σ} {pos : ℕ} (h : pos < (flat f cs).length) :
    ∃ c rest p, locate f cs pos = (c :: rest, p) ∧ p < (f c).length := by
  cases hl : (locate f cs pos).1 with
  | nil => exact absurd ((locate_eq_nil_iff f cs pos).1 hl) (by omega)
  | cons c rest =>
    have heq : locate f cs pos = (c :: rest, (locate f cs pos).2) := by rw [← hl]
    exact ⟨c, rest, _, heq, locate_lt f heq⟩

/-- The element at a position is the element the walk points at. -/
theorem locate_getElem? {cs : List σ} {pos p : ℕ} {c : σ} {rest : List σ}
    (h : locate f cs pos = (c :: rest, p)) : (f c)[p]? = (flat f cs)[pos]? := by
  have hd := locate_drop f cs pos
  rw [h] at hd
  have h0 := congrArg (fun l => l[0]?) hd
  simp only [flat_cons, List.getElem?_drop, Nat.add_zero] at h0
  rw [← h0, List.getElem?_append_left (locate_lt f h)]

/-! ### Copying a slice -/

/-- Copy `len` elements, starting at `pos` inside the first piece and going on through the next ones. -/
def gather : List σ → ℕ → ℕ → List α
  | [], _, _ => []
  | c :: cs, pos, len =>
    if len = 0 then []
    else
      let toCopy := min ((f c).length - pos) len
      ((f c).drop pos).take toCopy ++ gather cs 0 (len - toCopy)

theorem gather_eq {cs : List σ} {pos : ℕ} (len : ℕ) (h : ∀ c ∈ cs.head?, pos ≤ (f c).length) :
    gather f cs pos len = ((flat f cs).drop pos).take len := by
  induction cs generalizing pos len with
  | nil => simp [gather]
  | cons c cs ih =>
    have hp : pos ≤ (f c).length := h c (by simp)
    by_cases h0 : len = 0
    · simp [gather, h0]
    · simp only [gather, if_neg h0]
      rw [flat_cons, List.drop_append_of_le_length hp, ih _ (fun _ _ => Nat.zero_le _),
        List.drop_zero, List.take_append, List.length_drop]
      by_cases hle : len ≤ (f c).length - pos
      · rw [Nat.min_eq_right hle]
        simp [Nat.sub_eq_zero_of_le hle]
      · rw [Nat.min_eq_left (by omega), List.take_of_length_le (by simp),
          List.take_of_length_le (l := (f c).drop pos) (by simp; omega)]

/-- **The copy loop after the walk** is the slice of the contents. -/
theorem gather_locate (cs : List σ) (pos len : ℕ) :
    gather f (locate f cs pos).1 (locate f cs pos).2 len = ((flat f cs).drop pos).take len := by
  rw [gather_eq, locate_drop]
  intro c hc
  cases hl : (locate f cs pos).1 with
  | nil => simp [hl] at hc
  | cons d rest =>
    rw [hl] at hc
    obtain rfl : d = c := by simpa using hc
    have heq : locate f cs pos = (d :: rest, (locate f cs pos).2) := by rw [← hl]
    exact Nat.le_of_lt (locate_lt f heq)

/-! ### Slices inside one piece -/

/-- The slice `[pos, pos + len)` of the contents lies inside a single piece. -/
def InOnePiece (cs : List σ) (pos len : ℕ) : Prop :=
  ∃ pre c post, cs = pre ++ c :: post ∧ (flat f pre).length ≤ pos ∧
    pos + len ≤ (flat f pre).length + (f c).length

/-- **One comparison decides it**: a non-empty slice lies inside one piece exactly when it ends inside the
piece the walk stops at. -/
theorem locate_fits_iff (cs : List σ) (pos : ℕ) {len : ℕ} (hlen : 0 < len) :
    (∃ c rest p, locate f cs pos = (c :: rest, p) ∧ p + len ≤ (f c).length) ↔
      InOnePiece f cs pos len := by
  constructor
  · rintro ⟨c, rest, p, hl, hp⟩
    obtain ⟨pre, h1, h2⟩ := locate_split f cs pos
    rw [hl] at h1 h2
    exact ⟨pre, c, rest, h1, by simp only at h2; omega, by simp only at h2; omega⟩
  · rintro ⟨pre, c, post, rfl, h1, h2⟩
    refine ⟨c, post, pos - (flat f pre).length, ?_, by omega⟩
    induction pre generalizing pos with
    | nil =>
      simp only [flat_nil, List.length_nil, Nat.zero_add] at h2
      rw [List.nil_append, locate, if_neg (by omega)]
      simp
    | cons d pre ih =>
      rw [flat_cons, List.length_append] at h1 h2
      rw [List.cons_append, locate, if_pos (by omega), ih _ (by omega) (by omega), flat_cons,
        List.length_append, Nat.sub_sub]

end DbnPipe.Chunks
