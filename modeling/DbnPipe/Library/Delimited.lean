import Mathlib.Data.List.Basic

/-!
# Texts cut at delimiters

* `breakAt` — what stands before the first occurrence of an element and behind it;
* `breakAtPair` — the same for two elements in a row, such as a carriage return and a line feed;
* what both give back of **a text with its delimiter**, and of texts without one;
* what `List.splitOn` gives back, and what `List.intercalate` makes of texts.
-/

namespace DbnPipe.Delimited

variable {α : Type*} [DecidableEq α]

/-- The text before the first `c`, and the text behind it. -/
def breakAt (c : α) : List α → Option (List α × List α)
  | [] => none
  | b :: l => if b = c then some ([], l) else (breakAt c l).map fun p => (b :: p.1, p.2)

theorem breakAt_append {c : α} {l : List α} (h : c ∉ l) (rest : List α) :
    breakAt c (l ++ c :: rest) = some (l, rest) := by
  induction l with
  | nil => exact if_pos rfl
  | cons b l ih =>
    rw [List.mem_cons, not_or] at h
    rw [List.cons_append, breakAt, if_neg (Ne.symm h.1), ih h.2]
    rfl

theorem breakAt_of_not_mem {c : α} {l : List α} (h : c ∉ l) : breakAt c l = none := by
  induction l with
  | nil => rfl
  | cons b l ih =>
    rw [List.mem_cons, not_or] at h
    rw [breakAt, if_neg (Ne.symm h.1), ih h.2]
    rfl

theorem not_mem_of_breakAt {c : α} {l : List α} (h : breakAt c l = none) : c ∉ l := by
  induction l with
  | nil => exact List.not_mem_nil
  | cons b l ih =>
    rw [breakAt] at h
    split at h
    · cases h
    · rename_i hb
      rw [List.mem_cons, not_or]
      exact ⟨fun hc => hb hc.symm, ih (Option.map_eq_none_iff.mp h)⟩

/-- The text before the first `c` that is followed by `d`, and the text behind both. -/
def breakAtPair (c d : α) : List α → Option (List α × List α)
  | [] => none
  | b :: l =>
    if b = c ∧ l.head? = some d then some ([], l.tail)
    else (breakAtPair c d l).map fun p => (b :: p.1, p.2)

theorem breakAtPair_append {c d : α} {l : List α} (h : c ∉ l) (rest : List α) :
    breakAtPair c d (l ++ c :: d :: rest) = some (l, rest) := by
  induction l with
  | nil => exact if_pos ⟨rfl, rfl⟩
  | cons b l ih =>
    rw [List.mem_cons, not_or] at h
    rw [List.cons_append, breakAtPair, if_neg fun heq => h.1 heq.1.symm, ih h.2]
    rfl

/-- A text without the pair, before a text that does not complete one, only delays the break. -/
theorem breakAtPair_append_of_none {c d : α} {l r : List α} (h : breakAtPair c d l = none) (hr : r.head? ≠ some d) :
    breakAtPair c d (l ++ r) = (breakAtPair c d r).map fun p => (l ++ p.1, p.2) := by
  induction l with
  | nil => cases hbreak : breakAtPair c d r <;> simp [hbreak]
  | cons b l ih =>
    rw [breakAtPair] at h
    split at h
    · cases h
    · rename_i hpair
      have hpair' : ¬(b = c ∧ (l ++ r).head? = some d) := by
        rintro ⟨hb, hhead⟩
        cases l with
        | nil => exact hr hhead
        | cons b' l => exact hpair ⟨hb, hhead⟩
      rw [List.cons_append, breakAtPair, if_neg hpair', ih (Option.map_eq_none_iff.mp h), Option.map_map]
      rfl

/-- Texts without the pair make one without it, where the second does not complete it. -/
theorem breakAtPair_append_eq_none {c d : α} {l r : List α} (hl : breakAtPair c d l = none)
    (hr : breakAtPair c d r = none) (hhead : r.head? ≠ some d) : breakAtPair c d (l ++ r) = none := by
  rw [breakAtPair_append_of_none hl hhead, hr]
  rfl

/-- **What a break gives back** makes up the text, and its first part has no pair. -/
theorem breakAtPair_eq_some {c d : α} {l x y : List α} (h : breakAtPair c d l = some (x, y)) :
    l = x ++ c :: d :: y ∧ breakAtPair c d x = none := by
  induction l generalizing x with
  | nil => cases h
  | cons b l ih =>
    rw [breakAtPair] at h
    split at h
    · rename_i hpair
      obtain ⟨rfl, hhead⟩ := hpair
      obtain ⟨l', rfl⟩ : ∃ l', l = d :: l' := ⟨l.tail, (List.cons_head?_tail hhead).symm⟩
      simp only [List.tail_cons, Option.some.injEq, Prod.mk.injEq] at h
      obtain ⟨rfl, rfl⟩ := h
      exact ⟨rfl, rfl⟩
    · rename_i hpair
      obtain ⟨p, hp, heq⟩ := Option.map_eq_some_iff.mp h
      rw [Prod.mk.injEq] at heq
      obtain ⟨rfl, rfl⟩ := heq
      obtain ⟨hl, hx⟩ := ih hp
      refine ⟨congrArg (b :: ·) hl, ?_⟩
      have hpair' : ¬(b = c ∧ p.1.head? = some d) := by
        rintro ⟨hb, hhead⟩
        refine hpair ⟨hb, ?_⟩
        rw [hl, List.head?_append, hhead]
        rfl
      rw [breakAtPair, if_neg hpair', hx]
      rfl

/-- Parts of a text without the pair have none. -/
theorem breakAtPair_of_append {c d : α} {x y : List α} (h : breakAtPair c d (x ++ y) = none) :
    breakAtPair c d x = none ∧ breakAtPair c d y = none := by
  induction x with
  | nil => exact ⟨rfl, h⟩
  | cons b x ih =>
    rw [List.cons_append, breakAtPair] at h
    split at h
    · cases h
    · rename_i hpair
      obtain ⟨hx, hy⟩ := ih (Option.map_eq_none_iff.mp h)
      refine ⟨?_, hy⟩
      have hpair' : ¬(b = c ∧ x.head? = some d) := by
        rintro ⟨hb, hhead⟩
        refine hpair ⟨hb, ?_⟩
        rw [List.head?_append, hhead]
        rfl
      rw [breakAtPair, if_neg hpair', hx]
      rfl

theorem breakAtPair_of_not_mem {c d : α} {l : List α} (h : c ∉ l) : breakAtPair c d l = none := by
  induction l with
  | nil => rfl
  | cons b l ih =>
    rw [List.mem_cons, not_or] at h
    rw [breakAtPair, if_neg fun hpair => h.1 hpair.1.symm, ih h.2]
    rfl

/-- What a break at one element gives back makes up the text. -/
theorem breakAt_eq_some {c : α} {l x y : List α} (h : breakAt c l = some (x, y)) : l = x ++ c :: y ∧ c ∉ x := by
  induction l generalizing x with
  | nil => cases h
  | cons b l ih =>
    rw [breakAt] at h
    split at h
    · rename_i hb
      simp only [Option.some.injEq, Prod.mk.injEq] at h
      obtain ⟨rfl, rfl⟩ := h
      exact ⟨congrArg (· :: l) hb, List.not_mem_nil⟩
    · rename_i hb
      obtain ⟨p, hp, heq⟩ := Option.map_eq_some_iff.mp h
      rw [Prod.mk.injEq] at heq
      obtain ⟨rfl, rfl⟩ := heq
      obtain ⟨hl, hx⟩ := ih hp
      refine ⟨congrArg (b :: ·) hl, ?_⟩
      rw [List.mem_cons, not_or]
      exact ⟨fun hc => hb hc.symm, hx⟩

/-! ### Lists of texts -/

/-- No part of a text cut at an element contains it. -/
theorem not_mem_of_mem_splitOn {c : α} {l x : List α} (hx : x ∈ l.splitOn c) : c ∉ x := by
  induction l generalizing x with
  | nil =>
    rw [List.splitOn_nil, List.mem_singleton] at hx
    rw [hx]
    exact List.not_mem_nil
  | cons b l ih =>
    rw [List.splitOn_cons_eq_if_modifyHead] at hx
    split at hx
    · rcases List.mem_cons.mp hx with rfl | hx
      · exact List.not_mem_nil
      · exact ih hx
    · rename_i hb
      obtain ⟨y, ys, hsplit⟩ := List.exists_cons_of_ne_nil (List.splitOn_ne_nil c l)
      rw [hsplit, List.modifyHead_cons] at hx
      rw [hsplit] at ih
      rcases List.mem_cons.mp hx with rfl | hx
      · rw [List.mem_cons, not_or]
        exact ⟨fun hc => hb (beq_iff_eq.mpr hc.symm), ih List.mem_cons_self⟩
      · exact ih (List.mem_cons_of_mem y hx)

omit [DecidableEq α] in
/-- The length of texts joined by one element. -/
theorem length_intercalate (c : α) {ls : List (List α)} (hne : ls ≠ []) :
    ([c].intercalate ls).length + 1 = ls.flatten.length + ls.length := by
  induction ls with
  | nil => exact absurd rfl hne
  | cons x ls ih =>
    cases ls with
    | nil => simp
    | cons y ls =>
      have hrest := ih (List.cons_ne_nil y ls)
      rw [List.intercalate_cons_cons, List.flatten_cons]
      simp only [List.length_append, List.length_cons, List.length_nil] at hrest ⊢
      omega

omit [DecidableEq α] in
/-- What joined texts contain: the delimiter, and what the texts do. -/
theorem mem_intercalate {c b : α} {ls : List (List α)} (h : b ∈ [c].intercalate ls) : b = c ∨ ∃ x ∈ ls, b ∈ x := by
  induction ls with
  | nil => exact absurd h List.not_mem_nil
  | cons x ls ih =>
    cases ls with
    | nil =>
      rw [List.intercalate_singleton] at h
      exact .inr ⟨x, List.mem_cons_self, h⟩
    | cons y ls =>
      rw [List.intercalate_cons_cons] at h
      rcases List.mem_append.mp h with h | h
      · rcases List.mem_append.mp h with h | h
        · exact .inr ⟨x, List.mem_cons_self, h⟩
        · exact .inl (List.mem_singleton.mp h)
      · rcases ih h with h | ⟨z, hz, hb⟩
        · exact .inl h
        · exact .inr ⟨z, List.mem_cons_of_mem x hz, hb⟩

omit [DecidableEq α] in
/-- Each of the joined texts is a part of what they make. -/
theorem exists_intercalate {c : α} {ls : List (List α)} {x : List α} (hx : x ∈ ls) :
    ∃ y z, [c].intercalate ls = y ++ (x ++ z) := by
  induction ls with
  | nil => exact absurd hx List.not_mem_nil
  | cons w ls ih =>
    cases ls with
    | nil =>
      obtain rfl := List.mem_singleton.mp hx
      exact ⟨[], [], by simp⟩
    | cons w' ls =>
      rw [List.intercalate_cons_cons]
      rcases List.mem_cons.mp hx with rfl | hx
      · exact ⟨[], [c] ++ [c].intercalate (w' :: ls), by simp⟩
      · obtain ⟨y, z, h⟩ := ih hx
        exact ⟨w ++ [c] ++ y, z, by rw [h, List.append_assoc (w ++ [c])]⟩

/-- Texts without the pair, joined by an element that is not of it. -/
theorem breakAtPair_intercalate {c d e : α} (hc : e ≠ c) (hd : e ≠ d) {ls : List (List α)}
    (h : ∀ x ∈ ls, breakAtPair c d x = none) : breakAtPair c d ([e].intercalate ls) = none := by
  induction ls with
  | nil => rfl
  | cons x ls ih =>
    have hx := h x List.mem_cons_self
    cases ls with
    | nil =>
      rw [List.intercalate_singleton]
      exact hx
    | cons y ls =>
      have hrest := ih fun z hz => h z (List.mem_cons_of_mem x hz)
      rw [List.intercalate_cons_cons, List.append_assoc]
      refine breakAtPair_append_eq_none hx ?_ fun hhead => hd (Option.some.inj hhead)
      rw [List.singleton_append, breakAtPair, if_neg fun hpair => hc hpair.1, hrest]
      rfl

end DbnPipe.Delimited
