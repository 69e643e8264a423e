import Mathlib.Data.List.Basic
import Mathlib.Tactic.Common

/-!
# Incremental framing: parsing a stream as it arrives

A framed stream is an optional preamble followed by items, each recognised from the front of what has
arrived so far.  A recogniser looks at a buffer and answers `more` (wait), `item b n` (the first `n`
elements are the item `b`) or `bad e`; it is **stable** when more input never changes an answer other than
`more`.  From stability alone:

* `drain` — take items off the front while there are complete ones; `drain_append` says that draining in
  two steps is draining once;
* `feed` — one delivery of new input to a parser that keeps what it could not use yet;
* `feed_append` — **split independence**: two deliveries are one, outputs and left-over buffer alike, also
  across the preamble and across an error;
* `feedAll_eq` — any cutting of a stream into deliveries gives what one delivery of the whole gives;
* `drain_items` — draining a concatenation of encoded items yields exactly these items.
-/

namespace DbnPipe.Framing

variable {α β σ ε : Type*}

/-- What a recogniser sees at the front of a buffer. -/
inductive Look (β ε : Type*) where
  | more : Look β ε
  | item : β → ℕ → Look β ε
  | bad : ε → Look β ε

/-- More input does not change an answer once there is one. -/
def Stable (look : List α → Look β ε) : Prop :=
  ∀ buf x, look buf = .more ∨ look (buf ++ x) = look buf

/-- A recogniser of a preamble: it may take no element at all. -/
structure Preamble (α σ ε : Type*) where
  look : List α → Look σ ε
  stable : Stable look
  fits : ∀ {buf s n}, look buf = .item s n → n ≤ buf.length

/-- A recogniser of items: every item takes at least one element. -/
structure Framer (α β ε : Type*) where
  look : List α → Look β ε
  stable : Stable look
  pos : ∀ {buf b n}, look buf = .item b n → 0 < n
  fits : ∀ {buf b n}, look buf = .item b n → n ≤ buf.length

/-! ### Draining complete items -/

/-- The items taken, the elements left, and the error met, if any. -/
structure Drained (α β ε : Type*) where
  items : List β
  rest : List α
  error : Option ε

/-- Take items off the front of the buffer while it starts with a complete one. -/
def drain (F : Framer α β ε) (buf : List α) : Drained α β ε :=
  match h : F.look buf with
  | .more => ⟨[], buf, none⟩
  | .bad e => ⟨[], buf, some e⟩
  | .item b n =>
    have _hpos := F.pos h
    have _hfits := F.fits h
    let d := drain F (buf.drop n)
    ⟨b :: d.items, d.rest, d.error⟩
termination_by buf.length
decreasing_by
  simp only [List.length_drop]
  omega

theorem drain_more (F : Framer α β ε) {buf : List α} (h : F.look buf = .more) :
    drain F buf = ⟨[], buf, none⟩ := by
  rw [drain]
  split <;> simp_all

theorem drain_bad (F : Framer α β ε) {buf : List α} {e : ε} (h : F.look buf = .bad e) :
    drain F buf = ⟨[], buf, some e⟩ := by
  rw [drain]
  split <;> simp_all

theorem drain_item (F : Framer α β ε) {buf : List α} {b : β} {n : ℕ} (h : F.look buf = .item b n) :
    drain F buf =
      ⟨b :: (drain F (buf.drop n)).items, (drain F (buf.drop n)).rest,
        (drain F (buf.drop n)).error⟩ := by
  rw [drain]
  split <;> simp_all

/-- The answer on a longer buffer, once there is one. -/
theorem Stable.append {look : List α → Look β ε} (hs : Stable look) {buf x : List α}
    (h : look buf ≠ .more) : look (buf ++ x) = look buf :=
  (hs buf x).resolve_left h

/-- An induction over the items at the front of a buffer. -/
theorem drain_induction (F : Framer α β ε) {motive : List α → Prop}
    (more : ∀ buf, F.look buf = .more → motive buf)
    (bad : ∀ buf e, F.look buf = .bad e → motive buf)
    (item : ∀ buf b n, F.look buf = .item b n → motive (buf.drop n) → motive buf) :
    ∀ buf, motive buf := by
  intro buf
  induction hlen : buf.length using Nat.strongRecOn generalizing buf with
  | _ len ih =>
    cases h : F.look buf with
    | more => exact more buf h
    | bad e => exact bad buf e h
    | item b n =>
      have hp := F.pos h
      have hf := F.fits h
      exact item buf b n h (ih _ (by rw [List.length_drop]; omega) _ rfl)

/-- **Draining in two steps is draining once**, also when the first step stops at an error. -/
theorem drain_append (F : Framer α β ε) (buf x : List α) :
    drain F (buf ++ x) =
      match (drain F buf).error with
      | some e => ⟨(drain F buf).items, (drain F buf).rest ++ x, some e⟩
      | none => ⟨(drain F buf).items ++ (drain F ((drain F buf).rest ++ x)).items,
          (drain F ((drain F buf).rest ++ x)).rest, (drain F ((drain F buf).rest ++ x)).error⟩ := by
  induction buf using drain_induction F with
  | more buf hm => simp [drain_more F hm]
  | bad buf e hb =>
    have hb' : F.look (buf ++ x) = .bad e := by rw [F.stable.append (by simp [hb]), hb]
    simp [drain_bad F hb, drain_bad F hb']
  | item buf b n hi ih =>
    have hi' : F.look (buf ++ x) = .item b n := by rw [F.stable.append (by simp [hi]), hi]
    rw [drain_item F hi', drain_item F hi, List.drop_append_of_le_length (F.fits hi), ih]
    cases (drain F (buf.drop n)).error <;> rfl

/-- Encoded items, one after another, are drained as these items. -/
theorem drain_items (F : Framer α β ε) (enc : β → List α) (bs : List β) (tail : List α)
    (henc : ∀ b ∈ bs, ∀ x, F.look (enc b ++ x) = .item b (enc b).length) :
    drain F (bs.flatMap enc ++ tail) =
      ⟨bs ++ (drain F tail).items, (drain F tail).rest, (drain F tail).error⟩ := by
  induction bs with
  | nil => rfl
  | cons b bs ih =>
    have hb := henc b (by simp) (bs.flatMap enc ++ tail)
    rw [← List.append_assoc, ← List.flatMap_cons] at hb
    rw [drain_item F hb, List.flatMap_cons, List.append_assoc, List.drop_left,
      ih fun c hc => henc c (by simp [hc])]
    rfl

/-- A drain loses nothing: the items taken, encoded, and the rest are the buffer. -/
theorem drain_conserves (F : Framer α β ε) (enc : β → List α)
    (henc : ∀ buf b n, F.look buf = .item b n → enc b = buf.take n) (buf : List α) :
    (drain F buf).items.flatMap enc ++ (drain F buf).rest = buf := by
  induction buf using drain_induction F with
  | more buf hm => rw [drain_more F hm]; rfl
  | bad buf e hb => rw [drain_bad F hb]; rfl
  | item buf b n hi ih =>
    rw [drain_item F hi, List.flatMap_cons, List.append_assoc, ih, henc buf b n hi,
      List.take_append_drop]

/-- What is left is the end of the buffer. -/
theorem drain_suffix (F : Framer α β ε) (buf : List α) : (drain F buf).rest <:+ buf := by
  induction buf using drain_induction F with
  | more buf hm =>
    rewrite [drain_more F hm]
    exact List.suffix_refl buf
  | bad buf e hb =>
    rewrite [drain_bad F hb]
    exact List.suffix_refl buf
  | item buf b n hi ih =>
    rw [drain_item F hi]
    exact ih.trans (List.drop_suffix n buf)

/-- What a drain without error leaves waits for more. -/
theorem look_rest (F : Framer α β ε) {buf : List α} (h : (drain F buf).error = none) :
    F.look (drain F buf).rest = .more := by
  induction buf using drain_induction F with
  | more buf hm =>
    rw [drain_more F hm]
    exact hm
  | bad buf e hb =>
    rw [drain_bad F hb] at h
    exact absurd h (by simp)
  | item buf b n hi ih =>
    rw [drain_item F hi] at h ⊢
    exact ih h

/-! ### Feeding a parser piece by piece -/

/-- The state of an incremental parser: the preamble once it is known, what has arrived and not been
used, and the error once there is one. -/
structure Progress (α σ ε : Type*) where
  phase : Option σ
  buffer : List α
  error : Option ε

/-- Nothing has arrived. -/
def Progress.start : Progress α σ ε := ⟨none, [], none⟩

/-- Take the items off `buf` in phase `s`. -/
def enter (F : σ → Framer α β ε) (s : σ) (buf : List α) : List β × Progress α σ ε :=
  ((drain (F s) buf).items, ⟨some s, (drain (F s) buf).rest, (drain (F s) buf).error⟩)

/-- Deliver `x`: the items that became complete, and the new state. -/
def feed (P : Preamble α σ ε) (F : σ → Framer α β ε) (p : Progress α σ ε) (x : List α) :
    List β × Progress α σ ε :=
  match p.error with
  | some _ => ([], { p with buffer := p.buffer ++ x })
  | none =>
    match p.phase with
    | some s => enter F s (p.buffer ++ x)
    | none =>
      match P.look (p.buffer ++ x) with
      | .more => ([], ⟨none, p.buffer ++ x, none⟩)
      | .bad e => ([], ⟨none, p.buffer ++ x, some e⟩)
      | .item s n => enter F s ((p.buffer ++ x).drop n)

/-- A delivery is taken in before it is looked at. -/
theorem feed_push (P : Preamble α σ ε) (F : σ → Framer α β ε) (p : Progress α σ ε) (x : List α) :
    feed P F p x = feed P F { p with buffer := p.buffer ++ x } [] := by
  simp only [feed, List.append_nil]

/-- After an error nothing more is taken off. -/
theorem feed_error (P : Preamble α σ ε) (F : σ → Framer α β ε) {p : Progress α σ ε}
    (h : p.error ≠ none) (x : List α) : feed P F p x = ([], { p with buffer := p.buffer ++ x }) := by
  cases he : p.error with
  | none => exact absurd he h
  | some e => simp only [feed, he]

/-- What a delivery leaves is the end of what there was. -/
theorem feed_suffix (P : Preamble α σ ε) (F : σ → Framer α β ε) (p : Progress α σ ε) (x : List α) :
    (feed P F p x).2.buffer <:+ p.buffer ++ x := by
  cases he : p.error with
  | some e =>
    rewrite [feed_error P F (by simp [he])]
    exact List.suffix_refl _
  | none =>
    cases hp : p.phase with
    | some s =>
      simp only [feed, he, hp, enter]
      exact drain_suffix (F s) _
    | none =>
      cases hl : P.look (p.buffer ++ x) with
      | more =>
        simp only [feed, he, hp, hl]
        exact List.suffix_refl _
      | bad e =>
        simp only [feed, he, hp, hl]
        exact List.suffix_refl _
      | item s n =>
        simp only [feed, he, hp, hl, enter]
        exact (drain_suffix (F s) _).trans (List.drop_suffix n _)

/-- The preamble is read once. -/
theorem feed_phase (P : Preamble α σ ε) (F : σ → Framer α β ε) {p : Progress α σ ε} {s : σ}
    (h : p.phase = some s) (x : List α) : (feed P F p x).2.phase = some s := by
  cases he : p.error with
  | some e => simp only [feed, he, h]
  | none => simp only [feed, he, h, enter]

/-- No item comes before the preamble is known. -/
theorem feed_items_of_none (P : Preamble α σ ε) (F : σ → Framer α β ε) {p : Progress α σ ε} {x : List α}
    (h : (feed P F p x).2.phase = none) : (feed P F p x).1 = [] := by
  cases he : p.error with
  | some e => simp only [feed, he]
  | none =>
    cases hp : p.phase with
    | some s =>
      rw [feed_phase P F hp] at h
      exact absurd h (by simp)
    | none =>
      cases hl : P.look (p.buffer ++ x) with
      | more => simp only [feed, he, hp, hl]
      | bad e => simp only [feed, he, hp, hl]
      | item s n => simp [feed, he, hp, hl, enter] at h

theorem enter_append (P : Preamble α σ ε) (F : σ → Framer α β ε) (s : σ) (buf y : List α) :
    enter F s (buf ++ y) =
      ((enter F s buf).1 ++ (feed P F (enter F s buf).2 y).1, (feed P F (enter F s buf).2 y).2) := by
  simp only [enter, feed, drain_append (F s) buf y]
  cases h : (drain (F s) buf).error with
  | some e => simp
  | none => rfl

/-- **Split independence.**  Two deliveries give what one delivery of their concatenation gives. -/
theorem feed_append (P : Preamble α σ ε) (F : σ → Framer α β ε) (p : Progress α σ ε) (x y : List α) :
    feed P F p (x ++ y) =
      ((feed P F p x).1 ++ (feed P F (feed P F p x).2 y).1, (feed P F (feed P F p x).2 y).2) := by
  obtain ⟨phase, buffer, error⟩ := p
  cases error with
  | some e => simp [feed]
  | none =>
    cases phase with
    | some s =>
      have h := enter_append P F s (buffer ++ x) y
      rw [List.append_assoc] at h
      simpa only [feed] using h
    | none =>
      cases hl : P.look (buffer ++ x) with
      | more => simp [feed, hl, List.append_assoc]
      | bad e =>
        have hl' := P.stable.append (x := y) (by rw [hl]; simp : P.look (buffer ++ x) ≠ .more)
        rw [hl, List.append_assoc] at hl'
        simp [feed, hl, hl', List.append_assoc]
      | item s n =>
        have hl' := P.stable.append (x := y) (by rw [hl]; simp : P.look (buffer ++ x) ≠ .more)
        rw [hl, List.append_assoc] at hl'
        have h := enter_append P F s ((buffer ++ x).drop n) y
        rw [← List.drop_append_of_le_length (P.fits hl), List.append_assoc] at h
        simpa only [feed, hl, hl'] using h

/-- Without error at the end, there was none on the way. -/
theorem error_of_feed_append (P : Preamble α σ ε) (F : σ → Framer α β ε) {p : Progress α σ ε} {x y : List α}
    (h : (feed P F p (x ++ y)).2.error = none) : (feed P F p x).2.error = none := by
  by_contra hne
  rw [feed_append, feed_error P F hne] at h
  exact hne h

/-- Deliver the pieces one after another, collecting what each delivery yields. -/
def feedAll (P : Preamble α σ ε) (F : σ → Framer α β ε) :
    Progress α σ ε → List (List α) → List (List β) × Progress α σ ε
  | p, [] => ([], p)
  | p, x :: xs =>
    let r := feed P F p x
    let rs := feedAll P F r.2 xs
    (r.1 :: rs.1, rs.2)

/-- Nothing complete is waiting in the buffer. -/
def Settled (P : Preamble α σ ε) (F : σ → Framer α β ε) (p : Progress α σ ε) : Prop :=
  feed P F p [] = ([], p)

/-- After a delivery nothing complete is waiting. -/
theorem feed_settled (P : Preamble α σ ε) (F : σ → Framer α β ε) (p : Progress α σ ε) (x : List α) :
    Settled P F (feed P F p x).2 := by
  have h := feed_append P F p x []
  rw [List.append_nil] at h
  have h1 := congrArg Prod.fst h
  have h2 := congrArg Prod.snd h
  simp only at h1 h2
  exact Prod.ext (List.append_cancel_left (by rw [List.append_nil]; exact h1.symm)) h2.symm

/-- **Any cutting gives what one delivery gives.** -/
theorem feedAll_eq (P : Preamble α σ ε) (F : σ → Framer α β ε) (p : Progress α σ ε)
    (hp : Settled P F p) (xs : List (List α)) :
    (feedAll P F p xs).1.flatten = (feed P F p xs.flatten).1 ∧
      (feedAll P F p xs).2 = (feed P F p xs.flatten).2 := by
  induction xs generalizing p with
  | nil =>
    rw [List.flatten_nil, show feed P F p [] = ([], p) from hp]
    exact ⟨rfl, rfl⟩
  | cons x xs ih =>
    obtain ⟨h1, h2⟩ := ih (feed P F p x).2 (feed_settled P F p x)
    rw [List.flatten_cons, feed_append]
    exact ⟨by simp only [feedAll, List.flatten_cons, h1], by simp only [feedAll, h2]⟩

/-- The first error is the one that stays. -/
theorem feedAll_of_error (P : Preamble α σ ε) (F : σ → Framer α β ε) {p : Progress α σ ε}
    (h : p.error ≠ none) (xs : List (List α)) : (feedAll P F p xs).2.error = p.error := by
  induction xs generalizing p with
  | nil => rfl
  | cons x xs ih =>
    have h1 := feed_error P F h x
    show (feedAll P F (feed P F p x).2 xs).2.error = p.error
    rw [ih (by rw [h1]; exact h), h1]

/-- A run that ends without error had none before. -/
theorem feedAll_error (P : Preamble α σ ε) (F : σ → Framer α β ε) {p : Progress α σ ε}
    {xs : List (List α)} (h : (feedAll P F p xs).2.error = none) : p.error = none := by
  by_contra hp
  rw [feedAll_of_error P F hp] at h
  exact hp h

theorem feedAll_append (P : Preamble α σ ε) (F : σ → Framer α β ε) (p : Progress α σ ε)
    (xs ys : List (List α)) :
    feedAll P F p (xs ++ ys) =
      ((feedAll P F p xs).1 ++ (feedAll P F (feedAll P F p xs).2 ys).1,
        (feedAll P F (feedAll P F p xs).2 ys).2) := by
  induction xs generalizing p with
  | nil => rfl
  | cons x xs ih => simp only [List.cons_append, feedAll, ih]

end DbnPipe.Framing
