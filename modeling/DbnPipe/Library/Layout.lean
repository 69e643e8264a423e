import Mathlib.Data.List.Basic
import Mathlib.Data.List.Pairwise
import Mathlib.Tactic.Common

/-!
# Memory windows and struct layouts

Code that reads a struct through a pointer sees memory from an address on, not a list of known length.

* `Window` — memory from a base address on; `slice` reads it, `overwrite` writes it;
* `Starts w l` — the window begins with the bytes `l`; what lies behind is unknown;
* `Struct F` — a packed layout with the fields `F`, every field **inside** the struct;
* `AgreeBelow n` — two windows hold the same first `n` bytes: reads of a struct whose fields lie inside them
  agree (`Struct.get_congr`), and so does everything computed from them;
* `AgreeOn a b` — the same for a range: **the last write to it is all that is seen** (`agreeOn_overwrite`);
* `Behind n` — writes to fields behind the first `n` bytes keep these bytes;
* `Shows` — a field of one struct has been written to its place in another, **and stays there** while fields
  are separate (`Shows.put`, `Shows.assignAll`, `Shows.copyAll`).
-/

namespace DbnPipe.Layout

variable {β F G : Type*}

/-- Memory from a base address on. -/
abbrev Window (β : Type*) := ℕ → β

/-- The `len` bytes from `off` on. -/
def slice (w : Window β) (off len : ℕ) : List β := (List.range len).map fun i => w (off + i)

@[simp] theorem length_slice (w : Window β) (off len : ℕ) : (slice w off len).length = len := by
  simp [slice]

theorem getElem?_slice (w : Window β) (off : ℕ) {len i : ℕ} (h : i < len) :
    (slice w off len)[i]? = some (w (off + i)) := by
  simp [slice, h]

/-- Write the bytes `bs` from `off` on. -/
def overwrite (w : Window β) (off : ℕ) (bs : List β) : Window β :=
  fun i => if off ≤ i then bs[i - off]?.getD (w i) else w i

theorem overwrite_of_lt (w : Window β) {off i : ℕ} (bs : List β) (h : i < off) :
    overwrite w off bs i = w i := by
  rw [overwrite, if_neg (by omega)]

theorem overwrite_of_ge (w : Window β) {off i : ℕ} (bs : List β) (h : off + bs.length ≤ i) :
    overwrite w off bs i = w i := by
  rw [overwrite, if_pos (by omega), List.getElem?_eq_none (by omega)]
  rfl

theorem overwrite_of_getElem? (w : Window β) {off i : ℕ} {bs : List β} {b : β} (h : bs[i]? = some b) :
    overwrite w off bs (off + i) = b := by
  rw [overwrite, if_pos (by omega), Nat.add_sub_cancel_left, h]
  rfl

/-- The window begins with `l`. -/
def Starts (w : Window β) (l : List β) : Prop := ∀ i < l.length, l[i]? = some (w i)

/-- What is written at the front is what the window begins with. -/
theorem starts_overwrite (w : Window β) (l : List β) : Starts (overwrite w 0 l) l := by
  intro i hi
  simp [overwrite, hi]

theorem Starts.slice {w : Window β} {l : List β} (h : Starts w l) : slice w 0 l.length = l := by
  apply List.ext_getElem?
  intro i
  rcases Nat.lt_or_ge i l.length with hi | hi
  · rw [getElem?_slice w 0 hi, Nat.zero_add, h i hi]
  · rw [List.getElem?_eq_none (by rw [length_slice]; exact hi), List.getElem?_eq_none hi]

/-- Memory that begins with `l` and holds the byte `a` behind it. -/
def padded (l : List β) (a : β) : Window β := overwrite (fun _ => a) 0 l

theorem starts_padded (l : List β) (a : β) : Starts (padded l a) l := starts_overwrite _ l

theorem padded_of_le {l : List β} (a : β) {i : ℕ} (h : l.length ≤ i) : padded l a i = a :=
  overwrite_of_ge _ l (by omega)

/-- The two windows hold the same first `n` bytes. -/
def AgreeBelow (n : ℕ) (w w' : Window β) : Prop := ∀ i < n, w i = w' i

theorem AgreeBelow.mono {n m : ℕ} {w w' : Window β} (h : AgreeBelow n w w') (hm : m ≤ n) :
    AgreeBelow m w w' :=
  fun i hi => h i (Nat.lt_of_lt_of_le hi hm)

theorem AgreeBelow.trans {n : ℕ} {w w' w'' : Window β} (h : AgreeBelow n w w') (h' : AgreeBelow n w' w'') :
    AgreeBelow n w w'' :=
  fun i hi => (h i hi).trans (h' i hi)

theorem Starts.agree {w w' : Window β} {l : List β} (h : Starts w l) (h' : Starts w' l) :
    AgreeBelow l.length w w' := by
  intro i hi
  exact Option.some.inj ((h i hi).symm.trans (h' i hi))

/-- Slices are equal byte by byte. -/
theorem slice_eq_iff {w w' : Window β} {a b n : ℕ} :
    slice w a n = slice w' b n ↔ ∀ k < n, w (a + k) = w' (b + k) := by
  constructor
  · intro h k hk
    have hget := congrArg (fun l => l[k]?) h
    simp only [getElem?_slice w a hk, getElem?_slice w' b hk, Option.some.injEq] at hget
    exact hget
  · intro h
    apply List.map_congr_left
    intro k hk
    exact h k (List.mem_range.mp hk)

theorem slice_congr {n off len : ℕ} {w w' : Window β} (h : AgreeBelow n w w') (hn : off + len ≤ n) :
    slice w off len = slice w' off len :=
  slice_eq_iff.mpr fun k hk => h (off + k) (by omega)

theorem agree_of_slice {n : ℕ} {w w' : Window β} (h : slice w 0 n = slice w' 0 n) : AgreeBelow n w w' := by
  intro i hi
  have hbyte := slice_eq_iff.mp h i hi
  rwa [Nat.zero_add] at hbyte

/-! ### Agreement on a range -/

/-- The two windows hold the same bytes from `a` on, up to `b`. -/
def AgreeOn (a b : ℕ) (w w' : Window β) : Prop := ∀ i, a ≤ i → i < b → w i = w' i

section Range

variable {a b c off : ℕ} {w w' : Window β} {bs : List β}

theorem agreeOn_zero : AgreeOn 0 b w w' ↔ AgreeBelow b w w' :=
  ⟨fun h i hi => h i (Nat.zero_le i) hi, fun h i _ hi => h i hi⟩

/-- A range is its two parts. -/
theorem agreeOn_split (hab : a ≤ b) (hbc : b ≤ c) :
    AgreeOn a c w w' ↔ AgreeOn a b w w' ∧ AgreeOn b c w w' := by
  constructor
  · intro h
    exact ⟨fun i h1 h2 => h i h1 (by omega), fun i h1 h2 => h i (by omega) h2⟩
  · rintro ⟨h, h'⟩ i h1 h2
    by_cases hi : i < b
    · exact h i h1 hi
    · exact h' i (by omega) h2

/-- A write behind a range leaves it. -/
theorem agreeOn_overwrite_behind (h : b ≤ off) : AgreeOn a b (overwrite w off bs) w' ↔ AgreeOn a b w w' :=
  forall_congr' fun i => imp_congr_right fun _ => forall_congr' fun hi => by
    rw [overwrite_of_lt w bs (by omega)]

/-- A write before a range leaves it. -/
theorem agreeOn_overwrite_before (h : off + bs.length ≤ a) :
    AgreeOn a b (overwrite w off bs) w' ↔ AgreeOn a b w w' :=
  forall_congr' fun i => forall_congr' fun hi => imp_congr_right fun _ => by
    rw [overwrite_of_ge w bs (by omega)]

/-- A write to just this range is all that is seen of it. -/
theorem agreeOn_overwrite (h : off + bs.length = b) :
    AgreeOn off b (overwrite w off bs) w' ↔ slice w' off bs.length = bs := by
  have hwrite : ∀ k < bs.length, bs[k]? = some (overwrite w off bs (off + k)) := by
    intro k hk
    have hget := List.getElem?_eq_getElem hk
    rw [overwrite_of_getElem? w hget, hget]
  constructor
  · intro hagree
    apply List.ext_getElem?
    intro k
    rcases Nat.lt_or_ge k bs.length with hk | hk
    · rw [getElem?_slice w' off hk, hwrite k hk, hagree (off + k) (by omega) (by omega)]
    · rw [List.getElem?_eq_none (by rw [length_slice]; exact hk), List.getElem?_eq_none hk]
  · intro hslice i h1 h2
    obtain ⟨k, rfl⟩ := Nat.exists_eq_add_of_le h1
    have hk : k < bs.length := by omega
    have hget := congrArg (fun l => l[k]?) hslice
    simp only [getElem?_slice w' off hk, hwrite k hk, Option.some.injEq] at hget
    exact hget.symm

end Range

/-! ### Packed structs -/

/-- The layout of a struct with the fields `F`; `signed` tells the signed integer fields. -/
structure Struct (F : Type*) where
  size : ℕ
  offset : F → ℕ
  width : F → ℕ
  signed : F → Bool
  inside : ∀ f, offset f + width f ≤ size

namespace Struct

/-- The bytes of a field. -/
def get (S : Struct F) (w : Window β) (f : F) : List β := slice w (S.offset f) (S.width f)

/-- Write bytes to the place of a field. -/
def put (S : Struct F) (f : F) (bs : List β) (w : Window β) : Window β := overwrite w (S.offset f) bs

/-- Every field lies within the first `n` bytes. -/
def Inside (S : Struct F) (n : ℕ) : Prop := ∀ f, S.offset f + S.width f ≤ n

theorem inside_of_size_le (S : Struct F) {n : ℕ} (h : S.size ≤ n) : S.Inside n :=
  fun f => Nat.le_trans (S.inside f) h

/-- A field depends on the bytes of its place only. -/
theorem get_congr (S : Struct F) {n : ℕ} {w w' : Window β} (h : AgreeBelow n w w') (hn : S.Inside n)
    (f : F) : S.get w f = S.get w' f :=
  slice_congr h (hn f)

/-- The little-endian integer `bs` converted to an integer of `len` bytes. -/
def resize (isSigned : Bool) (len : ℕ) (bs : List UInt8) : List UInt8 :=
  let fill : UInt8 := if isSigned && decide (128 ≤ bs.getLastD 0) then 255 else 0
  bs.take len ++ List.replicate (len - bs.length) fill

theorem length_resize (isSigned : Bool) (len : ℕ) (bs : List UInt8) :
    (resize isSigned len bs).length = len := by
  simp only [resize, List.length_append, List.length_take, List.length_replicate]
  omega

/-- An integer keeps its bytes at the length it has. -/
theorem resize_slice (isSigned : Bool) (w : Window UInt8) (off len : ℕ) :
    resize isSigned len (slice w off len) = slice w off len := by
  simp only [resize, length_slice, Nat.sub_self, List.replicate_zero, List.append_nil]
  exact List.take_of_length_le (Nat.le_of_eq (length_slice w off len))

/-- `dst.f = src.f` for an integer field. -/
def assign (S : Struct F) (T : Struct (F ⊕ G)) (src : Window UInt8) (f : F) (dst : Window UInt8) :
    Window UInt8 :=
  T.put (.inl f) (resize (S.signed f) (T.width (.inl f)) (S.get src f)) dst

/-- `dst.f = src.f` for each of the fields, in order. -/
def assignAll (S : Struct F) (T : Struct (F ⊕ G)) (fs : List F) (src : Window UInt8)
    (dst : Window UInt8) : Window UInt8 :=
  fs.foldl (fun d f => S.assign T src f d) dst

/-- `std::copy(src.f.begin(), src.f.end(), dst.f.begin())` for a character array. -/
def copy (S : Struct F) (T : Struct (F ⊕ G)) (src : Window UInt8) (f : F) (dst : Window UInt8) :
    Window UInt8 :=
  T.put (.inl f) (S.get src f) dst

/-- The copy for each of the fields, in order. -/
def copyAll (S : Struct F) (T : Struct (F ⊕ G)) (fs : List F) (src : Window UInt8)
    (dst : Window UInt8) : Window UInt8 :=
  fs.foldl (fun d f => S.copy T src f d) dst

section Congr

variable {n : ℕ} {w w' : Window UInt8} (h : AgreeBelow n w w')
include h

theorem assign_congr (S : Struct F) (hn : S.Inside n) (T : Struct (F ⊕ G)) (f : F) :
    S.assign T w f = S.assign T w' f := by
  funext dst
  rw [assign, assign, S.get_congr h hn]

theorem assignAll_congr (S : Struct F) (hn : S.Inside n) (T : Struct (F ⊕ G)) (fs : List F) :
    S.assignAll T fs w = S.assignAll T fs w' := by
  funext dst
  simp only [assignAll, S.assign_congr h hn T]

theorem copy_congr (S : Struct F) (hn : S.Inside n) (T : Struct (F ⊕ G)) (f : F) :
    S.copy T w f = S.copy T w' f := by
  funext dst
  rw [copy, copy, S.get_congr h hn]

theorem copyAll_congr (S : Struct F) (hn : S.Inside n) (T : Struct (F ⊕ G)) (fs : List F) :
    S.copyAll T fs w = S.copyAll T fs w' := by
  funext dst
  simp only [copyAll, S.copy_congr h hn T]

end Congr

/-! ### What lies before the fields -/

/-- Every field starts at `n` or later. -/
def Behind (n : ℕ) (T : Struct F) : Prop := ∀ f, n ≤ T.offset f

theorem put_agree {n : ℕ} {T : Struct F} (h : T.Behind n) (f : F) (bs : List β) (w : Window β) :
    AgreeBelow n (T.put f bs w) w :=
  fun _ hi => overwrite_of_lt w bs (Nat.lt_of_lt_of_le hi (h f))

section Before

variable {n : ℕ} {T : Struct (F ⊕ G)} (h : T.Behind n) (S : Struct F) (src dst : Window UInt8)
include h

theorem assignAll_agree (fs : List F) : AgreeBelow n (S.assignAll T fs src dst) dst := by
  induction fs generalizing dst with
  | nil => exact fun _ _ => rfl
  | cons f fs ih => exact (ih (S.assign T src f dst)).trans (put_agree h _ _ _)

theorem copyAll_agree (fs : List F) : AgreeBelow n (S.copyAll T fs src dst) dst := by
  induction fs generalizing dst with
  | nil => exact fun _ _ => rfl
  | cons f fs ih => exact (ih (S.copy T src f dst)).trans (put_agree h _ _ _)

end Before

/-! ### Reading back what was written -/

/-- The fields do not overlap. -/
def Separate (T : Struct F) : Prop :=
  ∀ f g, f ≠ g → T.offset f + T.width f ≤ T.offset g ∨ T.offset g + T.width g ≤ T.offset f

theorem separate_of_pairwise (T : Struct F) (fs : List F) (hall : ∀ f, f ∈ fs)
    (h : fs.Pairwise fun f g =>
      T.offset f + T.width f ≤ T.offset g ∨ T.offset g + T.width g ≤ T.offset f) : T.Separate := by
  have : Std.Symm fun f g =>
      T.offset f + T.width f ≤ T.offset g ∨ T.offset g + T.width g ≤ T.offset f := ⟨fun _ _ => Or.symm⟩
  exact fun f g hfg => h.forall (hall f) (hall g) hfg

/-- Every field of `S` has a byte, and room in `T`. -/
def Widens (S : Struct F) (T : Struct (F ⊕ G)) : Prop :=
  ∀ f, 0 < S.width f ∧ S.width f ≤ T.width (.inl f)

/-- The bytes of the field `f` in the struct `S` at `src` stand at its place in the struct `T` at `w`. -/
def Shows (S : Struct F) (T : Struct (F ⊕ G)) (src : Window UInt8) (f : F) (w : Window UInt8) : Prop :=
  ∀ k < S.width f, w (T.offset (.inl f) + k) = src (S.offset f + k)

section ReadBack

variable {S : Struct F} {T : Struct (F ⊕ G)} {src w : Window UInt8} {f : F}

theorem shows_copy : S.Shows T src f (S.copy T src f w) :=
  fun _ hk => overwrite_of_getElem? w (getElem?_slice src (S.offset f) hk)

variable (hw : S.Widens T)
include hw

/-- A write to another field keeps what a field shows. -/
theorem Shows.put (h : S.Shows T src f w) (hT : T.Separate) {g : F ⊕ G} (hg : .inl f ≠ g)
    {bs : List UInt8} (hbs : bs.length ≤ T.width g) : S.Shows T src f (T.put g bs w) := by
  intro k hk
  have hk' := Nat.lt_of_lt_of_le hk (hw f).2
  rw [← h k hk]
  rcases hT _ _ hg with hlt | hgt
  · exact overwrite_of_lt w bs (by omega)
  · exact overwrite_of_ge w bs (by omega)

theorem shows_assign : S.Shows T src f (S.assign T src f w) := by
  intro k hk
  have hk' := Nat.lt_of_lt_of_le hk (hw f).2
  have hb : (resize (S.signed f) (T.width (.inl f)) (S.get src f))[k]? = some (src (S.offset f + k)) := by
    rw [resize, List.getElem?_append_left (by rw [get, List.length_take, length_slice]; omega),
      List.getElem?_take_of_lt hk', get, getElem?_slice _ _ hk]
  exact overwrite_of_getElem? w hb

theorem Shows.assign (h : S.Shows T src f w) (hT : T.Separate) (g : F) :
    S.Shows T src f (S.assign T src g w) := by
  by_cases hfg : f = g
  · subst hfg
    exact shows_assign hw
  · refine h.put hw hT (fun he => hfg (Sum.inl.inj he)) ?_
    exact Nat.le_of_eq (length_resize _ _ _)

theorem Shows.copy (h : S.Shows T src f w) (hT : T.Separate) (g : F) :
    S.Shows T src f (S.copy T src g w) := by
  by_cases hfg : f = g
  · subst hfg
    exact shows_copy
  · refine h.put hw hT (fun he => hfg (Sum.inl.inj he)) ?_
    rw [get, length_slice]
    exact (hw g).2

/-- After the assignments the fields assigned are shown, and those shown before. -/
theorem Shows.assignAll (hT : T.Separate) {fs : List F} (h : f ∈ fs ∨ S.Shows T src f w) :
    S.Shows T src f (S.assignAll T fs src w) := by
  induction fs generalizing w with
  | nil => exact h.resolve_left List.not_mem_nil
  | cons g fs ih =>
    refine ih ?_
    rcases h with h | h
    · rcases List.mem_cons.mp h with rfl | h
      · exact Or.inr (shows_assign hw)
      · exact Or.inl h
    · exact Or.inr (h.assign hw hT g)

/-- The same for copies. -/
theorem Shows.copyAll (hT : T.Separate) {fs : List F} (h : f ∈ fs ∨ S.Shows T src f w) :
    S.Shows T src f (S.copyAll T fs src w) := by
  induction fs generalizing w with
  | nil => exact h.resolve_left List.not_mem_nil
  | cons g fs ih =>
    refine ih ?_
    rcases h with h | h
    · rcases List.mem_cons.mp h with rfl | h
      · exact Or.inr shows_copy
      · exact Or.inl h
    · exact Or.inr (h.copy hw hT g)

/-- **A field that sticks out shows what lies behind.**  If results made from `l` with different bytes behind
it agree, and show every field that sticks out of `l`, then no field does. -/
theorem inside_of_shows {l : List UInt8}
    (h : ∀ f, ¬S.offset f + S.width f ≤ l.length → ∃ a b w w', a ≠ b ∧ S.Shows T (padded l a) f w ∧
      S.Shows T (padded l b) f w' ∧ AgreeBelow T.size w w') : S.Inside l.length := by
  intro f
  by_contra hf
  obtain ⟨a, b, w, w', hab, ha, hb, hagree⟩ := h f hf
  obtain ⟨h0, hroom⟩ := hw f
  have hin := T.inside (.inl f)
  -- the last byte of the field lies behind `l`
  have hlast : l.length ≤ S.offset f + (S.width f - 1) := by omega
  have hwa := ha (S.width f - 1) (by omega)
  have hwb := hb (S.width f - 1) (by omega)
  rw [padded_of_le a hlast] at hwa
  rw [padded_of_le b hlast] at hwb
  exact hab (by rw [← hwa, ← hwb]; exact hagree _ (by omega))

end ReadBack

end Struct

end DbnPipe.Layout
