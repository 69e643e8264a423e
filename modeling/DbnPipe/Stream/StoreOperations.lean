import DbnPipe.Stream.SegmentStore

/-!
# The operations of the segment store, one lemma each

From the primitives of `SegmentStore`: what every operation does to the byte lists the chains stand for,
and that it keeps the ownership invariant and every segment a record reference holds.

* `ListOp` — the operations as the list-level view has them; `Op.onLists` reads one off an operation;
* `evolves_consume` … `evolves_appendBytesLoop` — **simulation**: the operations keep `Inv` and what is held, and act on
  `contents` as their `ListOp` does.
-/

namespace DbnPipe.Store

/-! ### The list-level view -/

/-- An operation on a family of byte lists. -/
inductive ListOp where
  | skip
  | create
  | push (i : ℕ) (l : List Byte)
  | drop (i n : ℕ)
  | splice (i j : ℕ)
  | clear (i : ℕ)

/-- What a list operation does. -/
def ListOp.apply (bs : List (List Byte)) : ListOp → List (List Byte)
  | .skip => bs
  | .create => bs ++ [[]]
  | .push i l => bs.modify i (· ++ l)
  | .drop i n => bs.modify i (·.drop n)
  | .splice i j => (bs.modify i (· ++ bs.getD j [])).set j []
  | .clear i => bs.modify i fun _ => []

/-- The list operation an operation stands for, given what the appended segment holds. -/
def Op.onLists (w : Store) : Op → ListOp
  | .newChain _ => .create
  | .append i k =>
    match w.writers[k]? with
    | none => .skip
    | some s => .push i (w.heap s).bytes
  | .appendHeld i k =>
    match (w.held[k]?).bind (·.keepalive.segment?) with
    | none => .skip
    | some s => .push i (w.heap s).bytes
  | .consume i n => .drop i n
  | .splice i j => if i = j ∨ w.chains[i]? = none then .skip else .splice i j
  | .compactAndSplice i j => if i = j ∨ w.chains[i]? = none then .skip else .splice i j
  | .clear i => .clear i
  | .appendBytes i _ l => .push i l
  | _ => .skip

theorem modify_eq_set {α : Type*} {l : List α} {i : ℕ} {x : α} (f : α → α) (h : l[i]? = some x) :
    l.modify i f = l.set i (f x) := by
  apply List.ext_getElem?
  intro n
  rw [List.getElem?_modify, List.getElem?_set]
  by_cases hn : i = n
  · subst hn
    obtain ⟨hlt, rfl⟩ := List.getElem?_eq_some_iff.1 h
    simp [hlt]
  · simp [hn]

theorem modify_of_none {α : Type*} {l : List α} {i : ℕ} (f : α → α) (h : l[i]? = none) :
    l.modify i f = l := by
  apply List.ext_getElem?
  intro n
  rw [List.getElem?_modify]
  by_cases hn : i = n
  · subst hn
    simp [h]
  · simp [hn]

theorem contents_getElem? (w : Store) (i : ℕ) :
    w.contents[i]? = (w.chains[i]?).map (·.bytes w.heap) := by
  rw [contents, List.getElem?_map]

/-- Replacing chain `i` acts on the byte lists as the change of that chain's list. -/
theorem contents_setChain_modify {w : Store} {i : ℕ} {c c' : BufferChain SegId}
    (hc : w.chains[i]? = some c) (f : List Byte → List Byte)
    (hf : c'.bytes w.heap = f (c.bytes w.heap)) :
    (w.setChain i c').contents = w.contents.modify i f := by
  rw [contents_setChain, hf, modify_eq_set f (x := c.bytes w.heap) (by rw [contents_getElem?, hc]; rfl)]

/-! ### Giving segments back -/

theorem release_nextSeg (w : Store) (a : ℕ) (s : SegId) (others : List SegId) :
    (w.release a s others).nextSeg = w.nextSeg := by
  rw [release]
  split
  · rfl
  · split <;> rfl

theorem evolves_release {w : Store} (h : w.Inv) (a : ℕ) {s : SegId} (hs : s < w.nextSeg)
    (others : List SegId) :
    Evolves w (w.release a s others) ∧ (w.release a s others).contents = w.contents := by
  rw [release]
  cases ha : w.allocators[a]? with
  | none => exact ⟨Evolves.refl h, rfl⟩
  | some al =>
    by_cases hcond : w.useCount s + others.count s = 0 ∧ al.freeList.length < al.maxPoolSize
    · have hcount : w.useCount s = 0 := by omega
      obtain ⟨h1, h2⟩ := useCount_eq_zero.1 hcount
      simp only [if_pos hcond]
      exact ⟨evolves_pool h ha ⟨h1, h2, hs⟩, rfl⟩
    · simp only [if_neg hcond, and_true]
      exact Evolves.refl h

theorem evolves_recycleAll {w : Store} (h : w.Inv) (a : ℕ) {l : List SegId}
    (hl : ∀ s ∈ l, s < w.nextSeg) :
    Evolves w (recycleAll a w l) ∧ (recycleAll a w l).contents = w.contents := by
  induction l generalizing w with
  | nil => exact ⟨Evolves.refl h, rfl⟩
  | cons s rest ih =>
    obtain ⟨h1, h2⟩ := evolves_release h a (hl s (by simp)) rest
    obtain ⟨h3, h4⟩ := ih h1.inv fun t ht => by
      rw [release_nextSeg]
      exact hl t (by simp [ht])
    exact ⟨h1.trans h3, h4.trans h2⟩

theorem evolves_recycle {w : Store} (h : w.Inv) (c : BufferChain SegId) {l : List SegId}
    (hl : ∀ s ∈ l, s < w.nextSeg) :
    Evolves w (w.recycle c l) ∧ (w.recycle c l).contents = w.contents := by
  rw [recycle]
  split
  · exact ⟨Evolves.refl h, rfl⟩
  · exact evolves_recycleAll h _ hl

/-! ### Append, Consume, Clear -/

theorem evolves_appendTo {w : Store} (h : w.Inv) (i : ℕ) {s : SegId} (hs : s ∉ w.exclusiveRefs)
    (hb : s < w.nextSeg) :
    Evolves w (w.appendTo i s) ∧
      (w.appendTo i s).contents = w.contents.modify i (· ++ (w.heap s).bytes) := by
  rw [appendTo]
  cases hc : w.chains[i]? with
  | none => exact ⟨Evolves.refl h, (modify_of_none _ (by rw [contents_getElem?, hc]; rfl)).symm⟩
  | some c =>
    have hwf := h.wf c (List.mem_of_getElem? hc)
    refine ⟨evolves_setChain h i (BufferChain.wf_append w.heap hwf s) ?_,
      contents_setChain_modify hc _ (BufferChain.bytes_append w.heap hwf s)⟩
    intro t ht
    have hold : t ∈ c.segments → t ∉ w.exclusiveRefs ∧ t < w.nextSeg := fun ht =>
      ⟨fun he => h.disjoint t he (mem_shared_of_chain hc ht),
        h.bound t (List.mem_append_left _ (mem_shared_of_chain hc ht))⟩
    rw [BufferChain.append] at ht
    split at ht
    · rcases List.mem_append.1 ht with ht | ht
      · exact hold ht
      · obtain rfl : t = s := by simpa using ht
        exact ⟨hs, hb⟩
    · exact hold ht

/-- What `Consume` leaves and what it takes off were in the chain. -/
theorem consumeLoop_mem (deref : SegId → Segment) (ss : List SegId) (off total n : ℕ) :
    (∀ s ∈ (BufferChain.consumeLoop deref ss off total n).1, s ∈ ss) ∧
      ∀ s ∈ (BufferChain.consumeLoop deref ss off total n).2.2.2, s ∈ ss := by
  induction ss generalizing off total n with
  | nil => simp [BufferChain.consumeLoop]
  | cons t ts ih =>
    simp only [BufferChain.consumeLoop]
    split
    · exact ⟨fun s hs => hs, fun s hs => by simp at hs⟩
    · split
      · obtain ⟨h1, h2⟩ := ih 0 (total - ((deref t).size - off)) (n - ((deref t).size - off))
        refine ⟨fun s hs => List.mem_cons_of_mem _ (h1 s hs), fun s hs => ?_⟩
        rcases List.mem_cons.1 hs with rfl | hs
        · simp
        · exact List.mem_cons_of_mem _ (h2 s hs)
      · exact ⟨fun s hs => hs, fun s hs => by simp at hs⟩

theorem evolves_consume {w : Store} (h : w.Inv) (i n : ℕ) :
    Evolves w (w.consume i n) ∧ (w.consume i n).contents = w.contents.modify i (·.drop n) := by
  rw [consume]
  cases hc : w.chains[i]? with
  | none => exact ⟨Evolves.refl h, (modify_of_none _ (by rw [contents_getElem?, hc]; rfl)).symm⟩
  | some c =>
    have hwf := h.wf c (List.mem_of_getElem? hc)
    obtain ⟨hleft, htaken⟩ := consumeLoop_mem w.heap c.segments c.consumedOffset c.totalSize n
    have h1 := evolves_setChain_sub h i (BufferChain.wf_consume w.heap hwf n)
      fun s hs => mem_shared_of_chain hc (hleft s hs)
    obtain ⟨h2, h3⟩ := evolves_recycle h1.inv c (l := c.consumed w.heap n) fun s hs =>
      h.bound s (List.mem_append_left _ (mem_shared_of_chain hc (htaken s hs)))
    exact ⟨h1.trans h2,
      h3.trans (contents_setChain_modify hc _ (BufferChain.bytes_consume w.heap hwf n))⟩

theorem evolves_clear {w : Store} (h : w.Inv) (i : ℕ) :
    Evolves w (w.clear i) ∧ (w.clear i).contents = w.contents.modify i fun _ => [] := by
  rw [clear]
  cases hc : w.chains[i]? with
  | none => exact ⟨Evolves.refl h, (modify_of_none _ (by rw [contents_getElem?, hc]; rfl)).symm⟩
  | some c =>
    have h1 := evolves_setChain_sub h i (BufferChain.wf_clear w.heap c) (by simp [BufferChain.clear])
    obtain ⟨h2, h3⟩ := evolves_recycle h1.inv c (l := c.segments) fun s hs =>
      h.bound s (List.mem_append_left _ (mem_shared_of_chain hc hs))
    exact ⟨h1.trans h2,
      h3.trans (contents_setChain_modify hc _ (BufferChain.bytes_clear w.heap c))⟩

/-! ### Compact -/

/-- A front segment that is referenced once is referenced by its chain's front slot only. -/
theorem sole_reference {w : Store} {i : ℕ} {c : BufferChain SegId} (hc : w.chains[i]? = some c)
    {first : SegId} {rest : List SegId} (hs : c.segments = first :: rest)
    (huse : ¬ 1 < w.useCount first) (r : BufferChain SegId) (hr : r.segments = []) :
    first ∉ rest ∧ first ∉ (w.setChain i r).sharedRefs := by
  obtain ⟨hlt, rfl⟩ := List.getElem?_eq_some_iff.1 hc
  have hsplit : w.chains.flatMap (·.segments) =
      (w.chains.take i).flatMap (·.segments) ++ (first :: rest ++
        (w.chains.drop (i + 1)).flatMap (·.segments)) := by
    conv_lhs => rw [← List.take_append_drop i w.chains, List.drop_eq_getElem_cons hlt]
    rw [List.flatMap_append, List.flatMap_cons, hs]
  have hset : (w.chains.set i r).flatMap (·.segments) =
      (w.chains.take i).flatMap (·.segments) ++ (w.chains.drop (i + 1)).flatMap (·.segments) := by
    rw [List.set_eq_take_append_cons_drop, if_pos hlt, List.flatMap_append, List.flatMap_cons, hr,
      List.nil_append]
  rw [useCount, sharedRefs, hsplit] at huse
  simp only [List.count_append, List.count_cons_self] at huse
  constructor
  · rw [← List.count_eq_zero]
    omega
  · simp only [sharedRefs, setChain, hset]
    rw [← List.count_eq_zero]
    simp only [List.count_append]
    omega

theorem compact_of_none {w : Store} {i : ℕ} (hc : w.chains[i]? = none) : w.compact i = w := by
  simp only [compact, hc]

theorem compact_of_zero {w : Store} {i : ℕ} {c : BufferChain SegId} (hc : w.chains[i]? = some c)
    (h0 : c.consumedOffset = 0) : w.compact i = w := by
  simp only [compact, hc, if_pos h0]

theorem compact_of_shared {w : Store} {i : ℕ} {c : BufferChain SegId} (hc : w.chains[i]? = some c)
    (h0 : c.consumedOffset ≠ 0) {first : SegId} {rest : List SegId} (hs : c.segments = first :: rest)
    (huse : 1 < w.useCount first) :
    w.compact i =
      (w.allocateFresh.1.setSegment w.allocateFresh.2
        (Segment.blank.append ((w.heap first).bytes.drop c.consumedOffset))).setChain i
          { c with segments := w.allocateFresh.2 :: rest, consumedOffset := 0 } := by
  simp only [compact, hc, if_neg h0, hs, if_pos huse]

theorem compact_of_sole {w : Store} {i : ℕ} {c : BufferChain SegId} (hc : w.chains[i]? = some c)
    (h0 : c.consumedOffset ≠ 0) {first : SegId} {rest : List SegId} (hs : c.segments = first :: rest)
    (huse : ¬ 1 < w.useCount first) :
    w.compact i =
      (w.setSegment first ((w.heap first).shift c.consumedOffset)).setChain i
        { c with consumedOffset := 0 } := by
  simp only [compact, hc, if_neg h0, hs, if_neg huse]

/-- **`Compact`** keeps the bytes of every chain and leaves the front offset of its own at zero. -/
theorem evolves_compact {w : Store} (h : w.Inv) (i : ℕ) :
    Evolves w (w.compact i) ∧ (w.compact i).contents = w.contents ∧
      ∀ c, (w.compact i).chains[i]? = some c → c.consumedOffset = 0 := by
  cases hc : w.chains[i]? with
  | none =>
    rw [compact_of_none hc]
    exact ⟨Evolves.refl h, rfl, by simp [hc]⟩
  | some c =>
    have hwf := h.wf c (List.mem_of_getElem? hc)
    have hlt := (List.getElem?_eq_some_iff.1 hc).1
    by_cases h0 : c.consumedOffset = 0
    · rw [compact_of_zero hc h0]
      refine ⟨Evolves.refl h, rfl, fun c' hc' => ?_⟩
      rw [hc, Option.some.injEq] at hc'
      exact hc' ▸ h0
    cases hs : c.segments with
    | nil => exact absurd (hwf.offset_nil hs) h0
    | cons first rest =>
      have hfirst : first ∈ c.segments := by simp [hs]
      have hrest : ∀ s ∈ rest, s ∈ w.sharedRefs := fun s hmem =>
        mem_shared_of_chain hc (by rw [hs]; exact List.mem_cons_of_mem _ hmem)
      have hid : w.contents.set i (c.bytes w.heap) = w.contents := by
        have hget : w.contents[i]? = some (c.bytes w.heap) := by rw [contents_getElem?, hc]; rfl
        exact (modify_eq_set id hget).symm.trans (List.modify_id i w.contents)
      by_cases huse : 1 < w.useCount first
      · -- shared: the unconsumed bytes go to a fresh segment
        rw [compact_of_shared hc h0 hs huse]
        obtain ⟨e1, c1, hun, -⟩ := evolves_allocateFresh h
        generalize hseg : Segment.blank.append ((w.heap first).bytes.drop c.consumedOffset) = seg
        obtain ⟨e2, c2⟩ := evolves_setSegment e1.inv hun.shared seg
        have hbytes : seg.bytes = (w.heap first).bytes.drop c.consumedOffset := by
          rw [← hseg]
          have hle := (w.heap first).size_le
          refine List.take_of_length_le ?_
          rw [List.length_drop]
          exact Nat.le_trans (Nat.sub_le _ _) hle
        have hold : ∀ s ∈ w.sharedRefs,
            (w.allocateFresh.1.setSegment w.allocateFresh.2 seg).heap s = w.heap s := by
          intro s hmem
          have hne : s ≠ w.nextSeg := Nat.ne_of_lt (h.bound s (List.mem_append_left _ hmem))
          simp [setSegment, allocateFresh, hne]
        obtain ⟨hwf', hb'⟩ := BufferChain.compacted_spec
          (w.allocateFresh.1.setSegment w.allocateFresh.2 seg).heap hwf w.allocateFresh.2
          hs (by simpa [setSegment, allocateFresh] using hbytes)
          (fun s hmem => by rw [hold s (hrest s hmem)])
        have e3 := evolves_setChain e2.inv i hwf' (by
          intro s hmem
          rcases List.mem_cons.1 hmem with rfl | hmem
          · exact ⟨hun.exclusive, hun.bound⟩
          · exact ⟨fun he => h.disjoint s he (hrest s hmem),
              Nat.lt_succ_of_lt (h.bound s (List.mem_append_left _ (hrest s hmem)))⟩)
        refine ⟨(e1.trans e2).trans e3, ?_, ?_⟩
        · rw [contents_setChain, hb', c2, c1, hid]
        · intro c' hc'
          simp only [setChain, setSegment, allocateFresh, List.getElem?_set_self hlt,
            Option.some.injEq] at hc'
          rw [← hc']
      · -- sole reference: the chain lets go of the segment, it is moved, and the chain takes it back
        rw [compact_of_sole hc h0 hs huse]
        obtain ⟨hnot, hun⟩ := sole_reference hc hs huse { recycleCallback := c.recycleCallback } rfl
        have e1 := evolves_setChain_sub h i (BufferChain.wf_nil w.heap c.recycleCallback) (by simp)
        generalize hseg : (w.heap first).shift c.consumedOffset = seg
        obtain ⟨e2, c2⟩ := evolves_setSegment e1.inv hun seg
        have hold : ∀ s, s ≠ first → (w.setSegment first seg).heap s = w.heap s := fun s hne =>
          Function.update_of_ne hne _ _
        obtain ⟨hwf', hb'⟩ := BufferChain.compacted_spec (w.setSegment first seg).heap hwf first
          hs (by rw [← hseg]; simp [setSegment])
          (fun s hmem => by rw [hold s (by rintro rfl; exact hnot hmem)])
        have e3 := evolves_setChain e2.inv i hwf' (by
          intro s hmem
          have hsh : s ∈ w.sharedRefs := mem_shared_of_chain hc (by rw [hs]; exact hmem)
          exact ⟨fun he => h.disjoint s he hsh, h.bound s (List.mem_append_left _ hsh)⟩)
        have heq : (w.setSegment first seg).setChain i { c with consumedOffset := 0 } =
            (((w.setChain i { recycleCallback := c.recycleCallback }).setSegment first seg).setChain i
              { c with segments := first :: rest, consumedOffset := 0 }) := by
          simp only [setChain, setSegment, List.set_set, ← hs]
        rw [heq]
        refine ⟨(e1.trans e2).trans e3, ?_, ?_⟩
        · rw [contents_setChain]
          show List.set _ i (BufferChain.bytes (w.setSegment first seg).heap _) = _
          rw [hb', c2, contents_setChain, List.set_set, hid]
        · intro c' hc'
          simp only [setChain, setSegment, List.set_set, List.getElem?_set_self hlt,
            Option.some.injEq] at hc'
          rw [← hc']

/-! ### Splice, CompactAndSplice -/

/-- Splicing nothing changes nothing. -/
theorem apply_splice_nil {bs : List (List Byte)} {i j : ℕ} (hj : bs.getD j [] = []) :
    (ListOp.splice i j).apply bs = bs := by
  have happ : bs.modify i (· ++ bs.getD j []) = bs := by
    rw [hj]
    exact (congrArg (bs.modify i) (funext List.append_nil)).trans (List.modify_id i bs)
  rw [ListOp.apply, happ]
  apply List.ext_getElem?
  intro n
  rw [List.getElem?_set]
  split
  · rename_i hn
    subst hn
    split
    · rename_i hlt
      rw [List.getElem?_eq_getElem hlt]
      rw [List.getD_eq_getElem?_getD, List.getElem?_eq_getElem hlt] at hj
      exact congrArg some hj.symm
    · rename_i hlt
      rw [List.getElem?_eq_none (Nat.le_of_not_lt hlt)]
  · rfl

theorem evolves_spliceCompacted {w : Store} (h : w.Inv) {i j : ℕ}
    {c other : BufferChain SegId} (hi : w.chains[i]? = some c) (hj : w.chains[j]? = some other)
    (h0 : other.consumedOffset = 0) :
    Evolves w (w.spliceCompacted i j) ∧
      (w.spliceCompacted i j).contents = (ListOp.splice i j).apply w.contents := by
  have hc := h.wf c (List.mem_of_getElem? hi)
  have ho := h.wf other (List.mem_of_getElem? hj)
  have hgi : w.contents[i]? = some (c.bytes w.heap) := by rw [contents_getElem?, hi]; rfl
  have hgj : w.contents.getD j [] = other.bytes w.heap := by
    rw [List.getD_eq_getElem?_getD, contents_getElem?, hj]
    rfl
  have e1 := evolves_setChain_sub h i (BufferChain.wf_spliceCompacted w.heap hc ho h0) (by
    intro s hs
    rcases List.mem_append.1 hs with hs | hs
    · exact mem_shared_of_chain hi hs
    · exact mem_shared_of_chain hj hs)
  have e2 := evolves_setChain_sub e1.inv j (c := (c.spliceCompacted other).2)
    (BufferChain.wf_nil w.heap other.recycleCallback) (by simp [BufferChain.spliceCompacted])
  simp only [spliceCompacted, hi, hj]
  refine ⟨e1.trans e2, ?_⟩
  rw [contents_setChain, contents_setChain, BufferChain.bytes_spliceCompacted w.heap hc h0,
    ListOp.apply, hgj, modify_eq_set _ hgi]
  rfl

/-- Compacting a chain adds and removes no chain. -/
theorem compact_chain_isSome {w : Store} (h : w.Inv) (i k : ℕ) :
    ((w.compact i).chains[k]?).isSome = (w.chains[k]?).isSome := by
  have hc := congrArg (fun bs => (bs[k]?).isSome) (evolves_compact h i).2.1
  simpa only [contents_getElem?, Option.isSome_map] using hc

/-- A source that is not partially consumed is compacted to itself. -/
theorem splice_eq {w : Store} {i j : ℕ} {other : BufferChain SegId} (hj : w.chains[j]? = some other)
    (hij : i ≠ j) (he : other.empty = false) :
    w.splice i j = (w.compact j).spliceCompacted i j := by
  by_cases h0 : other.consumedOffset = 0
  · simp [splice, hj, hij, he, h0, compact_of_zero hj h0]
  · simp [splice, hj, hij, he, h0]

theorem spliceCompacted_of_none {w : Store} {i : ℕ} (hi : w.chains[i]? = none) (j : ℕ) :
    w.spliceCompacted i j = w := by
  simp only [spliceCompacted, hi]

theorem contents_getD {w : Store} {j : ℕ} {c : BufferChain SegId} (hj : w.chains[j]? = some c) :
    w.contents.getD j [] = c.bytes w.heap := by
  rw [List.getD_eq_getElem?_getD, contents_getElem?, hj]
  rfl

/-- What splicing does to the byte lists, the source being empty or not. -/
theorem onLists_splice_of_nil {w : Store} {i j : ℕ} (hj : w.contents.getD j [] = []) :
    ((Op.splice i j).onLists w).apply w.contents = w.contents := by
  rw [Op.onLists]
  split
  · rfl
  · exact apply_splice_nil hj

theorem evolves_splice {w : Store} (h : w.Inv) (i j : ℕ) :
    Evolves w (w.splice i j) ∧
      (w.splice i j).contents = ((Op.splice i j).onLists w).apply w.contents := by
  cases hj : w.chains[j]? with
  | none =>
    have hsame : w.splice i j = w := by simp only [splice, hj]
    have hnil : w.contents.getD j [] = [] := by
      rw [List.getD_eq_getElem?_getD, contents_getElem?, hj]
      rfl
    rw [hsame, onLists_splice_of_nil hnil]
    exact ⟨Evolves.refl h, rfl⟩
  | some other =>
    have ho := h.wf other (List.mem_of_getElem? hj)
    by_cases hij : i = j
    · have hsame : w.splice i j = w := by simp [splice, hj, hij]
      rw [hsame, Op.onLists, if_pos (Or.inl hij)]
      exact ⟨Evolves.refl h, rfl⟩
    cases he : other.empty with
    | true =>
      have hsame : w.splice i j = w := by simp [splice, hj, he]
      rw [hsame, onLists_splice_of_nil
        ((contents_getD hj).trans ((BufferChain.empty_iff w.heap ho).1 he))]
      exact ⟨Evolves.refl h, rfl⟩
    | false =>
      obtain ⟨e1, c1, hzero⟩ := evolves_compact h j
      rw [splice_eq hj hij he, Op.onLists]
      cases hi : w.chains[i]? with
      | none =>
        have hi' : (w.compact j).chains[i]? = none := by
          rw [← Option.not_isSome_iff_eq_none, compact_chain_isSome h, hi]
          simp
        rw [spliceCompacted_of_none hi', if_pos (Or.inr rfl)]
        exact ⟨e1, c1⟩
      | some c =>
        obtain ⟨c', hi'⟩ : ∃ c', (w.compact j).chains[i]? = some c' := by
          rw [← Option.isSome_iff_exists, compact_chain_isSome h, hi]
          rfl
        obtain ⟨other', hj'⟩ : ∃ other', (w.compact j).chains[j]? = some other' := by
          rw [← Option.isSome_iff_exists, compact_chain_isSome h, hj]
          rfl
        obtain ⟨e2, c2⟩ := evolves_spliceCompacted e1.inv hi' hj' (hzero _ hj')
        rw [if_neg (by simp [hij])]
        exact ⟨e1.trans e2, by rw [c2, c1]⟩

/-- A chain that is not partially consumed is compacted to itself. -/
theorem compactAndSplice_eq {w : Store} {i : ℕ} {c : BufferChain SegId} (hi : w.chains[i]? = some c)
    (j : ℕ) : w.compactAndSplice i j = (w.compact i).splice i j := by
  by_cases h0 : c.consumedOffset = 0
  · simp [compactAndSplice, hi, BufferChain.isPartiallyConsumed, h0, compact_of_zero hi h0]
  · simp [compactAndSplice, hi, BufferChain.isPartiallyConsumed, Nat.pos_of_ne_zero h0]

theorem evolves_compactAndSplice {w : Store} (h : w.Inv) (i j : ℕ) :
    Evolves w (w.compactAndSplice i j) ∧
      (w.compactAndSplice i j).contents =
        ((Op.compactAndSplice i j).onLists w).apply w.contents := by
  cases hi : w.chains[i]? with
  | none =>
    have hsame : w.compactAndSplice i j = w := by simp only [compactAndSplice, hi]
    rw [hsame, Op.onLists, if_pos (Or.inr hi)]
    exact ⟨Evolves.refl h, rfl⟩
  | some c =>
    obtain ⟨e1, c1, -⟩ := evolves_compact h i
    obtain ⟨e2, c2⟩ := evolves_splice e1.inv i j
    have hsome : (w.compact i).chains[i]? ≠ none := by
      rw [← Option.isSome_iff_ne_none, compact_chain_isSome h, hi]
      rfl
    rw [compactAndSplice_eq hi]
    refine ⟨e1.trans e2, c2.trans ?_⟩
    simp only [Op.onLists, hsome, hi, c1, or_false, reduceCtorEq]

/-! ### AppendBytes -/

theorem evolves_appendBytesLoop {w : Store} (h : w.Inv) (i a : ℕ) {fuel : ℕ} (data : List Byte)
    (hf : data.length ≤ fuel) :
    Evolves w (appendBytesLoop fuel w i a data) ∧
      (appendBytesLoop fuel w i a data).contents = w.contents.modify i (· ++ data) := by
  have hnil : w.contents.modify i (· ++ []) = w.contents :=
    (congrArg (w.contents.modify i) (funext List.append_nil)).trans (List.modify_id i _)
  induction fuel generalizing w data with
  | zero =>
    obtain rfl : data = [] := List.length_eq_zero_iff.1 (by omega)
    exact ⟨Evolves.refl h, hnil.symm⟩
  | succ fuel ih =>
    by_cases h0 : data.length = 0
    · obtain rfl := List.length_eq_zero_iff.1 h0
      exact ⟨Evolves.refl h, hnil.symm⟩
    simp only [appendBytesLoop, if_neg h0]
    obtain ⟨e1, c1, hun, hblank⟩ := evolves_allocate h a
    generalize hseg : ((w.allocate a).1.heap (w.allocate a).2).append data = seg
    have hbytes : seg.bytes = data.take Segment.kSize := by
      rw [← hseg]
      simp only [Segment.append, Segment.remaining, Segment.size, hblank, List.nil_append,
        List.length_nil, Nat.sub_zero]
    obtain ⟨e2, c2⟩ := evolves_setSegment e1.inv hun.shared seg
    obtain ⟨e3, c3⟩ := evolves_appendTo e2.inv i hun.exclusive hun.bound
    have hat : ((w.allocate a).1.setSegment (w.allocate a).2 seg).heap (w.allocate a).2 = seg :=
      Function.update_self ..
    have hlen : seg.size = min Segment.kSize data.length := by
      rw [Segment.size, hbytes, List.length_take]
    have hk : 0 < Segment.kSize := by decide
    obtain ⟨e4, c4⟩ := ih e3.inv (data.drop seg.size)
      (by rw [List.length_drop, hlen]; omega)
      ((congrArg (List.modify _ i) (funext List.append_nil)).trans (List.modify_id i _))
    refine ⟨((e1.trans e2).trans e3).trans e4, ?_⟩
    have hsplit : seg.bytes ++ data.drop seg.size = data := by
      conv_rhs => rw [← List.take_append_drop seg.size data]
      rw [hbytes, hlen]
      rcases Nat.le_total Segment.kSize data.length with hle | hle
      · rw [Nat.min_eq_left hle]
      · rw [Nat.min_eq_right hle, List.take_length, List.take_of_length_le hle]
    rw [c4, c3, c2, c1, hat, List.modify_modify_eq]
    congr 1
    funext l
    simp only [Function.comp_apply, List.append_assoc, hsplit]

end DbnPipe.Store
