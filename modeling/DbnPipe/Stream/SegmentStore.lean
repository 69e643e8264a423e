import DbnPipe.Library.Runs
import DbnPipe.Stream.BufferChain
import Mathlib.Data.List.Nodup
import Mathlib.Data.List.Perm.Basic
import Mathlib.Logic.Function.Basic

/-!
# Segments on the heap: allocators, chains and holders that share them

The value view of `BufferChain` hides who else references a segment.  Here a chain holds heap addresses,
`SegmentAllocator` of `lib/stream/segment_allocator.hpp` keeps its free list, and every `shared_ptr` is
counted:

* `Store` — the heap, the chains, the allocators, the segments writers have just obtained, and the
  references others hold (`RecordRef` keepalives);
* `Op` / `step` — every operation of the two files, with the reference counts the code tests;
* `Inv` — the ownership invariant: the free lists and the writers' segments are pairwise distinct and
  **disjoint** from what chains and holders reference;
* `Evolves` — what every operation but the taking and dropping of references does: it keeps `Inv`, and no
  segment a holder references changes;
* one lemma for each primitive, from which each operation's lemma is put together.
-/

namespace DbnPipe

/-- A segment's identity: the object behind a `shared_ptr<Segment>`. -/
abbrev SegId := ℕ

/-- `SegmentAllocator`: the free list (its back is the end of the list) and its bound. -/
structure SegmentAllocator where
  freeList : List SegId := []
  maxPoolSize : ℕ := 32

namespace Store

/-- What a `RecordRef` keeps alive: a segment, or a scratch buffer of its own. -/
inductive Keepalive where
  | segment : SegId → Keepalive
  | scratch : ℕ → Keepalive
deriving DecidableEq

/-- The segment kept alive, if it is one. -/
def Keepalive.segment? : Keepalive → Option SegId
  | .segment s => some s
  | .scratch _ => none

/-- `RecordRef`: `[data, data + size)` inside the buffer that `keepalive` holds. -/
structure RecordRef where
  keepalive : Keepalive
  data : ℕ
  size : ℕ
deriving DecidableEq

end Store

open Store in
/-- The state shared by allocators, chains, writers and record holders. -/
structure Store where
  heap : SegId → Segment
  nextSeg : SegId
  scratch : List (List Byte)
  chains : List (BufferChain SegId)
  allocators : List SegmentAllocator
  writers : List SegId
  held : List RecordRef

namespace Store

/-- References that may be shared: by chains and by holders. -/
def sharedRefs (w : Store) : List SegId :=
  w.chains.flatMap (·.segments) ++ w.held.filterMap (·.keepalive.segment?)

/-- References of the free lists and of the writers. -/
def exclusiveRefs (w : Store) : List SegId :=
  w.allocators.flatMap (·.freeList) ++ w.writers

/-- `use_count()`. -/
def useCount (w : Store) (s : SegId) : ℕ := (w.sharedRefs ++ w.exclusiveRefs).count s

/-- The byte lists the chains stand for. -/
def contents (w : Store) : List (List Byte) := w.chains.map (·.bytes w.heap)

/-- The bytes seen through a record reference. -/
def view (w : Store) (r : RecordRef) : List Byte :=
  match r.keepalive with
  | .segment s => (List.range r.size).map fun i => (w.heap s).mem (r.data + i)
  | .scratch k => ((w.scratch.getD k []).drop r.data).take r.size

/-! ### The operations -/

/-- `allocate_shared<Segment>`. -/
def allocateFresh (w : Store) : Store × SegId :=
  ({ w with heap := Function.update w.heap w.nextSeg .blank, nextSeg := w.nextSeg + 1 }, w.nextSeg)

/-- `SegmentAllocator::Allocate`. -/
def allocate (w : Store) (a : ℕ) : Store × SegId :=
  match w.allocators[a]? with
  | none => w.allocateFresh
  | some al =>
    match al.freeList.getLast? with
    | none => w.allocateFresh
    | some s =>
      ({ w with
         heap := Function.update w.heap s (w.heap s).reset
         allocators := w.allocators.set a { al with freeList := al.freeList.dropLast } }, s)

/-- `SegmentAllocator::Release` of a reference moved out of its holder; `others` are the references of a
chain that is being emptied and has not dropped them yet. -/
def release (w : Store) (a : ℕ) (s : SegId) (others : List SegId) : Store :=
  match w.allocators[a]? with
  | none => w
  | some al =>
    if w.useCount s + others.count s = 0 ∧ al.freeList.length < al.maxPoolSize then
      { w with allocators := w.allocators.set a { al with freeList := al.freeList ++ [s] } }
    else w

/-- The recycler called on the segments taken off a chain, front first. -/
def recycleAll (a : ℕ) : Store → List SegId → Store
  | w, [] => w
  | w, s :: rest => recycleAll a (w.release a s rest) rest

/-- Replace a chain. -/
def setChain (w : Store) (i : ℕ) (c : BufferChain SegId) : Store :=
  { w with chains := w.chains.set i c }

/-- Write a segment's contents. -/
def setSegment (w : Store) (s : SegId) (seg : Segment) : Store :=
  { w with heap := Function.update w.heap s seg }

/-- Give the segments taken off chain `c` to its recycler, if it has one. -/
def recycle (w : Store) (c : BufferChain SegId) (taken : List SegId) : Store :=
  match c.recycleCallback with
  | none => w
  | some a => recycleAll a w taken

/-- `Append` of a moved reference. -/
def appendTo (w : Store) (i : ℕ) (s : SegId) : Store :=
  match w.chains[i]? with
  | none => w
  | some c => w.setChain i (c.append w.heap s)

/-- `Consume`. -/
def consume (w : Store) (i n : ℕ) : Store :=
  match w.chains[i]? with
  | none => w
  | some c => (w.setChain i (c.consume w.heap n)).recycle c (c.consumed w.heap n)

/-- `Clear`. -/
def clear (w : Store) (i : ℕ) : Store :=
  match w.chains[i]? with
  | none => w
  | some c => (w.setChain i c.clear).recycle c c.segments

/-- `Compact`: a shared front segment is replaced by a fresh one, an unshared one is moved in place. -/
def compact (w : Store) (i : ℕ) : Store :=
  match w.chains[i]? with
  | none => w
  | some c =>
    if c.consumedOffset = 0 then w
    else
      match c.segments with
      | [] => w
      | first :: rest =>
        if 1 < w.useCount first then
          let new := w.allocateFresh
          let seg := Segment.blank.append ((w.heap first).bytes.drop c.consumedOffset)
          (new.1.setSegment new.2 seg).setChain i
            { c with segments := new.2 :: rest, consumedOffset := 0 }
        else
          (w.setSegment first ((w.heap first).shift c.consumedOffset)).setChain i
            { c with consumedOffset := 0 }

/-- The tail of `Splice`, the source not partially consumed. -/
def spliceCompacted (w : Store) (i j : ℕ) : Store :=
  match w.chains[i]?, w.chains[j]? with
  | some c, some other =>
    (w.setChain i (c.spliceCompacted other).1).setChain j (c.spliceCompacted other).2
  | _, _ => w

/-- `Splice` of another chain. -/
def splice (w : Store) (i j : ℕ) : Store :=
  match w.chains[j]? with
  | none => w
  | some other =>
    if i = j ∨ other.empty then w
    else if other.consumedOffset ≠ 0 then (w.compact j).spliceCompacted i j
    else w.spliceCompacted i j

/-- `CompactAndSplice` of another chain. -/
def compactAndSplice (w : Store) (i j : ℕ) : Store :=
  match w.chains[i]? with
  | none => w
  | some c => if c.isPartiallyConsumed then (w.compact i).splice i j else w.splice i j

/-- The loop of `AppendBytes`. -/
def appendBytesLoop : ℕ → Store → ℕ → ℕ → List Byte → Store
  | 0, w, _, _, _ => w
  | fuel + 1, w, i, a, data =>
    if data.length = 0 then w
    else
      let new := w.allocate a
      let seg := (new.1.heap new.2).append data
      appendBytesLoop fuel ((new.1.setSegment new.2 seg).appendTo i new.2) i a (data.drop seg.size)

/-- `AppendBytes`: every round takes at least one byte, so `len` rounds are enough. -/
def appendBytes (w : Store) (i a : ℕ) (data : List Byte) : Store :=
  appendBytesLoop data.length w i a data

/-- What can happen to the store.  `k` indexes the writers or the held references. -/
inductive Op where
  | newChain (recycler : Option ℕ)
  | allocate (a : ℕ)
  | fill (k : ℕ) (l : List Byte)
  | append (i k : ℕ)
  | appendHeld (i k : ℕ)
  | hold (i offset len : ℕ)
  | holdScratch (l : List Byte)
  | drop (k : ℕ)
  | discard (k : ℕ)
  | release (a k : ℕ)
  | releaseHeld (a k : ℕ)
  | consume (i n : ℕ)
  | compact (i : ℕ)
  | splice (i j : ℕ)
  | compactAndSplice (i j : ℕ)
  | clear (i : ℕ)
  | appendBytes (i a : ℕ) (l : List Byte)

/-- One operation. -/
def step (w : Store) : Op → Store
  | .newChain r => { w with chains := w.chains ++ [{ recycleCallback := r }] }
  | .allocate a => { (w.allocate a).1 with writers := w.writers ++ [(w.allocate a).2] }
  -- a writer reads or copies into the segment it has just obtained
  | .fill k l =>
    match w.writers[k]? with
    | none => w
    | some s => if h : l.length ≤ Segment.kSize then w.setSegment s ((w.heap s).fill l h) else w
  | .append i k =>
    match w.writers[k]? with
    | none => w
    | some s => { w with writers := w.writers.eraseIdx k }.appendTo i s
  -- a copy of a held `shared_ptr` is appended: the segment is shared between chains
  | .appendHeld i k =>
    match (w.held[k]?).bind (·.keepalive.segment?) with
    | none => w
    | some s => w.appendTo i s
  -- zero-copy delivery: `DataAt` and `GetSegmentAt` of a contiguous range
  | .hold i offset len =>
    match w.chains[i]? with
    | none => w
    | some c =>
      if 0 < len ∧ c.isContiguous w.heap offset len then
        match c.dataAt w.heap offset with
        | none => w
        | some (s, pos) => { w with held := w.held ++ [⟨.segment s, pos, len⟩] }
      else w
  -- delivery of a copy or of a converted record
  | .holdScratch l =>
    { w with scratch := w.scratch ++ [l], held := w.held ++ [⟨.scratch w.scratch.length, 0, l.length⟩] }
  | .drop k => { w with held := w.held.eraseIdx k }
  | .discard k => { w with writers := w.writers.eraseIdx k }
  | .release a k =>
    match w.writers[k]? with
    | none => w
    | some s => { w with writers := w.writers.eraseIdx k }.release a s []
  | .releaseHeld a k =>
    match (w.held[k]?).bind (·.keepalive.segment?) with
    | none => w
    | some s => { w with held := w.held.eraseIdx k }.release a s []
  | .consume i n => w.consume i n
  | .compact i => w.compact i
  | .splice i j => w.splice i j
  | .compactAndSplice i j => w.compactAndSplice i j
  | .clear i => w.clear i
  | .appendBytes i a l => w.appendBytes i a l

/-- No chain, no reference, one allocator for each bound. -/
def initial (maxPools : List ℕ) : Store where
  heap := fun _ => .blank
  nextSeg := 0
  scratch := []
  chains := []
  allocators := maxPools.map fun n => { maxPoolSize := n }
  writers := []
  held := []

/-! ### The ownership invariant -/

/-- The record lies inside the valid part of the buffer it keeps alive. -/
def RecordRef.InRange (w : Store) (r : RecordRef) : Prop :=
  match r.keepalive with
  | .segment s => r.data + r.size ≤ (w.heap s).size
  | .scratch k => ∃ l, w.scratch[k]? = some l ∧ r.data + r.size ≤ l.length

/-- **The ownership invariant.** -/
structure Inv (w : Store) : Prop where
  wf : ∀ c ∈ w.chains, c.WF w.heap
  nodup : w.exclusiveRefs.Nodup
  disjoint : ∀ s ∈ w.exclusiveRefs, s ∉ w.sharedRefs
  bound : ∀ s ∈ w.sharedRefs ++ w.exclusiveRefs, s < w.nextSeg
  inRange : ∀ r ∈ w.held, r.InRange w

/-- The references held stay, what they see stays, and the invariant holds afterwards. -/
structure Evolves (w w' : Store) : Prop where
  inv : w'.Inv
  held : w'.held = w.held
  scratch : w'.scratch = w.scratch
  frame : ∀ r ∈ w.held, ∀ s, r.keepalive = .segment s → w'.heap s = w.heap s

theorem Evolves.refl {w : Store} (h : w.Inv) : Evolves w w :=
  ⟨h, rfl, rfl, fun _ _ _ _ => rfl⟩

theorem Evolves.trans {w₁ w₂ w₃ : Store} (h₁ : Evolves w₁ w₂) (h₂ : Evolves w₂ w₃) :
    Evolves w₁ w₃ := by
  refine ⟨h₂.inv, h₂.held.trans h₁.held, h₂.scratch.trans h₁.scratch, ?_⟩
  intro r hr s hs
  rw [h₂.frame r (by rw [h₁.held]; exact hr) s hs, h₁.frame r hr s hs]

theorem mem_shared_of_chain {w : Store} {i : ℕ} {c : BufferChain SegId} {s : SegId}
    (hc : w.chains[i]? = some c) (hs : s ∈ c.segments) : s ∈ w.sharedRefs :=
  List.mem_append_left _ (List.mem_flatMap.2 ⟨c, List.mem_of_getElem? hc, hs⟩)

theorem mem_shared_of_held {w : Store} {r : RecordRef} {s : SegId} (hr : r ∈ w.held)
    (hs : r.keepalive = .segment s) : s ∈ w.sharedRefs :=
  List.mem_append_right _ (List.mem_filterMap.2 ⟨r, hr, by rw [hs]; rfl⟩)

theorem useCount_eq_zero {w : Store} {s : SegId} :
    w.useCount s = 0 ↔ s ∉ w.sharedRefs ∧ s ∉ w.exclusiveRefs := by
  rw [useCount, List.count_eq_zero, List.mem_append, not_or]

/-- A segment nobody references. -/
structure Unreferenced (w : Store) (s : SegId) : Prop where
  shared : s ∉ w.sharedRefs
  exclusive : s ∉ w.exclusiveRefs
  bound : s < w.nextSeg

/-- Chains whose segments did not change keep their bytes and their invariant. -/
theorem bytes_congr {h h' : SegId → Segment} {c : BufferChain SegId}
    (hc : ∀ s ∈ c.segments, (h' s).bytes = (h s).bytes) : c.bytes h' = c.bytes h := by
  rw [BufferChain.bytes, BufferChain.bytes, Chunks.flat_congr _ hc]

theorem wf_congr {h h' : SegId → Segment} {c : BufferChain SegId}
    (hc : ∀ s ∈ c.segments, (h' s).bytes = (h s).bytes) (hwf : c.WF h) : c.WF h' := by
  refine ⟨fun s hs => by rw [hc s hs]; exact hwf.nonempty s hs, ?_, hwf.offset_nil, ?_⟩
  · intro s hs
    rw [Segment.size, hc s (List.mem_of_mem_head? hs)]
    exact hwf.offset_lt s hs
  · rw [bytes_congr hc]
    exact hwf.size_eq

/-! ### Primitives -/

/-- Replacing a chain by one whose segments no free list and no writer holds. -/
theorem evolves_setChain {w : Store} (h : w.Inv) (i : ℕ) {c : BufferChain SegId} (hwf : c.WF w.heap)
    (hs : ∀ s ∈ c.segments, s ∉ w.exclusiveRefs ∧ s < w.nextSeg) : Evolves w (w.setChain i c) := by
  have hsub : ∀ s ∈ (w.setChain i c).sharedRefs, s ∈ c.segments ∨ s ∈ w.sharedRefs := by
    intro s hmem
    rcases List.mem_append.1 hmem with hmem | hmem
    · obtain ⟨d, hd, hsd⟩ := List.mem_flatMap.1 hmem
      rcases List.mem_or_eq_of_mem_set hd with hd | rfl
      · exact Or.inr (List.mem_append_left _ (List.mem_flatMap.2 ⟨d, hd, hsd⟩))
      · exact Or.inl hsd
    · exact Or.inr (List.mem_append_right _ hmem)
  refine ⟨⟨?_, h.nodup, ?_, ?_, h.inRange⟩, rfl, rfl, fun _ _ _ _ => rfl⟩
  · intro d hd
    rcases List.mem_or_eq_of_mem_set hd with hd | rfl
    · exact h.wf d hd
    · exact hwf
  · intro s he hmem
    rcases hsub s hmem with hc | hc
    · exact (hs s hc).1 he
    · exact h.disjoint s he hc
  · intro s hmem
    rcases List.mem_append.1 hmem with hmem | hmem
    · rcases hsub s hmem with hc | hc
      · exact (hs s hc).2
      · exact h.bound s (List.mem_append_left _ hc)
    · exact h.bound s (List.mem_append_right _ hmem)

theorem contents_setChain (w : Store) (i : ℕ) (c : BufferChain SegId) :
    (w.setChain i c).contents = w.contents.set i (c.bytes w.heap) := by
  simp only [contents, setChain, List.map_set]

/-- Replacing a chain by one that uses segments the store's chains already use. -/
theorem evolves_setChain_sub {w : Store} (h : w.Inv) (i : ℕ) {c : BufferChain SegId}
    (hwf : c.WF w.heap) (hs : ∀ s ∈ c.segments, s ∈ w.sharedRefs) : Evolves w (w.setChain i c) :=
  evolves_setChain h i hwf fun s hmem =>
    ⟨fun he => h.disjoint s he (hs s hmem), h.bound s (List.mem_append_left _ (hs s hmem))⟩

/-- Writing to a segment that no chain and no holder references. -/
theorem evolves_setSegment {w : Store} (h : w.Inv) {s : SegId} (hs : s ∉ w.sharedRefs) (seg : Segment) :
    Evolves w (w.setSegment s seg) ∧ (w.setSegment s seg).contents = w.contents := by
  have hheap : ∀ t ∈ w.sharedRefs, (w.setSegment s seg).heap t = w.heap t := by
    intro t ht
    have hne : t ≠ s := by
      rintro rfl
      exact hs ht
    exact Function.update_of_ne hne _ _
  have hchain : ∀ c ∈ w.chains, ∀ t ∈ c.segments,
      ((w.setSegment s seg).heap t).bytes = (w.heap t).bytes := by
    intro c hc t ht
    rw [hheap t (List.mem_append_left _ (List.mem_flatMap.2 ⟨c, hc, ht⟩))]
  refine ⟨⟨⟨fun c hc => wf_congr (hchain c hc) (h.wf c hc), h.nodup, h.disjoint, h.bound, ?_⟩, rfl, rfl,
    fun r hr t ht => hheap t (mem_shared_of_held hr ht)⟩, ?_⟩
  · intro r hr
    have hin := h.inRange r hr
    cases hk : r.keepalive with
    | segment t =>
      simp only [RecordRef.InRange, hk] at hin ⊢
      rw [hheap t (mem_shared_of_held hr hk)]
      exact hin
    | scratch k =>
      simp only [RecordRef.InRange, hk] at hin ⊢
      exact hin
  · exact List.map_congr_left fun c hc => bytes_congr (hchain c hc)

/-- Taking a new address. -/
theorem evolves_allocateFresh {w : Store} (h : w.Inv) :
    Evolves w w.allocateFresh.1 ∧ w.allocateFresh.1.contents = w.contents ∧
      w.allocateFresh.1.Unreferenced w.allocateFresh.2 ∧
      (w.allocateFresh.1.heap w.allocateFresh.2).bytes = [] := by
  have hnew : ∀ s ∈ w.sharedRefs ++ w.exclusiveRefs, s ≠ w.nextSeg := by
    intro s hs
    exact Nat.ne_of_lt (h.bound s hs)
  obtain ⟨he, hc⟩ := evolves_setSegment h (s := w.nextSeg)
    (fun hs => hnew _ (List.mem_append_left _ hs) rfl) .blank
  refine ⟨⟨⟨he.inv.wf, he.inv.nodup, he.inv.disjoint, ?_, he.inv.inRange⟩, rfl, rfl, he.frame⟩, hc,
    ⟨?_, ?_, Nat.lt_succ_self _⟩, by simp [allocateFresh]⟩
  · intro s hs
    exact Nat.lt_succ_of_lt (h.bound s hs)
  · exact fun hs => hnew _ (List.mem_append_left _ hs) rfl
  · exact fun hs => hnew _ (List.mem_append_right _ hs) rfl

/-- The free lists with one allocator's list replaced. -/
theorem freeLists_set {as : List SegmentAllocator} {a : ℕ} {al : SegmentAllocator}
    (h : as[a]? = some al) (fl : List SegId) :
    ∃ pre post, as.flatMap (·.freeList) = pre ++ al.freeList ++ post ∧
      (as.set a { al with freeList := fl }).flatMap (·.freeList) = pre ++ fl ++ post := by
  obtain ⟨hlt, rfl⟩ := List.getElem?_eq_some_iff.1 h
  refine ⟨(as.take a).flatMap (·.freeList), (as.drop (a + 1)).flatMap (·.freeList), ?_, ?_⟩
  · conv_lhs => rw [← List.take_append_drop a as, List.drop_eq_getElem_cons hlt]
    simp only [List.flatMap_append, List.flatMap_cons, List.append_assoc]
  · rw [List.set_eq_take_append_cons_drop, if_pos hlt]
    simp only [List.flatMap_append, List.flatMap_cons, List.append_assoc]

/-- A segment nobody references goes to a free list. -/
theorem evolves_pool {w : Store} (h : w.Inv) {a : ℕ} {al : SegmentAllocator}
    (ha : w.allocators[a]? = some al) {s : SegId} (hs : w.Unreferenced s) :
    Evolves w { w with allocators := w.allocators.set a { al with freeList := al.freeList ++ [s] } } := by
  obtain ⟨pre, post, h1, h2⟩ := freeLists_set ha (al.freeList ++ [s])
  have hperm : (pre ++ (al.freeList ++ [s]) ++ post ++ w.writers).Perm (s :: w.exclusiveRefs) := by
    rw [exclusiveRefs, h1]
    simp only [List.append_assoc, List.singleton_append]
    exact List.perm_iff_count.2 fun t => by simp only [List.count_append, List.count_cons]; omega
  have hex : ∀ t, t ∈ pre ++ (al.freeList ++ [s]) ++ post ++ w.writers ↔
      t = s ∨ t ∈ w.exclusiveRefs := fun t => by rw [hperm.mem_iff, List.mem_cons]
  refine ⟨⟨h.wf, ?_, ?_, ?_, h.inRange⟩, rfl, rfl, fun _ _ _ _ => rfl⟩
  · rw [exclusiveRefs, h2, hperm.nodup_iff]
    exact List.nodup_cons.2 ⟨hs.exclusive, h.nodup⟩
  · intro t ht
    rw [exclusiveRefs, h2] at ht
    rcases (hex t).1 ht with rfl | ht
    · exact hs.shared
    · exact h.disjoint t ht
  · intro t ht
    rw [exclusiveRefs, h2] at ht
    rcases List.mem_append.1 ht with ht | ht
    · exact h.bound t (List.mem_append_left _ ht)
    · rcases (hex t).1 ht with rfl | ht
      · exact hs.bound
      · exact h.bound t (List.mem_append_right _ ht)

/-- **`Allocate` hands out a segment nobody references**, with size zero. -/
theorem evolves_allocate {w : Store} (h : w.Inv) (a : ℕ) :
    Evolves w (w.allocate a).1 ∧ (w.allocate a).1.contents = w.contents ∧
      (w.allocate a).1.Unreferenced (w.allocate a).2 ∧
      ((w.allocate a).1.heap (w.allocate a).2).bytes = [] := by
  rw [allocate]
  cases ha : w.allocators[a]? with
  | none => exact evolves_allocateFresh h
  | some al =>
    cases hl : al.freeList.getLast? with
    | none => simpa only [hl] using evolves_allocateFresh h
    | some s =>
      simp only [hl]
      have hsplit : al.freeList = al.freeList.dropLast ++ [s] := by
        have hne : al.freeList ≠ [] := by rintro hnil; simp [hnil] at hl
        rw [List.getLast?_eq_getLast_of_ne_nil hne, Option.some.injEq] at hl
        rw [← hl, List.dropLast_append_getLast]
      obtain ⟨pre, post, h1, h2⟩ := freeLists_set ha al.freeList.dropLast
      have hperm : w.exclusiveRefs.Perm (s :: (pre ++ al.freeList.dropLast ++ post ++ w.writers)) := by
        rw [exclusiveRefs, h1, hsplit, List.dropLast_concat]
        exact List.perm_iff_count.2 fun t => by
          simp only [List.count_append, List.count_cons, List.count_nil]; omega
      have hnodup := hperm.nodup_iff.1 h.nodup
      have hmem : ∀ t, t ∈ w.exclusiveRefs ↔
          t = s ∨ t ∈ pre ++ al.freeList.dropLast ++ post ++ w.writers := fun t => by
        rw [hperm.mem_iff, List.mem_cons]
      have hsh : s ∉ w.sharedRefs := h.disjoint s ((hmem s).2 (Or.inl rfl))
      obtain ⟨he, hc⟩ := evolves_setSegment h hsh (w.heap s).reset
      refine ⟨⟨⟨he.inv.wf, ?_, ?_, ?_, he.inv.inRange⟩, rfl, rfl, he.frame⟩, hc, ⟨hsh, ?_, ?_⟩,
        by simp⟩
      · rw [exclusiveRefs, h2]
        exact (List.nodup_cons.1 hnodup).2
      · intro t ht
        rw [exclusiveRefs, h2] at ht
        exact h.disjoint t ((hmem t).2 (Or.inr ht))
      · intro t ht
        rcases List.mem_append.1 ht with ht | ht
        · exact h.bound t (List.mem_append_left _ ht)
        · rw [exclusiveRefs, h2] at ht
          exact h.bound t (List.mem_append_right _ ((hmem t).2 (Or.inr ht)))
      · rw [exclusiveRefs, h2]
        exact (List.nodup_cons.1 hnodup).1
      · exact h.bound s (List.mem_append_right _ ((hmem s).2 (Or.inl rfl)))

end Store

end DbnPipe
