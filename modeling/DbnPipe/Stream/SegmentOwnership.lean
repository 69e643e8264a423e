import DbnPipe.Stream.ChainRefinement

/-!
# Who owns an allocated segment

`SegmentAllocator` has no copy constructor of its own: **a copy holds the same free segments**, as the allocators of
`ChainImpl` in `src/live_protocol.hpp` and `src/historical_protocol.hpp` are copies of the one they are given.

* `AllocatorOp`, `stepAllocators` — the operations of the store, and allocators that are made, copied, assigned,
  given a bound and destroyed;
* `AllocatesAlone` — what an operation allocates, nobody else references, **in every round of `AppendBytes`** too;
* `CopiesEmpty` — an allocator is copied only while its free list is empty;
* `alone_of_emptyCopies` — then every segment has one owner when it is allocated;
* `copy_unsafe` — and after any other copy, two allocations return the same segment.
-/

namespace DbnPipe.Store

/-- The free list of an allocator. -/
def freeListOf (w : Store) (a : ℕ) : List SegId := ((w.allocators[a]?).map (·.freeList)).getD []

/-- What can happen to the allocators. -/
inductive AllocatorOp where
  | op (o : Op)
  | create
  | copy (a : ℕ)
  | assign (b a : ℕ)
  | setMaxPoolSize (a n : ℕ)
  | destroy (a : ℕ)

/-- One operation; a destroyed allocator drops its references. -/
def stepAllocators (w : Store) : AllocatorOp → Store
  | .op o => step w o
  | .create => { w with allocators := w.allocators ++ [{}] }
  | .copy a =>
    match w.allocators[a]? with
    | none => w
    | some al => { w with allocators := w.allocators ++ [al] }
  | .assign b a =>
    match w.allocators[a]? with
    | none => w
    | some al => { w with allocators := w.allocators.set b al }
  | .setMaxPoolSize a n =>
    match w.allocators[a]? with
    | none => w
    | some al => { w with allocators := w.allocators.set a { al with maxPoolSize := n } }
  | .destroy a => { w with allocators := w.allocators.set a {} }

/-- What `Allocate` returns, nobody references. -/
def Alone (w : Store) (a : ℕ) : Prop := (w.allocate a).1.useCount (w.allocate a).2 = 0

instance (w : Store) (a : ℕ) : Decidable (w.Alone a) := inferInstanceAs (Decidable (_ = _))

/-- The same in every round of the loop of `AppendBytes`. -/
def LoopAlone : ℕ → Store → ℕ → ℕ → List Byte → Prop
  | 0, _, _, _, _ => True
  | fuel + 1, w, i, a, data =>
    if data.length = 0 then True
    else
      let new := w.allocate a
      let seg := (new.1.heap new.2).append data
      w.Alone a ∧ LoopAlone fuel ((new.1.setSegment new.2 seg).appendTo i new.2) i a (data.drop seg.size)

/-- **What an operation allocates, nobody else references.** -/
def AllocatesAlone (w : Store) : AllocatorOp → Prop
  | .op (.allocate a) => w.Alone a
  | .op (.appendBytes i a l) => LoopAlone l.length w i a l
  | _ => True

/-- **An allocator is copied while its free list is empty.** -/
def CopiesEmpty (w : Store) : AllocatorOp → Prop
  | .copy a => w.freeListOf a = []
  | .assign b a => b = a ∨ w.freeListOf a = []
  | _ => True

/-! ### The invariant -/

/-- Allocators with no more free segments than before. -/
theorem inv_allocators {w : Store} (h : w.Inv) {as : List SegmentAllocator}
    (hsub : (as.flatMap (·.freeList)).Sublist (w.allocators.flatMap (·.freeList))) :
    Inv { w with allocators := as } := by
  have hexclusive : (exclusiveRefs { w with allocators := as }).Sublist w.exclusiveRefs :=
    hsub.append (List.Sublist.refl w.writers)
  refine ⟨h.wf, h.nodup.sublist hexclusive, fun s hs => h.disjoint s (hexclusive.subset hs), fun s hs => ?_, h.inRange⟩
  rcases List.mem_append.mp hs with hs | hs
  · exact h.bound s (List.mem_append_left _ hs)
  · exact h.bound s (List.mem_append_right _ (hexclusive.subset hs))

/-- An allocator replaced by one with no more free segments. -/
theorem freeLists_sublist {as : List SegmentAllocator} {a : ℕ} {new : SegmentAllocator}
    (h : ∀ al, as[a]? = some al → new.freeList.Sublist al.freeList) :
    ((as.set a new).flatMap (·.freeList)).Sublist (as.flatMap (·.freeList)) := by
  induction as generalizing a with
  | nil => exact List.Sublist.refl _
  | cons al as ih =>
    cases a with
    | zero => exact (h al rfl).append (List.Sublist.refl _)
    | succ a => exact (List.Sublist.refl al.freeList).append (ih fun al' hal' => h al' hal')

theorem freeListOf_eq {w : Store} {a : ℕ} {al : SegmentAllocator} (ha : w.allocators[a]? = some al) :
    w.freeListOf a = al.freeList := by
  rw [freeListOf, ha]
  rfl

theorem inv_stepAllocators {w : Store} (h : w.Inv) (o : AllocatorOp) (hempty : w.CopiesEmpty o) :
    (w.stepAllocators o).Inv := by
  cases o with
  | op o => exact (step_spec h o).inv
  | create =>
    refine inv_allocators h ?_
    rw [List.flatMap_append]
    exact (List.append_nil _).symm ▸ List.Sublist.refl _
  | copy a =>
    rw [stepAllocators]
    split
    · exact h
    · rename_i al ha
      refine inv_allocators h ?_
      rw [List.flatMap_append, List.flatMap_singleton, (freeListOf_eq ha).symm.trans hempty, List.append_nil]
  | assign b a =>
    rw [stepAllocators]
    split
    · exact h
    · rename_i al ha
      refine inv_allocators h (freeLists_sublist fun al' hal' => ?_)
      rcases hempty with rfl | hempty
      · obtain rfl := Option.some.inj (ha.symm.trans hal')
        exact List.Sublist.refl _
      · rw [(freeListOf_eq ha).symm.trans hempty]
        exact List.nil_sublist _
  | setMaxPoolSize a n =>
    rw [stepAllocators]
    split
    · exact h
    · rename_i al ha
      refine inv_allocators h (freeLists_sublist fun al' hal' => ?_)
      obtain rfl := Option.some.inj (ha.symm.trans hal')
      exact List.Sublist.refl _
  | destroy a => exact inv_allocators h (freeLists_sublist fun al' _ => List.nil_sublist _)

/-! ### Allocations -/

theorem alone_of_inv {w : Store} (h : w.Inv) (a : ℕ) : w.Alone a := by
  obtain ⟨-, -, hun, -⟩ := evolves_allocate h a
  exact useCount_eq_zero.mpr ⟨hun.shared, hun.exclusive⟩

theorem loopAlone_of_inv {w : Store} (h : w.Inv) (fuel i a : ℕ) (data : List Byte) : LoopAlone fuel w i a data := by
  induction fuel generalizing w data with
  | zero => trivial
  | succ fuel ih =>
    rw [LoopAlone]
    split
    · trivial
    · obtain ⟨e1, -, hun, -⟩ := evolves_allocate h a
      obtain ⟨e2, -⟩ := evolves_setSegment e1.inv hun.shared (((w.allocate a).1.heap (w.allocate a).2).append data)
      obtain ⟨e3, -⟩ := evolves_appendTo e2.inv i hun.exclusive hun.bound
      exact ⟨alone_of_inv h a, ih e3.inv _⟩

theorem allocatesAlone_of_inv {w : Store} (h : w.Inv) (o : AllocatorOp) : w.AllocatesAlone o := by
  cases o with
  | op o =>
    cases o with
    | allocate a => exact alone_of_inv h a
    | appendBytes i a l => exact loopAlone_of_inv h _ i a l
    | _ => trivial
  | _ => trivial

theorem alone_run {w : Store} (h : w.Inv) {ops : List AllocatorOp}
    (hempty : Runs.Along CopiesEmpty stepAllocators w ops) :
    Runs.Along AllocatesAlone stepAllocators w ops := by
  induction ops generalizing w with
  | nil => trivial
  | cons o ops ih => exact ⟨allocatesAlone_of_inv h o, ih (inv_stepAllocators h o hempty.1) hempty.2⟩

/-- **A segment has one owner when it is allocated**, in every run in which allocators are copied only while their
free lists are empty. -/
theorem alone_of_emptyCopies (maxPools : List ℕ) (ops : List AllocatorOp)
    (h : Runs.Along CopiesEmpty stepAllocators (initial maxPools) ops) :
    Runs.Along AllocatesAlone stepAllocators (initial maxPools) ops := alone_run (inv_initial maxPools) h

/-! ### Other copies -/

theorem allocate_of_free {w : Store} {a : ℕ} {al : SegmentAllocator} {s : SegId} (ha : w.allocators[a]? = some al)
    (hs : al.freeList.getLast? = some s) :
    w.allocate a =
      ({ w with
         heap := Function.update w.heap s (w.heap s).reset
         allocators := w.allocators.set a { al with freeList := al.freeList.dropLast } }, s) := by
  rw [allocate, ha]
  dsimp only
  rw [hs]

/-- **The condition is needed**: after a copy of an allocator with a free segment, the two return the same one. -/
theorem copy_unsafe {w : Store} {a : ℕ} (h : w.freeListOf a ≠ []) :
    ¬Runs.Along AllocatesAlone stepAllocators w
      [.copy a, .op (.allocate a), .op (.allocate w.allocators.length)] := by
  rintro ⟨-, -, halone, -⟩
  obtain ⟨al, ha⟩ : ∃ al, w.allocators[a]? = some al := by
    cases ha : w.allocators[a]? with
    | none => exact absurd (by rw [freeListOf, ha]; rfl) h
    | some al => exact ⟨al, rfl⟩
  rw [freeListOf_eq ha] at h
  obtain ⟨s, hs⟩ : ∃ s, al.freeList.getLast? = some s := ⟨_, List.getLast?_eq_some_getLast h⟩
  have hlt : a < w.allocators.length := (List.getElem?_eq_some_iff.mp ha).1
  -- the copy is the last allocator, and the first allocation leaves it alone
  let w₁ : Store := { w with allocators := w.allocators ++ [al] }
  have hcopy : w.stepAllocators (.copy a) = w₁ := by
    rw [stepAllocators, ha]
  have ha₁ : w₁.allocators[a]? = some al := (List.getElem?_append_left hlt).trans ha
  let w₂ : Store :=
    { w₁ with
      heap := Function.update w.heap s (w.heap s).reset
      allocators := (w.allocators ++ [al]).set a { al with freeList := al.freeList.dropLast }
      writers := w.writers ++ [s] }
  have hfirst : w₁.stepAllocators (.op (.allocate a)) = w₂ := by
    show { (w₁.allocate a).1 with writers := w₁.writers ++ [(w₁.allocate a).2] } = _
    rw [allocate_of_free ha₁ hs]
  have ha₂ : w₂.allocators[w.allocators.length]? = some al := by
    show ((w.allocators ++ [al]).set a _)[w.allocators.length]? = some al
    rw [List.getElem?_set_ne (Nat.ne_of_lt hlt), List.getElem?_append_right (Nat.le_refl _), Nat.sub_self]
    rfl
  rw [hcopy, hfirst] at halone
  have hzero : w₂.Alone w.allocators.length := halone
  rw [Alone, allocate_of_free ha₂ hs, useCount_eq_zero] at hzero
  exact hzero.2 (List.mem_append_right _ (List.mem_append_right _ List.mem_cons_self))

/-- Two allocators, one of them a copy made while the free list is empty; a segment goes through a chain and back. -/
def copyFirst : List AllocatorOp :=
  [.copy 0, .op (.newChain (some 0)), .op (.allocate 0), .op (.fill 0 [1, 2]), .op (.append 0 0), .op (.consume 0 2),
    .op (.allocate 0), .op (.allocate 1)]

theorem alone_of_emptyCopies_copyFirst : Runs.Along AllocatesAlone stepAllocators (initial [32]) copyFirst :=
  alone_of_emptyCopies [32] copyFirst ⟨rfl, trivial, trivial, trivial, trivial, trivial, trivial, trivial, trivial⟩

/-- **A segment with two owners**: the allocator is copied after a segment has been recycled. -/
theorem two_owners :
    ¬Runs.Along AllocatesAlone stepAllocators (initial [32])
      [.op (.allocate 0), .op (.release 0 0), .copy 0, .op (.allocate 0), .op (.allocate 1)] := by
  rintro ⟨-, -, -, -, halone, -⟩
  exact absurd (show Alone _ 1 from halone) (by decide)

end DbnPipe.Store
