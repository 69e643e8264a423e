import Mathlib.Data.List.Basic
import Mathlib.Data.List.Induction

/-!
# Journals in which every entry is justified by those before it

A journal is the list of what a machine did, oldest first.  Ordering properties ("`b` only after `a`") say of
each entry what the entries **before** it must be.

* `Justified P` — every entry `a` of the journal, with `before` the entries before it, meets `P before a`;
* `justified_concat` — **one more entry** has to be justified by the journal so far, and nothing else;
* `Justified.append` — more entries that need no justification.
-/

namespace DbnPipe.Journal

variable {α : Type*}

/-- Every entry of the journal is justified by the entries before it. -/
def Justified (P : List α → α → Prop) (journal : List α) : Prop :=
  ∀ before a after, journal = before ++ a :: after → P before a

theorem justified_nil (P : List α → α → Prop) : Justified P [] := fun before a after h => by simp at h

/-- **One more entry.** -/
theorem justified_concat {P : List α → α → Prop} {journal : List α} {a : α} :
    Justified P (journal ++ [a]) ↔ Justified P journal ∧ P journal a := by
  refine ⟨fun h => ⟨fun before b after hj => ?_, h journal a [] rfl⟩, fun ⟨h, ha⟩ => ?_⟩
  · exact h before b (after ++ [a]) (by rw [hj, List.append_assoc, List.cons_append])
  · intro before b after hj
    rcases List.eq_nil_or_concat after with rfl | ⟨rest, z, rfl⟩
    · obtain ⟨rfl, hb⟩ := List.append_inj' hj rfl
      rw [List.cons.injEq] at hb
      rw [← hb.1]
      exact ha
    · rw [List.concat_eq_append, ← List.cons_append, ← List.append_assoc] at hj
      exact h before b rest (List.append_inj' hj rfl).1

/-- More entries, each justified whatever stands before it. -/
theorem Justified.append {P : List α → α → Prop} {journal extra : List α} (h : Justified P journal)
    (hextra : ∀ a ∈ extra, ∀ before, P before a) : Justified P (journal ++ extra) := by
  induction extra using List.reverseRecOn with
  | nil => rwa [List.append_nil]
  | append_singleton extra a ih =>
      rw [← List.append_assoc, justified_concat]
      exact ⟨ih fun b hb => hextra b (List.mem_append_left _ hb), hextra a (by simp) _⟩

end DbnPipe.Journal
