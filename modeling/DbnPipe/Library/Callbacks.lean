import Mathlib.Logic.Function.Basic

/-!
# Objects that call back

The operations of an object call another party, the callee, and the callee may call the operations again before it
returns.

* `Callee op` — **what a callee does in one call**: operations, chosen by the state it finds, one after the other;
  during each of them it is called again;
* `Reachable op` — where such a party brings the object, from outside;
* `Keeps` — what is kept by a call; `Callee.keeps`, `Reachable.keeps` — **the rule**: an invariant that each
  operation keeps, as long as the callee does, is kept by every party.
-/

namespace DbnPipe.Callbacks

variable {C ι : Type*}

/-- Calls from `P` end in `P`. -/
def Keeps (P : C → Prop) (f : C → C) : Prop := ∀ c, P c → P (f c)

/-- What a callee does in one call, `op` being the operations with their callee. -/
inductive Callee (op : (C → C) → ι → C → C) : (C → C) → Prop
  | returns : Callee op id
  | chooses {f : C → C → C} (h : ∀ c, Callee op (f c)) : Callee op fun c => f c c
  | calls (i : ι) {callee rest : C → C} (hcallee : Callee op callee) (hrest : Callee op rest) :
      Callee op fun c => rest (op callee i c)

/-- Where a party that calls the operations brings the object. -/
def Reachable (op : (C → C) → ι → C → C) (start c : C) : Prop := ∃ caller, Callee op caller ∧ caller start = c

variable {op : (C → C) → ι → C → C} {P : C → Prop}

/-- **What every operation keeps, if its callee does, every callee keeps.** -/
theorem Callee.keeps (hop : ∀ callee, Keeps P callee → ∀ i, Keeps P (op callee i)) {f : C → C} (h : Callee op f) :
    Keeps P f := by
  induction h with
  | returns => exact fun _ hc => hc
  | chooses _ ih => exact fun c hc => ih c c hc
  | calls i _ _ hcallee hrest => exact fun c hc => hrest _ (hop _ hcallee i c hc)

/-- So it holds wherever the object is brought. -/
theorem Reachable.keeps (hop : ∀ callee, Keeps P callee → ∀ i, Keeps P (op callee i)) {start c : C}
    (h : Reachable op start c) (hstart : P start) : P c := by
  obtain ⟨caller, hcaller, rfl⟩ := h
  exact hcaller.keeps hop start hstart

end DbnPipe.Callbacks
