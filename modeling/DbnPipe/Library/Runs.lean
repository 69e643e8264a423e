import Mathlib.Data.List.Basic

/-!
# Runs of a deterministic step function, and conditions along them

A machine is a function `step : σ → α → σ` driven by a list of inputs.  This file provides what every
invariant proof over such runs needs, machine-independently:

* `run` — the state after a list of inputs, with its append law;
* `Along ok` — a condition on (state before, input) that holds at **every** step of a run, with its
  append and prefix laws;
* `run_preserves` — an invariant kept by every step that meets the condition holds at the end of a run
  that meets it throughout;
* `good_prefixes_iff` — where single steps are good exactly under the condition, runs are **throughout**.
-/

namespace DbnPipe.Runs

variable {σ τ α : Type*}

/-- The state after the inputs `as`, from `s`. -/
def run (step : σ → α → σ) (s : σ) (as : List α) : σ := as.foldl step s

@[simp] theorem run_nil (step : σ → α → σ) (s : σ) : run step s [] = s := rfl

@[simp] theorem run_cons (step : σ → α → σ) (s : σ) (a : α) (as : List α) :
    run step s (a :: as) = run step (step s a) as := rfl

theorem run_append (step : σ → α → σ) (s : σ) (as bs : List α) :
    run step s (as ++ bs) = run step (run step s as) bs := by
  simp only [run, List.foldl_append]

theorem run_concat (step : σ → α → σ) (s : σ) (as : List α) (a : α) :
    run step s (as ++ [a]) = step (run step s as) a := by
  rw [run_append, run_cons, run_nil]

/-- Every step of the run from `s` meets the condition `ok` on its input and the state before it. -/
def Along (ok : σ → α → Prop) (step : σ → α → σ) : σ → List α → Prop
  | _, [] => True
  | s, a :: as => ok s a ∧ Along ok step (step s a) as

theorem along_append (ok : σ → α → Prop) (step : σ → α → σ) (s : σ) (as bs : List α) :
    Along ok step s (as ++ bs) ↔ Along ok step s as ∧ Along ok step (run step s as) bs := by
  induction as generalizing s with
  | nil => simp [Along]
  | cons a as ih => simp only [List.cons_append, Along, ih, run_cons, and_assoc]

/-- Inputs that meet the condition in every state. -/
theorem along_of_forall {ok : σ → α → Prop} {step : σ → α → σ} {as : List α} (h : ∀ a ∈ as, ∀ s, ok s a) (s : σ) :
    Along ok step s as := by
  induction as generalizing s with
  | nil => trivial
  | cons a as ih => exact ⟨h a List.mem_cons_self s, ih (fun b hb => h b (List.mem_cons_of_mem a hb)) (step s a)⟩

theorem Along.mono {ok ok' : σ → α → Prop} {step : σ → α → σ} (h : ∀ s a, ok s a → ok' s a) :
    ∀ {s : σ} {as : List α}, Along ok step s as → Along ok' step s as
  | _, [], _ => trivial
  | _, _ :: _, ⟨h1, h2⟩ => ⟨h _ _ h1, h2.mono h⟩

theorem Along.and {ok ok' : σ → α → Prop} {step : σ → α → σ} :
    ∀ {s : σ} {as : List α}, Along ok step s as → Along ok' step s as →
      Along (fun s a => ok s a ∧ ok' s a) step s as
  | _, [], _, _ => trivial
  | _, _ :: _, ⟨h1, h2⟩, ⟨h1', h2'⟩ => ⟨⟨h1, h1'⟩, h2.and h2'⟩

/-- **The run rule.**  What every step meeting `ok` preserves, a run meeting `ok` throughout preserves. -/
theorem run_preserves {ok : σ → α → Prop} {step : σ → α → σ} {inv : σ → Prop}
    (hstep : ∀ s a, inv s → ok s a → inv (step s a)) :
    ∀ {s : σ} {as : List α}, inv s → Along ok step s as → inv (run step s as) := by
  intro s as hs hok
  induction as generalizing s with
  | nil => exact hs
  | cons a as ih => exact ih (hstep s a hs hok.1) hok.2

/-- The run rule without a side condition. -/
theorem run_invariant {step : σ → α → σ} {inv : σ → Prop} (hstep : ∀ s a, inv s → inv (step s a))
    {s : σ} (hs : inv s) (as : List α) : inv (run step s as) := by
  induction as generalizing s with
  | nil => exact hs
  | cons a as ih => exact ih (hstep s a hs)

/-- **Good throughout**: where, under an invariant, a good state stays good exactly over the steps that meet `ok`, a
run is good in all its states exactly if all its steps meet `ok`. -/
theorem good_prefixes_iff {ok : σ → α → Prop} {step : σ → α → σ} {inv good : σ → Prop}
    (hinv : ∀ s a, inv s → inv (step s a)) (hgood : ∀ s a, inv s → good s → (good (step s a) ↔ ok s a))
    {s : σ} {as : List α} (hs : inv s) (hg : good s) :
    (∀ pre, pre <+: as → good (run step s pre)) ↔ Along ok step s as := by
  induction as generalizing s with
  | nil =>
    refine ⟨fun _ => trivial, fun _ pre hpre => ?_⟩
    rw [List.prefix_nil.mp hpre]
    exact hg
  | cons a as ih =>
    constructor
    · intro h
      have hone : good (step s a) := h [a] (List.prefix_append [a] as)
      refine ⟨(hgood s a hs hg).mp hone, (ih (hinv s a hs) hone).mp fun pre hpre => h (a :: pre) ?_⟩
      exact List.cons_prefix_cons.mpr ⟨rfl, hpre⟩
    · rintro ⟨hok, hrest⟩ pre hpre
      cases pre with
      | nil => exact hg
      | cons b pre =>
        obtain ⟨rfl, htail⟩ := List.cons_prefix_cons.mp hpre
        exact (ih (hinv s b hs) ((hgood s b hs hg).mpr hok)).mpr hrest pre htail

end DbnPipe.Runs
