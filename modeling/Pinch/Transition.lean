import Mathlib.Logic.Basic

/-! Runs of a labelled transition function. A run records the labels it took and
asks every one of them to meet a condition in the state before it. -/

namespace Pinch.Transition

variable {σ ι : Type*} {step : σ → ι → Option σ} {ok : σ → ι → Prop} {s t u : σ} {l : List ι}

inductive Run (step : σ → ι → Option σ) (ok : σ → ι → Prop) (s : σ) : List ι → σ → Prop
  | nil : Run step ok s [] s
  | snoc {l : List ι} {t u : σ} {x : ι} (h : Run step ok s l t) (hok : ok t x)
      (hs : step t x = some u) : Run step ok s (l ++ [x]) u

theorem Run.invariant {P : σ → Prop} (h : Run step ok s l t) (h0 : P s)
    (hstep : ∀ t x u, P t → ok t x → step t x = some u → P u) : P t := by
  induction h with
  | nil => exact h0
  | snoc _ hok hs ih => exact hstep _ _ _ ih hok hs

theorem Run.imp {ok' : σ → ι → Prop} (h : Run step ok s l t) (himp : ∀ s x, ok s x → ok' s x) :
    Run step ok' s l t := by
  induction h with
  | nil => exact .nil
  | snoc _ hok hs ih => exact .snoc ih (himp _ _ hok) hs

/-- A condition on the labels alone holds of all of them. -/
theorem Run.forall_label {P : ι → Prop} (h : Run step (fun _ x => P x) s l t) : ∀ x ∈ l, P x := by
  induction h with
  | nil => simp
  | snoc _ hok _ ih =>
    intro y hy
    rcases List.mem_append.1 hy with hy | hy
    · exact ih y hy
    · exact List.mem_singleton.1 hy ▸ hok

theorem Run.trans {m : List ι} (h : Run step ok s l t) (h' : Run step ok t m u) :
    Run step ok s (l ++ m) u := by
  induction h' with
  | nil => simpa using h
  | snoc _ hok hs ih => simpa using Run.snoc ih hok hs

/-- States that `m` does not tell apart have the same runs, when the steps do not depend on what
`m` forgets. -/
theorem Run.forget {m : σ → σ} {s' : σ} (h : Run step ok s l t)
    (hok : ∀ s s' x, m s = m s' → ok s x → ok s' x)
    (hstep : ∀ s x, ok s x → step (m s) x = (step s x).map m) (heq : m s = m s') :
    ∃ t', Run step ok s' l t' ∧ m t = m t' := by
  induction h with
  | nil => exact ⟨s', .nil, heq⟩
  | @snoc l v u x _ hv hs ih =>
    obtain ⟨v', hrun, hvv'⟩ := ih
    have hv' := hok v v' x hvv' hv
    have hmap : (step v' x).map m = some (m u) := by
      rw [← hstep v' x hv', ← hvv', hstep v x hv, hs]
      rfl
    obtain ⟨u', hu', hmu⟩ := Option.map_eq_some_iff.1 hmap
    exact ⟨u', hrun.snoc hv' hu', hmu.symm⟩

/-- A step that appends what it puts out to a log. -/
def logged {α : Type*} (step : σ → ι → Option σ) (out : σ → ι → Option α) (s : σ × List α)
    (x : ι) : Option (σ × List α) :=
  (step s.1 x).map (·, s.2 ++ (out s.1 x).toList)

theorem logged_eq_some {α : Type*} {out : σ → ι → Option α} {log log' : List α} {x : ι} :
    logged step out (s, log) x = some (t, log') ↔
      step s x = some t ∧ log ++ (out s x).toList = log' := by
  cases hs : step s x <;> simp [logged, hs]

theorem Run.logged {α : Type*} (out : σ → ι → Option α) (h : Run step ok s l t) :
    ∃ log, Run (logged step out) (fun s x => ok s.1 x) (s, []) l (t, log) := by
  induction h with
  | nil => exact ⟨[], .nil⟩
  | snoc _ hok hs ih =>
    obtain ⟨log, hlog⟩ := ih
    exact ⟨_, .snoc hlog hok (logged_eq_some.2 ⟨hs, rfl⟩)⟩

theorem Run.of_logged {α : Type*} {out : σ → ι → Option α} {log log' : List α}
    (h : Run (Transition.logged step out) (fun s x => ok s.1 x) (s, log) l (t, log')) :
    Run step ok s l t := by
  generalize hu : (t, log') = u at h
  induction h generalizing t log' with
  | nil =>
    obtain ⟨rfl, -⟩ := Prod.mk.inj hu
    exact .nil
  | @snoc l v u x _ hok hs ih =>
    subst hu
    exact .snoc (ih rfl) hok (logged_eq_some.1 hs).1

/-- Executing a list of labels; `none` when one of them is not enabled or not admitted. -/
def exec (step : σ → ι → Option σ) (ok : σ → ι → Prop) [∀ s x, Decidable (ok s x)] :
    σ → List ι → Option σ
  | s, [] => some s
  | s, x :: l => if ok s x then (step s x).bind (fun t => exec step ok t l) else none

theorem Run.of_exec [∀ s x, Decidable (ok s x)] (h : exec step ok s l = some t) :
    Run step ok s l t := by
  induction l generalizing s with
  | nil =>
    obtain rfl : s = t := by simpa [exec] using h
    exact .nil
  | cons x l ih =>
    by_cases hok : ok s x
    · cases hs : step s x with
      | none => simp [exec, hs] at h
      | some v =>
        have hrest := ih (by simpa [exec, hs, hok] using h)
        exact (Run.snoc .nil hok hs).trans hrest
    · simp [exec, hok] at h

end Pinch.Transition
