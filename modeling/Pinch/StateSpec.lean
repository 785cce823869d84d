import Mathlib.Logic.Basic

/-! Pre- and postconditions for code that changes a state and may throw. What was
written before an exception stays written, so the exceptional postcondition also
speaks about the state. -/

namespace Pinch

variable {ε σ α β : Type}

/-- From every state in `P`, `x` returns in `Q` or throws in `E`. -/
def Spec (P : σ → Prop) (x : EStateM ε σ α) (Q : α → σ → Prop) (E : ε → σ → Prop) : Prop :=
  ∀ s, P s → match x.run s with
    | .ok a t => Q a t
    | .error e t => E e t

/-- `P` holds after `x` if it held before, also where `x` throws. -/
abbrev Keeps (P : σ → Prop) (x : EStateM ε σ α) : Prop :=
  Spec P x (fun _ => P) (fun _ => P)

theorem run_bind_ok {x : EStateM ε σ α} {f : α → EStateM ε σ β} {s u : σ} {b : β} :
    (x >>= f).run s = .ok b u ↔ ∃ a t, x.run s = .ok a t ∧ (f a).run t = .ok b u := by
  rw [EStateM.run_bind]
  constructor
  · intro h
    cases hx : x.run s with
    | ok a t => exact ⟨a, t, rfl, by simpa [hx] using h⟩
    | error e t => simp [hx] at h
  · rintro ⟨a, t, hx, hf⟩
    simpa [hx] using hf

namespace Spec

variable {P R : σ → Prop} {Q S : α → σ → Prop} {E F : ε → σ → Prop} {x : EStateM ε σ α}

theorem pure {a : α} (h : ∀ s, P s → Q a s) : Spec P (pure a : EStateM ε σ α) Q E := h

theorem throw {e : ε} (h : ∀ s, P s → E e s) : Spec P (throw e : EStateM ε σ α) Q E := h

theorem modify {f : σ → σ} {Q : Unit → σ → Prop} (h : ∀ s, P s → Q () (f s)) :
    Spec P (modify f : EStateM ε σ Unit) Q E := h

theorem bind {R : α → σ → Prop} {Q : β → σ → Prop} {f : α → EStateM ε σ β} (hx : Spec P x R E)
    (hf : ∀ a, Spec (R a) (f a) Q E) : Spec P (x >>= f) Q E := by
  intro s hs
  have h := hx s hs
  rw [EStateM.run_bind]
  revert h
  cases x.run s with
  | ok a t => exact fun h => hf a t h
  | error e t => exact id

theorem get_bind {Q : β → σ → Prop} {f : σ → EStateM ε σ β}
    (hf : ∀ s, Spec (fun t => t = s ∧ P t) (f s) Q E) : Spec P (get >>= f) Q E :=
  fun s hs => hf s s ⟨rfl, hs⟩

theorem read_bind {Q : β → σ → Prop} {f : σ → EStateM ε σ β} (hf : ∀ s, Spec P (f s) Q E) :
    Spec P (get >>= f) Q E :=
  fun s hs => hf s s hs

theorem run_tryCatch {handle : ε → EStateM ε σ α} {s : σ} :
    (tryCatch x handle).run s = match x.run s with
      | .ok a t => .ok a t
      | .error e t => (handle e).run t := by
  change EStateM.tryCatch x handle s = _
  unfold EStateM.tryCatch EStateM.run
  cases x s <;> rfl

theorem tryCatch {handle : ε → EStateM ε σ α} (hx : Spec P x Q F)
    (hh : ∀ e, Spec (F e) (handle e) Q E) : Spec P (tryCatch x handle) Q E := by
  intro s hs
  have h := hx s hs
  rw [run_tryCatch]
  revert h
  cases x.run s with
  | ok a t => exact id
  | error e t => exact fun h => hh e t h

theorem conseq (h : Spec R x S F) (hP : ∀ s, P s → R s) (hQ : ∀ a s, S a s → Q a s)
    (hE : ∀ e s, F e s → E e s) : Spec P x Q E := by
  intro s hs
  have hh := h s (hP s hs)
  revert hh
  cases x.run s with
  | ok a t => exact hQ a t
  | error e t => exact hE e t

theorem ok {s t : σ} {a : α} (h : Spec P x Q E) (hs : P s) (hr : x.run s = .ok a t) : Q a t := by
  simpa only [hr] using h s hs

theorem and (h : Spec P x Q E) (h' : Spec R x S F) : Spec (fun s => P s ∧ R s) x
    (fun a s => Q a s ∧ S a s) (fun e s => E e s ∧ F e s) := by
  intro s hs
  have hx := h s hs.1
  have hx' := h' s hs.2
  revert hx hx'
  cases x.run s with
  | ok a t => exact fun hq hs => ⟨hq, hs⟩
  | error e t => exact fun he hf => ⟨he, hf⟩

theorem returns {s : σ} (h : Spec P x Q (fun _ _ => False)) (hs : P s) :
    ∃ a t, x.run s = .ok a t ∧ Q a t := by
  have hh := h s hs
  revert hh
  cases x.run s with
  | ok a t => exact fun hq => ⟨a, t, rfl, hq⟩
  | error e t => exact False.elim

theorem error {s t : σ} {e : ε} (h : Spec P x Q E) (hs : P s) (hr : x.run s = .error e t) :
    E e t := by
  simpa only [hr] using h s hs

end Spec

/-- An operation on a part of the state. -/
def zoom {τ : Type} (part : σ → τ) (put : σ → τ → σ) (x : EStateM ε τ α) : EStateM ε σ α := fun s =>
  match x.run (part s) with
  | .ok a t => .ok a (put s t)
  | .error e t => .error e (put s t)

theorem Spec.zoom {τ : Type} {part : σ → τ} {put : σ → τ → σ} {x : EStateM ε τ α} {P : σ → Prop}
    {Q : α → σ → Prop} {E : ε → σ → Prop}
    (h : ∀ s, P s → Spec (fun t => t = part s) x (fun a t => Q a (put s t))
      (fun e t => E e (put s t))) : Spec P (zoom part put x) Q E := by
  intro s hs
  have hx := h s hs (part s) rfl
  simp only [Pinch.zoom, EStateM.run] at hx ⊢
  revert hx
  cases x (part s) with
  | ok a t => exact id
  | error e t => exact id

/-- `x` does not throw. -/
def Returns (x : EStateM ε σ α) (s : σ) : Prop := ∃ a t, x.run s = .ok a t

instance (x : EStateM ε σ α) (s : σ) : Decidable (Returns x s) :=
  match h : x.run s with
  | .ok a t => isTrue ⟨a, t, h⟩
  | .error _ _ => isFalse fun ⟨_, _, h'⟩ => by cases h.symm.trans h'

theorem Spec.returns_iff {P : σ → Prop} {Q : α → σ → Prop} {E : ε → σ → Prop} {C : Prop}
    {x : EStateM ε σ α} {s : σ} (h : Spec P x (fun a s => Q a s ∧ C) (fun e s => E e s ∧ ¬ C))
    (hs : P s) : Returns x s ↔ C := by
  have hx := h s hs
  unfold Returns
  revert hx
  cases x.run s with
  | ok a t => exact fun hx => iff_of_true ⟨a, t, rfl⟩ hx.2
  | error e t => exact fun hx => iff_of_false (by simp) hx.2

@[simp] theorem returns_pure {a : α} {s : σ} : Returns (pure a : EStateM ε σ α) s := ⟨a, s, rfl⟩

@[simp] theorem not_returns_throw {e : ε} {s : σ} : ¬ Returns (throw e : EStateM ε σ α) s :=
  fun ⟨_, _, h⟩ => by cases h

@[simp] theorem returns_get_bind {f : σ → EStateM ε σ β} {s : σ} :
    Returns (get >>= f) s ↔ Returns (f s) s := Iff.rfl

@[simp] theorem returns_modify {f : σ → σ} {s : σ} : Returns (modify f : EStateM ε σ PUnit) s :=
  ⟨_, _, rfl⟩

@[simp] theorem returns_modify_bind {g : σ → σ} {f : PUnit → EStateM ε σ β} {s : σ} :
    Returns (modify g >>= f) s ↔ Returns (f ()) (g s) := Iff.rfl

theorem returns_bind_of_run {x : EStateM ε σ α} {f : α → EStateM ε σ β} {a : α} {s t : σ}
    (h : x.run s = .ok a t) : Returns (x >>= f) s ↔ Returns (f a) t := by
  unfold Returns
  rw [EStateM.run_bind, h]

theorem not_returns_bind_of_run {x : EStateM ε σ α} {f : α → EStateM ε σ β} {e : ε} {s t : σ}
    (h : x.run s = .error e t) : ¬ Returns (x >>= f) s := by
  rintro ⟨b, u, hu⟩
  rw [EStateM.run_bind, h] at hu
  cases hu

theorem returns_zoom {τ : Type} {part : σ → τ} {put : σ → τ → σ} {x : EStateM ε τ α} {s : σ} :
    Returns (zoom part put x) s ↔ Returns x (part s) := by
  simp only [Returns, zoom, EStateM.run]
  cases x (part s) with
  | ok a t => exact iff_of_true ⟨_, _, rfl⟩ ⟨_, _, rfl⟩
  | error e t =>
    refine iff_of_false ?_ ?_
    · rintro ⟨_, _, h⟩
      cases h
    · rintro ⟨_, _, h⟩
      cases h

/-- Wherever `x` throws, it leaves a state with the property. -/
def FailsOnly (x : EStateM ε σ α) (s : σ) (P : σ → Prop) : Prop :=
  ∀ e t, x.run s = .error e t → P t

section FailsOnly

variable {x : EStateM ε σ α} {f : α → EStateM ε σ β} {P : σ → Prop} {s t : σ} {a : α} {e : ε}

theorem failsOnly_of_run (h : x.run s = .ok a t) : FailsOnly x s P := by
  intro e u hu
  cases h.symm.trans hu

theorem failsOnly_of_error (h : x.run s = .error e t) : FailsOnly x s P ↔ P t := by
  refine ⟨fun hx => hx e t h, fun ht e' u hu => ?_⟩
  obtain ⟨-, rfl⟩ := EStateM.Result.error.inj (h.symm.trans hu)
  exact ht

theorem failsOnly_bind_of_run (h : x.run s = .ok a t) :
    FailsOnly (x >>= f) s P ↔ FailsOnly (f a) t P := by
  unfold FailsOnly
  rw [EStateM.run_bind, h]

theorem failsOnly_bind_of_error (h : x.run s = .error e t) : FailsOnly (x >>= f) s P ↔ P t := by
  have hrun : (x >>= f).run s = .error e t := by rw [EStateM.run_bind, h]
  exact failsOnly_of_error hrun

theorem failsOnly_zoom {τ : Type} {part : σ → τ} {put : σ → τ → σ} {x : EStateM ε τ α} :
    FailsOnly (zoom part put x) s P ↔ FailsOnly x (part s) fun t => P (put s t) := by
  cases hx : x.run (part s) with
  | ok a t =>
    have hzoom : (zoom part put x).run s = .ok a (put s t) := by
      simp only [zoom, EStateM.run] at hx ⊢
      rw [hx]
    exact iff_of_true (failsOnly_of_run hzoom) (failsOnly_of_run hx)
  | error e t =>
    have hzoom : (zoom part put x).run s = .error e (put s t) := by
      simp only [zoom, EStateM.run] at hx ⊢
      rw [hx]
    rw [failsOnly_of_error hzoom, failsOnly_of_error hx]

end FailsOnly

/-- Two computations end alike: both return, or both throw. -/
def Agree (Q : α → σ → β → σ → Prop) (E : σ → σ → Prop) :
    EStateM.Result ε σ α → EStateM.Result ε σ β → Prop
  | .ok a s, .ok b t => Q a s b t
  | .error _ s, .error _ t => E s t
  | _, _ => False

namespace Agree

variable {γ δ : Type} {E : σ → σ → Prop} {x : EStateM ε σ α} {y : EStateM ε σ β} {s t : σ}

theorem bind {R : α → σ → β → σ → Prop} {Q : γ → σ → δ → σ → Prop} {f : α → EStateM ε σ γ}
    {g : β → EStateM ε σ δ} (h : Agree R E (x.run s) (y.run t))
    (hfg : ∀ a s b t, R a s b t → Agree Q E ((f a).run s) ((g b).run t)) :
    Agree Q E ((x >>= f).run s) ((y >>= g).run t) := by
  rw [EStateM.run_bind, EStateM.run_bind]
  revert h
  cases x.run s with
  | ok a s' =>
    cases y.run t with
    | ok b t' => exact hfg a s' b t'
    | error e t' => exact False.elim
  | error e s' =>
    cases y.run t with
    | ok b t' => exact False.elim
    | error e' t' => exact id

/-- Each computation by itself, from what decides whether it returns. -/
theorem of_spec {Q : α → σ → β → σ → Prop} {R : α → σ → Prop} {S : β → σ → Prop} {F G : σ → Prop}
    (hreturns : Returns x s ↔ Returns y t) (hx : Spec (fun u => u = s) x R (fun _ => F))
    (hy : Spec (fun u => u = t) y S (fun _ => G))
    (hQ : ∀ a s' b t', R a s' → S b t' → Q a s' b t') (hE : ∀ s' t', F s' → G t' → E s' t') :
    Agree Q E (x.run s) (y.run t) := by
  have hx' := hx s rfl
  have hy' := hy t rfl
  unfold Returns at hreturns
  revert hx' hy' hreturns
  cases x.run s with
  | ok a s' =>
    cases y.run t with
    | ok b t' => exact fun _ hr hs => hQ a s' b t' hr hs
    | error e t' => simp
  | error e s' =>
    cases y.run t with
    | ok b t' => simp
    | error e' t' => exact fun _ hf hg => hE s' t' hf hg

end Agree

end Pinch
