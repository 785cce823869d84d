import Pinch.StateSpec

/-! Code that does not see a part of its state. A map forgets that part; code is blind to what
the map forgets when it returns the same and ends in the same state up to the map, whether
the part is there or not. -/

namespace Pinch

variable {ε σ τ α β : Type}

def mapState (m : σ → σ) : EStateM.Result ε σ α → EStateM.Result ε σ α
  | .ok a s => .ok a (m s)
  | .error e s => .error e (m s)

/-- What `m` forgets makes no difference to `x`. -/
def Blind (m : σ → σ) (x : EStateM ε σ α) : Prop :=
  ∀ s, x.run (m s) = mapState m (x.run s)

namespace Blind

variable {m : σ → σ} {x y : EStateM ε σ α}

theorem pure {a : α} : Blind m (pure a : EStateM ε σ α) := fun _ => rfl

theorem throw {e : ε} : Blind m (throw e : EStateM ε σ α) := fun _ => rfl

theorem throw_bind {e : ε} {f : α → EStateM ε σ β} :
    Blind m ((MonadExcept.throw e : EStateM ε σ α) >>= f) := fun _ => rfl

theorem modify {f : σ → σ} (h : ∀ s, f (m s) = m (f s)) :
    Blind m (modify f : EStateM ε σ Unit) :=
  fun s => congrArg (EStateM.Result.ok ()) (h s)

theorem bind {f : α → EStateM ε σ β} (hx : Blind m x) (hf : ∀ a, Blind m (f a)) :
    Blind m (x >>= f) := by
  intro s
  rw [EStateM.run_bind, EStateM.run_bind, hx s]
  cases x.run s with
  | ok a t => exact hf a t
  | error e t => rfl

theorem map {f : α → β} (hx : Blind m x) : Blind m (f <$> x) := hx.bind fun _ => pure

theorem seq {y : EStateM ε σ β} (hx : Blind m x) (hy : Blind m y) : Blind m (x >>= fun _ => y) :=
  hx.bind fun _ => hy

/-- What is read of the state is there also without the forgotten part. -/
theorem read {f : σ → EStateM ε σ β} (hread : ∀ s, f (m s) = f s) (hf : ∀ s, Blind m (f s)) :
    Blind m (get >>= f) := by
  intro s
  change (f (m s)).run (m s) = mapState m ((f s).run s)
  rw [hread s]
  exact hf s s

/-- What is read goes back into the state. -/
theorem write {f : σ → EStateM ε σ β}
    (h : ∀ s, (f (m s)).run (m s) = mapState m ((f s).run s)) : Blind m (get >>= f) := h

theorem ite {c : Prop} [Decidable c] (hx : Blind m x) (hy : Blind m y) :
    Blind m (if c then x else y) := by
  split
  · exact hx
  · exact hy

theorem zoom {part : σ → τ} {put : σ → τ → σ} {n : τ → τ} {x : EStateM ε τ α} (hx : Blind n x)
    (hpart : ∀ s, part (m s) = n (part s)) (hput : ∀ s t, put (m s) (n t) = m (put s t)) :
    Blind m (zoom part put x) := by
  intro s
  have hrun := hx (part s)
  simp only [Pinch.zoom, EStateM.run, hpart] at hrun ⊢
  rw [hrun]
  cases x (part s) with
  | ok a t => exact congrArg (EStateM.Result.ok a) (hput s t)
  | error e t => exact congrArg (EStateM.Result.error e) (hput s t)

end Blind

end Pinch
