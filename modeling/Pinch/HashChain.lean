import Mathlib.Data.List.Induction
import Mathlib.Data.List.Nodup

/-! Hash chains over an arbitrary type of entries. An entry stores the digest of its
predecessor and its own, and the chain is checked by recomputing the latter. -/

namespace Pinch.HashChain

variable {α η κ : Type*}

structure Format (α η : Type*) where
  link : α → η
  digest : α → η
  recompute : α → η

variable (f : Format α η)

/-- The digest that an entry after `l` has to link to. -/
def tip (p : η) (l : List α) : η :=
  l.foldl (fun _ e => f.digest e) p

def Chained : η → List α → Prop
  | _, [] => True
  | p, e :: l => f.link e = p ∧ f.digest e = f.recompute e ∧ Chained (f.digest e) l

variable {f} {g p : η} {l m r : List α} {e : α}

@[simp] theorem tip_nil : tip f p [] = p := rfl

@[simp] theorem tip_cons : tip f p (e :: l) = tip f (f.digest e) l := rfl

@[simp] theorem tip_concat : tip f p (l ++ [e]) = f.digest e := by
  simp [tip]

theorem chained_append : Chained f p (l ++ m) ↔ Chained f p l ∧ Chained f (tip f p l) m := by
  induction l generalizing p with
  | nil => simp [Chained]
  | cons e l ih => simp [Chained, ih, and_assoc]

theorem chained_concat : Chained f p (l ++ [e]) ↔
    Chained f p l ∧ f.link e = tip f p l ∧ f.digest e = f.recompute e := by
  simp [chained_append, Chained]

/-- A part at the end is chained from whatever its first entry links to. -/
theorem Chained.drop (h : Chained f p l) (n : Nat) (q : η) :
    Chained f (((l.drop n).head?.map f.link).getD q) (l.drop n) := by
  rw [← List.take_append_drop n l] at h
  have hdrop := (chained_append.1 h).2
  cases hl : l.drop n with
  | nil => trivial
  | cons e m =>
    rw [hl] at hdrop
    exact ⟨rfl, hdrop.2⟩

theorem Chained.recompute_eq (h : Chained f p l) (he : e ∈ l) : f.digest e = f.recompute e := by
  induction l generalizing p with
  | nil => simp at he
  | cons d l ih =>
    rcases List.mem_cons.1 he with rfl | he
    · exact h.2.1
    · exact ih h.2.2 he

/-- Recomputed digests tell `key` and the link apart, on the entries of `l` and `m`. -/
def Binding (f : Format α η) (key : α → κ) (l m : List α) : Prop :=
  ∀ d ∈ l, ∀ e ∈ m, f.recompute d = f.recompute e → key d = key e ∧ f.link d = f.link e

/-- No entry of `l` carries the digest that stands for an empty history. -/
def Fresh (f : Format α η) (g : η) (l : List α) : Prop :=
  ∀ e ∈ l, f.digest e ≠ g

theorem Binding.mono {key : α → κ} {l' m' : List α} (h : Binding f key l' m') (hl : l ⊆ l')
    (hm : m ⊆ m') : Binding f key l m :=
  fun d hd e he => h d (hl hd) e (hm he)

theorem Fresh.mono (h : Fresh f g m) (hl : l ⊆ m) : Fresh f g l :=
  fun e he => h e (hl he)

/-- The last digest commits to the whole history. -/
theorem Chained.map_key_eq {key : α → κ} (hl : Chained f g l) (hm : Chained f g m)
    (hlg : Fresh f g l) (hmg : Fresh f g m) (hb : Binding f key l m)
    (ht : tip f g l = tip f g m) : l.map key = m.map key := by
  induction l using List.reverseRecOn generalizing m with
  | nil =>
    rcases List.eq_nil_or_concat' m with rfl | ⟨m, e, rfl⟩
    · rfl
    · rw [tip_nil, tip_concat] at ht
      exact absurd ht.symm (hmg e (by simp))
  | append_singleton l d ih =>
    rcases List.eq_nil_or_concat' m with rfl | ⟨m, e, rfl⟩
    · rw [tip_nil, tip_concat] at ht
      exact absurd ht (hlg d (by simp))
    · obtain ⟨hl, hdl, hd⟩ := chained_concat.1 hl
      obtain ⟨hm, hel, he⟩ := chained_concat.1 hm
      rw [tip_concat, tip_concat, hd, he] at ht
      obtain ⟨hkey, hlink⟩ := hb d (by simp) e (by simp) ht
      have hrest := ih hl hm (hlg.mono (by simp)) (hmg.mono (by simp))
        (hb.mono (by simp) (by simp)) (by rw [← hdl, ← hel, hlink])
      simp [hrest, hkey]

/-- Recomputed digests tell links apart. -/
abbrev LinkBinding (f : Format α η) (l m : List α) : Prop :=
  Binding f (fun _ => ()) l m

theorem Chained.length_eq (hl : Chained f g l) (hm : Chained f g m) (hlg : Fresh f g l)
    (hmg : Fresh f g m) (hb : LinkBinding f l m) (ht : tip f g l = tip f g m) :
    l.length = m.length := by
  simpa using congrArg List.length (hl.map_key_eq hm hlg hmg hb ht)

/-- A history is never the tip of one of its proper prefixes. -/
theorem Chained.tip_ne (h : Chained f g (l ++ e :: m)) (hg : Fresh f g (l ++ e :: m))
    (hb : LinkBinding f (l ++ e :: m) (l ++ e :: m)) : tip f g (l ++ e :: m) ≠ tip f g l := by
  intro ht
  have hlen := h.length_eq (chained_append.1 h).1 hg (hg.mono (by simp))
    (hb.mono (List.Subset.refl _) (by simp)) ht
  simp at hlen

theorem Chained.digest_ne_tip (h : Chained f g (l ++ e :: m)) (hg : Fresh f g (l ++ e :: m))
    (hb : LinkBinding f (l ++ e :: m) (l ++ e :: m)) : f.digest e ≠ tip f g l := by
  rw [List.append_cons] at h hg hb
  have hne := (chained_append.1 h).1.tip_ne (hg.mono (by simp)) (hb.mono (by simp) (by simp))
  rwa [tip_concat] at hne

theorem Chained.links_nodup (h : Chained f g l) (hg : Fresh f g l) (hb : LinkBinding f l l) :
    (l.map f.link).Nodup ∧ tip f g l ∉ l.map f.link := by
  induction l using List.reverseRecOn with
  | nil => simp
  | append_singleton l e ih =>
    obtain ⟨hl, hlink, he⟩ := chained_concat.1 h
    obtain ⟨hnodup, htip⟩ := ih hl (hg.mono (by simp)) (hb.mono (by simp) (by simp))
    have hfresh : f.digest e ∉ (l ++ [e]).map f.link := by
      intro hmem
      obtain ⟨d, hd, hde⟩ := List.mem_map.1 hmem
      obtain ⟨a, b, hab⟩ := List.append_of_mem hd
      rw [hab] at h hg hb
      have hne := h.tip_ne hg hb
      rw [← (chained_append.1 h).2.1, hde, ← hab, tip_concat] at hne
      exact hne rfl
    refine ⟨?_, by rwa [tip_concat]⟩
    rw [List.map_append, List.nodup_append]
    refine ⟨hnodup, by simp, ?_⟩
    rintro a ha b hb rfl
    obtain rfl : a = f.link e := by simpa using hb
    exact htip (hlink ▸ ha)

/-- Leaving an entry out keeps a chain only at its end. -/
theorem chained_erase_iff (h : Chained f g (l ++ e :: r)) (hg : Fresh f g (l ++ e :: r))
    (hb : LinkBinding f (l ++ e :: r) (l ++ e :: r)) : Chained f g (l ++ r) ↔ r = [] := by
  obtain ⟨hl, -, -, hr⟩ := chained_append.1 h
  constructor
  · intro h'
    cases r with
    | nil => rfl
    | cons y r =>
      have hy := (chained_append.1 h').2.1
      exact absurd (hr.1.symm.trans hy) (h.digest_ne_tip hg hb)
  · rintro rfl
    simpa using hl

/-- Putting `e'` for `e`, at whatever place, keeps a chain only where `e` was, with the
same link, and with the same digest unless `e` was the last entry. -/
theorem chained_replace_iff {a b : List α} {e' : α} (h : Chained f g (l ++ e :: r))
    (hg : Fresh f g (l ++ e :: r)) (hb : LinkBinding f (l ++ e :: r) (l ++ e :: r))
    (hg' : f.digest e' ≠ g)
    (hb' : Chained f g (a ++ [e']) → LinkBinding f (a ++ [e']) (a ++ [e']))
    (hsplit : a ++ b = l ++ r) :
    Chained f g (a ++ e' :: b) ↔ a.length = l.length ∧ f.link e' = f.link e ∧
      f.digest e' = f.recompute e' ∧ (f.digest e' = f.digest e ∨ r = []) := by
  obtain ⟨hl, hlink, hdig, hr⟩ := chained_append.1 h
  constructor
  · intro h'
    obtain ⟨ha, hlink', hdig', hbr⟩ := chained_append.1 h'
    have hae : Chained f g (a ++ [e']) := chained_concat.2 ⟨ha, hlink', hdig'⟩
    have hlen : a.length = l.length := by
      rcases List.append_eq_append_iff.1 hsplit with ⟨c, rfl, hc⟩ | ⟨c, rfl, hc⟩
      · cases c with
        | nil => simp
        | cons x c =>
          subst hc
          have hx : f.link x = f.digest e' := hbr.1
          have hx' : f.link x = tip f g a := by
            have h'' := h
            rw [List.append_assoc] at h''
            exact (chained_append.1 h'').2.1
          have hfresh : Fresh f g (a ++ [e']) := by
            intro y hy
            rcases List.mem_append.1 hy with hy | hy
            · exact hg y (by simp [hy])
            · rwa [List.mem_singleton.1 hy]
          have hne := hae.tip_ne hfresh (hb' hae)
          rw [tip_concat, ← hx, hx'] at hne
          exact absurd rfl hne
      · cases c with
        | nil => simp
        | cons y c =>
          subst hc
          have hy : f.link y = tip f g l := (chained_append.1 ha).2.1
          exact absurd (hr.1.symm.trans hy) (h.digest_ne_tip hg hb)
    obtain ⟨rfl, rfl⟩ := List.append_inj hsplit hlen
    refine ⟨rfl, hlink'.trans hlink.symm, hdig', ?_⟩
    cases b with
    | nil => exact .inr rfl
    | cons y b => exact .inl (hbr.1.symm.trans hr.1)
  · rintro ⟨hlen, hlink', hdig', hend⟩
    obtain ⟨rfl, rfl⟩ := List.append_inj hsplit hlen
    refine chained_append.2 ⟨hl, hlink'.trans hlink, hdig', ?_⟩
    rcases hend with hend | rfl
    · rwa [hend]
    · trivial

end Pinch.HashChain
