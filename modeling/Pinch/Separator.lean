import Mathlib.Data.List.TakeWhile

/-! Lists joined with a separator. Joining forgets where a piece ends as soon as some piece
holds the separator itself: the pieces of a joined list are determined exactly when none does. -/

namespace Pinch.Separator

variable {α : Type*} {x : α} {ls ms : List (List α)}

/-- A piece that holds the separator reads like two pieces. -/
theorem intercalate_merge (a : List (List α)) (p q : List α) (b : List (List α)) :
    [x].intercalate (a ++ p :: q :: b) = [x].intercalate (a ++ (p ++ x :: q) :: b) := by
  induction a with
  | nil =>
    cases b with
    | nil => simp
    | cons c b => simp
  | cons c a ih =>
    rw [List.cons_append, List.cons_append, List.intercalate_cons_of_ne_nil (by simp), ih,
      List.intercalate_cons_of_ne_nil (by simp)]

/-- So a separator inside a piece can trade places with the one behind the piece. -/
theorem intercalate_shift (a : List (List α)) (p q r : List α) (b : List (List α)) :
    [x].intercalate (a ++ (p ++ x :: q) :: r :: b) =
      [x].intercalate (a ++ p :: (q ++ x :: r) :: b) := by
  rw [intercalate_merge, intercalate_merge, List.append_assoc, List.cons_append]

/-- A piece with the separator has a neighbour to trade with, on its right or on its left. -/
theorem exists_intercalate_eq {l : List α} (hlength : 2 ≤ ls.length) (hl : l ∈ ls) (hx : x ∈ l) :
    ∃ ms, ms.length = ls.length ∧ [x].intercalate ms = [x].intercalate ls ∧ ms ≠ ls := by
  obtain ⟨a, b, rfl⟩ := List.append_of_mem hl
  obtain ⟨p, q, rfl⟩ := List.append_of_mem hx
  cases b with
  | cons r b =>
    refine ⟨a ++ p :: (q ++ x :: r) :: b, by simp, (intercalate_shift a p q r b).symm, ?_⟩
    intro h
    have hp : p = p ++ x :: q := (List.cons.inj (List.append_cancel_left h)).1
    have hshort := congrArg List.length hp
    simp at hshort
  | nil =>
    rcases List.eq_nil_or_concat a with rfl | ⟨a, r, rfl⟩
    · simp at hlength
    · have hshift := intercalate_shift (x := x) a r p q []
      refine ⟨a ++ (r ++ x :: p) :: q :: [], by simp, by simpa using hshift, ?_⟩
      intro h
      rw [List.concat_eq_append, List.append_assoc, List.singleton_append] at h
      have hr : r ++ x :: p = r := (List.cons.inj (List.append_cancel_left h)).1
      have hshort := congrArg List.length hr
      simp at hshort

/-- The first separator ends a part that does not hold it. -/
theorem split_unique {p q r t : List α} (hp : x ∉ p) (hq : x ∉ q)
    (h : p ++ x :: r = q ++ x :: t) : p = q ∧ r = t := by
  induction p generalizing q with
  | nil =>
    cases q with
    | nil => exact ⟨rfl, (List.cons.inj h).2⟩
    | cons c q =>
      obtain rfl : x = c := (List.cons.inj h).1
      exact absurd List.mem_cons_self hq
  | cons c p ih =>
    cases q with
    | nil =>
      obtain rfl : c = x := (List.cons.inj h).1
      exact absurd List.mem_cons_self hp
    | cons d q =>
      obtain ⟨rfl, htail⟩ := List.cons.inj h
      obtain ⟨rfl, hrest⟩ := ih (fun hx => hp (List.mem_cons_of_mem c hx))
        (fun hx => hq (List.mem_cons_of_mem c hx)) htail
      exact ⟨rfl, hrest⟩

/-- And the last one begins a part that does not hold it. -/
theorem split_last_unique {p q r t : List α} (hr : x ∉ r) (ht : x ∉ t)
    (h : p ++ x :: r = q ++ x :: t) : p = q ∧ r = t := by
  have hreverse := congrArg List.reverse h
  simp only [List.reverse_append, List.reverse_cons, List.append_assoc,
    List.singleton_append] at hreverse
  obtain ⟨hlast, hfirst⟩ := split_unique (mt List.mem_reverse.1 hr) (mt List.mem_reverse.1 ht)
    hreverse
  exact ⟨List.reverse_inj.1 hfirst, List.reverse_inj.1 hlast⟩

variable [DecidableEq α]

theorem count_intercalate (h : ls ≠ []) :
    ([x].intercalate ls).count x + 1 = ls.length + ls.flatten.count x := by
  induction ls with
  | nil => exact absurd rfl h
  | cons l ls ih =>
    by_cases hls : ls = []
    · subst hls
      simp
      omega
    · have hrest := ih hls
      rw [List.intercalate_cons_of_ne_nil hls]
      simp only [List.count_append, List.count_singleton_self, List.length_cons, List.flatten_cons]
      omega

/-- The number of separators gives away whether a piece holds one. -/
theorem notMem_of_intercalate_eq (hlength : ms.length = ls.length)
    (hjoin : [x].intercalate ms = [x].intercalate ls) (hls : ∀ l ∈ ls, x ∉ l) :
    ∀ m ∈ ms, x ∉ m := by
  intro m hm
  have hms : ms ≠ [] := List.ne_nil_of_mem hm
  have hne : ls ≠ [] := by
    rintro rfl
    simp at hlength
    exact hms hlength
  have hnone : ls.flatten.count x = 0 := by
    rw [List.count_eq_zero, List.mem_flatten]
    rintro ⟨l, hl, hx⟩
    exact hls l hl hx
  have hcount := count_intercalate (x := x) hms
  rw [hjoin, count_intercalate hne, hlength] at hcount
  have hzero : ms.flatten.count x = 0 := by omega
  intro hx
  exact List.count_eq_zero.1 hzero (List.mem_flatten.2 ⟨m, hm, hx⟩)

theorem eq_of_intercalate_eq (hlength : ms.length = ls.length)
    (hjoin : [x].intercalate ms = [x].intercalate ls) (hls : ∀ l ∈ ls, x ∉ l) : ms = ls := by
  by_cases hne : ms = []
  · subst hne
    exact (List.eq_nil_of_length_eq_zero hlength.symm).symm
  · have hms := notMem_of_intercalate_eq hlength hjoin hls
    have hne' : ls ≠ [] := by
      rintro rfl
      exact hne (List.eq_nil_of_length_eq_zero hlength)
    rw [← List.splitOn_intercalate x hms hne, hjoin, List.splitOn_intercalate x hls hne']

/-- From two pieces on, joining can be undone only where no piece holds the separator. -/
theorem intercalate_unique_iff (hlength : 2 ≤ ls.length) :
    (∀ ms : List (List α), ms.length = ls.length → [x].intercalate ms = [x].intercalate ls →
      ms = ls) ↔ ∀ l ∈ ls, x ∉ l := by
  constructor
  · intro h l hl hx
    obtain ⟨ms, hms, hjoin, hne⟩ := exists_intercalate_eq hlength hl hx
    exact hne (h ms hms hjoin)
  · intro h ms hms hjoin
    exact eq_of_intercalate_eq hms hjoin h

section Capture

variable {head p rest cs : List α} {sep : α} {inClass inRest : α → Bool}

/-- The two groups of the pattern `^head([class]+)sep(rest+)$`. The first group takes all that it
can, and since the separator is outside its class there is nothing to give back. -/
def capture (head : List α) (inClass : α → Bool) (sep : α) (inRest : α → Bool) (cs : List α) :
    Option (List α × List α) :=
  if cs.take head.length = head then
    let first := (cs.drop head.length).takeWhile inClass
    match (cs.drop head.length).dropWhile inClass with
    | c :: rest =>
      if c = sep ∧ first ≠ [] ∧ rest ≠ [] ∧ rest.all inRest then some (first, rest) else none
    | [] => none
  else none

/-- What a text that matches looks like. -/
structure Captured (head : List α) (inClass : α → Bool) (sep : α) (inRest : α → Bool)
    (cs p rest : List α) : Prop where
  eq : cs = head ++ p ++ sep :: rest
  first_ne : p ≠ []
  first_all : ∀ c ∈ p, inClass c = true
  rest_ne : rest ≠ []
  rest_all : ∀ c ∈ rest, inRest c = true

theorem Captured.capture (h : Captured head inClass sep inRest cs p rest)
    (hsep : inClass sep = false) :
    capture head inClass sep inRest cs = some (p, rest) := by
  obtain ⟨rfl, hp, hclass, hrest, hall⟩ := h
  have htake : (p ++ sep :: rest).takeWhile inClass = p := by
    rw [List.takeWhile_append_of_pos hclass]
    simp [hsep]
  have hdrop : (p ++ sep :: rest).dropWhile inClass = sep :: rest := by
    rw [List.dropWhile_append_of_pos hclass]
    simp [hsep]
  have hrestAll : rest.all inRest = true := List.all_eq_true.2 hall
  simp [Separator.capture, htake, hdrop, hp, hrest, hrestAll]

theorem captured_of_capture (h : capture head inClass sep inRest cs = some (p, rest)) :
    Captured head inClass sep inRest cs p rest := by
  unfold capture at h
  split_ifs at h with hhead
  dsimp only at h
  split at h
  · rename_i c rest' hdrop
    split_ifs at h with hif
    obtain ⟨rfl, hp, hrest, hall⟩ := hif
    obtain ⟨rfl, rfl⟩ := Prod.mk.inj (Option.some.inj h)
    refine ⟨?_, hp, fun d hd => List.mem_takeWhile_imp hd, hrest, List.all_eq_true.1 hall⟩
    have hcs := List.take_append_drop head.length cs
    rw [hhead] at hcs
    rw [← hdrop, List.append_assoc, List.takeWhile_append_dropWhile, hcs]
  · cases h

end Capture

end Pinch.Separator
