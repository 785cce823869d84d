import Mathlib.Algebra.Order.Ring.Defs
import Mathlib.Tactic.Linarith

/-! Limiters that answer requests, whatever they are made of, and the law that is expected of them:
no window sees more than a burst and what flows in meanwhile, up to a slack. A token bucket keeps
the law. Times and tokens are of one ordered ring. -/

namespace Pinch.TokenBucket

structure Policy (α : Type*) [CommRing α] [LinearOrder α] where
  rate : α
  burst : ℕ
  rate_nonneg : 0 ≤ rate

/-- A library of limiters: a new one for a policy, and what one answers to a request at a time. -/
structure Library (σ α : Type*) [CommRing α] [LinearOrder α] where
  newLimiter : Policy α → σ
  allow : σ → α → Bool × σ

section Sessions

variable {σ α : Type*} [CommRing α] [LinearOrder α] (lib : Library σ α) (p : Policy α)

/-- The answers to requests at the given times. -/
def answers : σ → List α → List Bool
  | _, [] => []
  | b, t :: ts => (lib.allow b t).1 :: answers (lib.allow b t).2 ts

/-- The limiter after the requests. -/
def after (b : σ) (ts : List α) : σ := ts.foldl (fun b t => (lib.allow b t).2) b

/-- The answers of a limiter that is made for the first request, and the limiter itself. -/
def session (ts : List α) : List Bool := answers lib (lib.newLimiter p) ts

def served : List α → Option σ
  | [] => none
  | t :: ts => some (after lib (lib.newLimiter p) (t :: ts))

/-- How many of the last requests are granted. -/
def grantedAfter (old recent : List α) : ℕ :=
  (answers lib (after lib (lib.newLimiter p) old) recent).count true

/-- In a session of at most `n` requests, no window sees more of them granted than the burst, what
flows in meanwhile, and the slack. -/
def Respects (slack : α) (n : ℕ) : Prop :=
  ∀ old s recent now, (old ++ s :: recent).Pairwise (· ≤ ·) → (old ++ s :: recent).length ≤ n →
    (∀ t ∈ s :: recent, t ≤ now) →
    (grantedAfter lib p old (s :: recent) : α) ≤ p.burst + slack + p.rate * (now - s)

variable {lib p} {b : σ} {t : α} {ts old recent : List α}

theorem answers_snoc (b : σ) (ts : List α) (t : α) :
    answers lib b (ts ++ [t]) = answers lib b ts ++ [(lib.allow (after lib b ts) t).1] := by
  induction ts generalizing b with
  | nil => rfl
  | cons u ts ih => exact congrArg _ (ih _)

theorem after_append (b : σ) (ts us : List α) :
    after lib b (ts ++ us) = after lib (after lib b ts) us :=
  List.foldl_append

theorem getD_served : (served lib p ts).getD (lib.newLimiter p) =
    after lib (lib.newLimiter p) ts := by
  cases ts <;> rfl

theorem session_snoc : session lib p (ts ++ [t]) =
    session lib p ts ++ [(lib.allow ((served lib p ts).getD (lib.newLimiter p)) t).1] := by
  rw [getD_served]
  exact answers_snoc _ ts t

theorem served_snoc : served lib p (ts ++ [t]) =
    some (lib.allow ((served lib p ts).getD (lib.newLimiter p)) t).2 := by
  rw [getD_served]
  cases ts with
  | nil => rfl
  | cons u ts => exact congrArg some (after_append _ (u :: ts) [t])

theorem grantedAfter_snoc : grantedAfter lib p old (recent ++ [t]) = grantedAfter lib p old recent +
    if (lib.allow ((served lib p (old ++ recent)).getD (lib.newLimiter p)) t).1 then 1 else 0 := by
  rw [getD_served, after_append, grantedAfter, answers_snoc, List.count_append, grantedAfter]
  cases (lib.allow (after lib (after lib (lib.newLimiter p) old) recent) t).1 <;> rfl

/-- The law for a window that begins before its first request, if it has one. -/
theorem Respects.granted_le [IsStrictOrderedRing α] {slack : α} {n : ℕ} {since now : α}
    (h : Respects lib p slack n) (hslack : 0 ≤ slack) (hsorted : (old ++ recent).Pairwise (· ≤ ·))
    (hlength : (old ++ recent).length ≤ n) (hwindow : since ≤ now)
    (hsince : ∀ t ∈ recent, since ≤ t) (hnow : ∀ t ∈ recent, t ≤ now) :
    (grantedAfter lib p old recent : α) ≤ p.burst + slack + p.rate * (now - since) := by
  cases recent with
  | nil =>
    have hflow : 0 ≤ p.rate * (now - since) := mul_nonneg p.rate_nonneg (sub_nonneg.2 hwindow)
    have hburst : (0 : α) ≤ p.burst := Nat.cast_nonneg _
    simp only [grantedAfter, answers, List.count_nil, Nat.cast_zero]
    linarith
  | cons s recent =>
    have hlaw := h old s recent now hsorted hlength hnow
    have hflow : p.rate * (now - s) ≤ p.rate * (now - since) :=
      mul_le_mul_of_nonneg_left (by linarith [hsince s (by simp)]) p.rate_nonneg
    linarith

end Sessions

/-! ### A token bucket -/

/-- It fills at a constant rate up to its burst. -/
structure Bucket (α : Type*) [CommRing α] [LinearOrder α] extends Policy α where
  tokens : α
  last : α

section Bucket

variable {α : Type*} [CommRing α] [LinearOrder α]

/-- A clock that has gone back adds nothing. -/
def Bucket.available (b : Bucket α) (now : α) : α :=
  min (b.burst : α) (b.tokens + b.rate * max (now - b.last) 0)

/-- Buckets that grant a request while at most `slack` of a token is missing, and owe it then. A
request that is refused leaves the bucket as it was. -/
def bucket (slack : α) : Library (Bucket α) α where
  newLimiter p := ⟨p, p.burst, 0⟩
  allow b now :=
    if 1 - slack ≤ b.available now then
      (true, { b with tokens := b.available now - 1, last := now })
    else (false, b)

variable {slack now t : α} {b : Bucket α} {ts : List α}

theorem Bucket.available_le_burst : b.available now ≤ b.burst := min_le_left _ _

theorem policy_allow : ((bucket slack).allow b now).2.toPolicy = b.toPolicy := by
  unfold bucket
  dsimp only
  split <;> rfl

variable [IsStrictOrderedRing α]

theorem Bucket.available_later (h : now ≤ t) :
    b.available t ≤ b.available now + b.rate * (t - now) := by
  have hflow : 0 ≤ b.rate * (t - now) := mul_nonneg b.rate_nonneg (sub_nonneg.2 h)
  have helapsed : max (t - b.last) 0 ≤ max (now - b.last) 0 + (t - now) :=
    max_le (by linarith [le_max_left (now - b.last) 0])
      (by linarith [le_max_right (now - b.last) 0])
  have hfill : b.tokens + b.rate * max (t - b.last) 0 ≤
      b.tokens + b.rate * max (now - b.last) 0 + b.rate * (t - now) := by
    have := mul_le_mul_of_nonneg_left helapsed b.rate_nonneg
    linarith [mul_add b.rate (max (now - b.last) 0) (t - now)]
  unfold available
  rw [min_add]
  exact le_min ((min_le_left _ _).trans (by linarith)) ((min_le_right _ _).trans hfill)

/-- A request lowers what is available by one if it is granted, and by nothing otherwise. -/
theorem available_allow : ((bucket slack).allow b now).2.available now =
    b.available now - if ((bucket slack).allow b now).1 then 1 else 0 := by
  unfold bucket
  dsimp only
  split
  · have hle : b.available now - 1 ≤ b.burst :=
      (sub_le_self _ zero_le_one).trans Bucket.available_le_burst
    rw [if_pos rfl, Bucket.available, sub_self, max_self, mul_zero, add_zero, min_eq_right hle]
  · simp

/-- A bucket never owes more than the slack. -/
theorem tokens_allow (h : -slack ≤ b.tokens) : -slack ≤ ((bucket slack).allow b now).2.tokens := by
  unfold bucket
  dsimp only
  split
  · rename_i hone
    linarith
  · exact h

theorem Bucket.neg_slack_le (hslack : 0 ≤ slack) (h : -slack ≤ b.tokens) :
    -slack ≤ b.available now := by
  have hburst : (0 : α) ≤ b.burst := Nat.cast_nonneg _
  have hflow : 0 ≤ b.rate * max (now - b.last) 0 := mul_nonneg b.rate_nonneg (le_max_right _ _)
  exact le_min (by linarith) (by linarith)

theorem after_bucket (h : -slack ≤ b.tokens) :
    (after (bucket slack) b ts).toPolicy = b.toPolicy ∧
      -slack ≤ (after (bucket slack) b ts).tokens := by
  induction ts generalizing b with
  | nil => exact ⟨rfl, h⟩
  | cons t ts ih =>
    obtain ⟨hpolicy, htokens⟩ := ih (tokens_allow h)
    exact ⟨hpolicy.trans policy_allow, htokens⟩

/-- What is granted until a time and what is available then has been there or has flowed in. -/
theorem count_add_available_le {s : α} (hsorted : (s :: ts).Pairwise (· ≤ ·))
    (hnow : ∀ t ∈ s :: ts, t ≤ now) :
    ((answers (bucket slack) b ts).count true : α) + (after (bucket slack) b ts).available now ≤
      b.available s + b.rate * (now - s) := by
  induction ts generalizing b s with
  | nil => simpa [answers, after] using Bucket.available_later (hnow s (by simp))
  | cons t ts ih =>
    have hrest := ih (b := ((bucket slack).allow b t).2) hsorted.of_cons
      fun u hu => hnow u (List.mem_cons_of_mem _ hu)
    have hst : s ≤ t := List.rel_of_pairwise_cons hsorted (by simp)
    have hlater := b.available_later hst
    have hrate : ((bucket slack).allow b t).2.rate = b.rate := congrArg Policy.rate policy_allow
    rw [available_allow, hrate] at hrest
    have hcount : ((answers (bucket slack) b (t :: ts)).count true : α) =
        (answers (bucket slack) ((bucket slack).allow b t).2 ts).count true +
          if ((bucket slack).allow b t).1 then 1 else 0 := by
      rw [answers, List.count_cons]
      cases ((bucket slack).allow b t).1 <;> simp
    have hafter : after (bucket slack) b (t :: ts) =
        after (bucket slack) ((bucket slack).allow b t).2 ts := rfl
    rw [hcount, hafter]
    linarith [mul_sub b.rate now t, mul_sub b.rate t s, mul_sub b.rate now s]

/-- The law for a bucket in any state that it can reach. -/
theorem count_answers_le {s : α} (hslack : 0 ≤ slack) (htokens : -slack ≤ b.tokens)
    (hsorted : (s :: ts).Pairwise (· ≤ ·)) (hnow : ∀ t ∈ s :: ts, t ≤ now) :
    ((answers (bucket slack) b (s :: ts)).count true : α) ≤
      b.burst + slack + b.rate * (now - s) := by
  have hsorted' : (s :: s :: ts).Pairwise (· ≤ ·) := by
    refine List.pairwise_cons.2 ⟨fun t ht => ?_, hsorted⟩
    rcases List.mem_cons.1 ht with rfl | ht
    · exact le_rfl
    · exact List.rel_of_pairwise_cons hsorted ht
  have hcount : ((answers (bucket slack) b (s :: ts)).count true : α) +
      (after (bucket slack) b (s :: ts)).available now ≤ b.available s + b.rate * (now - s) :=
    count_add_available_le hsorted' fun t ht => hnow t (by simpa using ht)
  have hfull : b.available s ≤ b.burst := Bucket.available_le_burst
  have howed : -slack ≤ (after (bucket slack) b (s :: ts)).available now :=
    Bucket.neg_slack_le hslack (after_bucket htokens).2
  linarith

theorem bucket_respects (hslack : 0 ≤ slack) (p : Policy α) (n : ℕ) :
    Respects (bucket slack) p slack n := by
  intro old s recent now hsorted _ hnow
  have hnew : -slack ≤ ((bucket slack).newLimiter p).tokens := by
    have hburst : (0 : α) ≤ p.burst := Nat.cast_nonneg _
    exact (neg_nonpos.2 hslack).trans hburst
  obtain ⟨hpolicy, htokens⟩ := @after_bucket α _ _ slack _ old _ hnew
  have hcount := count_answers_le hslack htokens (List.pairwise_append.1 hsorted).2.1 hnow
  rwa [hpolicy] at hcount

end Bucket

end Pinch.TokenBucket
