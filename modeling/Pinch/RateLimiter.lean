import Pinch.RoutingTable
import Pinch.TokenBucket
import Mathlib.Algebra.Order.Ring.Rat

/-! The relay's rate limiter, and the hub with it. An address has a limiter from its first message
until a client of that address is unregistered; its next client gets a new one. What a limiter
answers is up to the library. Times are seconds. -/

namespace Pinch

open TokenBucket Transition

structure RateLimiter (σ : Type) where
  policy : Policy ℚ
  limiters : String → Option σ

namespace RateLimiter

variable {σ : Type}

def new (policy : Policy ℚ) : RateLimiter σ := ⟨policy, fun _ => none⟩

variable (lib : Library σ ℚ) (rl : RateLimiter σ) (address : String) (now : ℚ)

/-- The limiter of an address, which is created on its first message. -/
def limiter : σ := (rl.limiters address).getD (lib.newLimiter rl.policy)

def allow : Bool × RateLimiter σ :=
  let r := lib.allow (rl.limiter lib address) now
  (r.1, { rl with limiters := Function.update rl.limiters address (some r.2) })

def remove : RateLimiter σ :=
  { rl with limiters := Function.update rl.limiters address none }

variable {lib rl address now} {a : String}

@[simp] theorem policy_allow : (rl.allow lib a now).2.policy = rl.policy := rfl

@[simp] theorem policy_remove : (rl.remove a).policy = rl.policy := rfl

end RateLimiter

def HubLabel.requester : HubLabel → Option ℕ
  | .route c _ _ => some c
  | _ => none

def HubLabel.allowed : HubLabel → Bool
  | .route _ _ allowed => allowed
  | _ => false

def HubLabel.leaver : HubLabel → Option ℕ
  | .unregister c => some c
  | _ => none

/-- The address whose limiter `Run` removes with the step. It does so at the end of the unregister
case, whether the client was still in the table or not. -/
def Hub.removes (s : Hub) : HubLabel → Option String
  | .unregister c =>
    if s.clients (s.heap c).address = some c then none else some (s.heap c).address
  | .run _ =>
    match s.run with
    | .cancelling c false => some (s.heap c).address
    | _ => none
  | _ => none

structure LimitedHub (σ : Type) where
  hub : Hub
  limiter : RateLimiter σ

structure TimedLabel where
  label : HubLabel
  now : ℚ
  deriving DecidableEq

namespace LimitedHub

variable {σ : Type}

def start (policy : Policy ℚ) (mq : MessageQueue Parcel) (blockStore : BlockStore) :
    LimitedHub σ :=
  ⟨.start mq blockStore, .new policy⟩

/-- A call of `RouteMessage` asks the limiter first, and what it says is in the label. -/
def step (lib : Library σ ℚ) (s : LimitedHub σ) (x : TimedLabel) : Option (LimitedHub σ) :=
  match x.label with
  | .route c frame allowed =>
    let r := s.limiter.allow lib (s.hub.heap c).address x.now
    if allowed = r.1 then (s.hub.step (.route c frame allowed)).map (⟨·, r.2⟩) else none
  | label =>
    (s.hub.step label).map
      (⟨·, ((s.hub.removes label).map s.limiter.remove).getD s.limiter⟩)

abbrev FreeRun (lib : Library σ ℚ) (s : LimitedHub σ) (l : List TimedLabel) (t : LimitedHub σ) :
    Prop :=
  Run (step lib) (fun _ _ => True) s l t

section Counts

variable (address : ℕ → String) (a : String)

/-- The calls of `RouteMessage` by clients of the address. -/
def requests (l : List TimedLabel) : List TimedLabel :=
  l.filter fun x => x.label.requester.map address = some a

def granted (l : List TimedLabel) : ℕ :=
  l.countP fun x => x.label.requester.map address = some a ∧ x.label.allowed = true

def departures (l : List TimedLabel) : ℕ :=
  l.countP fun x => x.label.leaver.map address = some a

end Counts

/-- `Run` is still to remove the limiter of the address. -/
def pending (a : String) (s : Hub) : ℕ :=
  match s.run with
  | .cancelling c false => if (s.heap c).address = a then 1 else 0
  | _ => 0

/-- What a step does to the hub and to the limiter. -/
inductive Effect (lib : Library σ ℚ) (s : LimitedHub σ) (x : TimedLabel) (t : LimitedHub σ) : Prop
  | asked {c : ℕ} (hx : x.label.requester = some c) (hleaver : x.label.leaver = none)
      (hremoves : s.hub.removes x.label = none)
      (hallowed : x.label.allowed = (s.limiter.allow lib (s.hub.heap c).address x.now).1)
      (hlimiter : t.limiter = (s.limiter.allow lib (s.hub.heap c).address x.now).2) :
      Effect lib s x t
  | kept (hx : x.label.requester = none) (hremoves : s.hub.removes x.label = none)
      (hlimiter : t.limiter = s.limiter) : Effect lib s x t
  | removed {b : String} (hx : x.label.requester = none) (hremoves : s.hub.removes x.label = some b)
      (hlimiter : t.limiter = s.limiter.remove b) : Effect lib s x t

variable {lib : Library σ ℚ} {s t : LimitedHub σ} {x : TimedLabel} {l : List TimedLabel} {a : String}
  {address : ℕ → String}

theorem step_cases (h : s.step lib x = some t) :
    s.hub.step x.label = some t.hub ∧ Effect lib s x t := by
  obtain ⟨label, now⟩ := x
  by_cases hreq : label.requester = none
  · have hstep : s.step lib ⟨label, now⟩ = (s.hub.step label).map
        (⟨·, ((s.hub.removes label).map s.limiter.remove).getD s.limiter⟩) := by
      cases label with
      | route c frame allowed => simp [HubLabel.requester] at hreq
      | _ => rfl
    rw [hstep, Option.map_eq_some_iff] at h
    obtain ⟨hub, hhub, rfl⟩ := h
    refine ⟨hhub, ?_⟩
    cases hremoves : s.hub.removes label with
    | none => exact .kept hreq hremoves (by simp)
    | some b => exact .removed hreq hremoves (by simp)
  · cases label with
    | route c frame allowed =>
      simp only [step] at h
      split at h
      · rename_i hallowed
        obtain ⟨hub, hhub, rfl⟩ := Option.map_eq_some_iff.1 h
        exact ⟨hhub, .asked rfl rfl rfl hallowed rfl⟩
      · simp at h
    | _ => simp [HubLabel.requester] at hreq

/-- A run of the limited hub is one of the hub. -/
theorem FreeRun.hub (h : FreeRun lib s l t) : Hub.FreeRun s.hub (l.map (·.label)) t.hub := by
  induction h with
  | nil => exact .nil
  | snoc _ _ hstep ih =>
    rw [List.map_append]
    exact ih.snoc trivial (step_cases hstep).1

theorem FreeRun.policy (h : FreeRun lib s l t) : t.limiter.policy = s.limiter.policy := by
  induction h with
  | nil => rfl
  | snoc _ _ hstep ih =>
    rw [← ih]
    cases (step_cases hstep).2 with
    | asked _ _ _ _ hlimiter | kept _ _ hlimiter | removed _ _ hlimiter => simp [hlimiter]

/-- A departure leaves a removal behind, and a removal settles one. -/
theorem pending_step {s t : Hub} {label : HubLabel} (hs : Hub.Step s label t) (htidy : s.Tidy)
    (haddr : ∀ c < s.nextClient, address c = (s.heap c).address) :
    pending a t + (if s.removes label = some a then 1 else 0) ≤
      pending a s + if label.leaver.map address = some a then 1 else 0 := by
  cases hs with
  | unregistered hrun hstage htable =>
    rename_i c
    have hc := haddr c (htidy.born _ c htable)
    simp [pending, hrun, Hub.removes, htable, HubLabel.leaver, hc]
  | stale hrun hstage =>
    rename_i c
    have hc := haddr c (htidy.born_stage c (by simp [hstage]))
    by_cases htable : s.clients (s.heap c).address = some c
    · simp [pending, hrun, Hub.removes, htable, HubLabel.leaver, hc]
    · simp [pending, hrun, Hub.removes, htable, HubLabel.leaver, hc]
  | cancelled hrun =>
    rename_i c shutdown ok
    cases shutdown <;> simp [pending, hrun, Hub.removes, HubLabel.leaver]
  | uncounted hrun hcount => simp [pending, hrun, Hub.removes, HubLabel.leaver]
  | counted hrun | announced hrun | flagged hrun | registered hrun ha =>
    simp [pending, hrun, Hub.removes, HubLabel.leaver]
  | shutdownBegun hrun | shutdownClosed hrun htable | stopped hrun =>
    simp [pending, hrun, Hub.removes, HubLabel.leaver]
  | _ => simp [pending, Hub.removes, HubLabel.leaver]

theorem requester_born {s t : Hub} {label : HubLabel} {c : ℕ} (hs : Hub.Step s label t)
    (htidy : s.Tidy) (h : label.requester = some c) : c < s.nextClient := by
  cases hs with
  | called hstage hroute =>
    obtain rfl := Option.some.inj h
    exact htidy.born_stage _ (by simp [hstage])
  | _ => simp [HubLabel.requester] at h

theorem granted_snoc : granted address a (l ++ [x]) = granted address a l +
    if x.label.requester.map address = some a ∧ x.label.allowed = true then 1 else 0 := by
  rw [granted, List.countP_append, List.countP_singleton, granted]
  simp only [decide_eq_true_eq]

theorem departures_snoc : departures address a (l ++ [x]) = departures address a l +
    if x.label.leaver.map address = some a then 1 else 0 := by
  rw [departures, List.countP_append, List.countP_singleton, departures]
  simp only [decide_eq_true_eq]

section Bound

variable {policy : Policy ℚ} {mq : MessageQueue Parcel} {blockStore : BlockStore}
  {before : List TimedLabel} {begun slack : ℚ} {n : ℕ}

theorem FreeRun.sound (h : FreeRun lib (start policy mq blockStore) l t) :
    t.hub.Tidy ∧ t.limiter.policy = policy := by
  refine ⟨?_, h.policy⟩
  exact h.hub.invariant (P := Hub.Tidy) (.start mq blockStore) fun _ _ _ htidy _ hstep =>
    (Hub.Step.of_step hstep).2.tidy htidy

theorem requests_snoc : requests address a (l ++ [x]) = requests address a l ++
    if x.label.requester.map address = some a then [x] else [] := by
  rw [requests, List.filter_append, List.filter_singleton, requests, Bool.cond_decide]

/-- What a step does to the limiter of one address: it answers a request, it is removed, or neither
happens. -/
inductive Served (lib : Library σ ℚ) (address : ℕ → String) (a : String) (s : LimitedHub σ)
    (x : TimedLabel) (t : LimitedHub σ) : Prop
  | asked (hx : x.label.requester.map address = some a) (hremoves : s.hub.removes x.label ≠ some a)
      (hallowed : x.label.allowed = (lib.allow (s.limiter.limiter lib a) x.now).1)
      (hlimiter : t.limiter.limiters a = some (lib.allow (s.limiter.limiter lib a) x.now).2) :
      Served lib address a s x t
  | removed (hx : x.label.requester.map address ≠ some a)
      (hremoves : s.hub.removes x.label = some a) (hlimiter : t.limiter.limiters a = none) :
      Served lib address a s x t
  | kept (hx : x.label.requester.map address ≠ some a)
      (hremoves : s.hub.removes x.label ≠ some a)
      (hlimiter : t.limiter.limiters a = s.limiter.limiters a) : Served lib address a s x t

theorem served_step (hs : s.step lib x = some t) (htidy : s.hub.Tidy)
    (haddr : ∀ c < s.hub.nextClient, address c = (s.hub.heap c).address) (a : String) :
    Served lib address a s x t := by
  obtain ⟨hhub, heffect⟩ := step_cases hs
  cases heffect with
  | asked hx hleaver hremoves hallowed hlimiter =>
    rename_i c
    have hc := haddr c (requester_born (Hub.Step.of_step hhub).2 htidy hx)
    by_cases ha : a = (s.hub.heap c).address
    · subst ha
      refine .asked (by simp [hx, hc]) (by simp [hremoves]) hallowed ?_
      simp [hlimiter, RateLimiter.allow]
    · refine .kept (by simp [hx, hc, Ne.symm ha]) (by simp [hremoves]) ?_
      simp [hlimiter, RateLimiter.allow, ha]
  | kept hx hremoves hlimiter =>
    exact .kept (by simp [hx]) (by simp [hremoves]) (by rw [hlimiter])
  | removed hx hremoves hlimiter =>
    rename_i b
    by_cases hb : a = b
    · subst hb
      exact .removed (by simp [hx]) hremoves (by simp [hlimiter, RateLimiter.remove])
    · refine .kept (by simp [hx]) (by simp [hremoves, Ne.symm hb]) ?_
      simp [hlimiter, RateLimiter.remove, hb]

/-- The clients that were there have their addresses still. -/
theorem address_of_step (hs : s.step lib x = some t)
    (haddr : ∀ c < t.hub.nextClient, address c = (t.hub.heap c).address) :
    ∀ c < s.hub.nextClient, address c = (s.hub.heap c).address := by
  obtain ⟨-, hstep⟩ := Hub.Step.of_step (step_cases hs).1
  intro c hc
  rw [haddr c (hc.trans_le hstep.nextClient_le), hstep.address_eq hc]

/-- A limiter has answered some of the requests of its address, in their order. -/
theorem exists_served (h : FreeRun lib (start policy mq blockStore) l t)
    (haddr : ∀ c < t.hub.nextClient, address c = (t.hub.heap c).address) (a : String) :
    ∃ ts, t.limiter.limiters a = served lib policy ts ∧
      ts.Sublist ((requests address a l).map (·.now)) := by
  obtain ⟨s, hs⟩ : ∃ s : LimitedHub σ, s = start policy mq blockStore := ⟨_, rfl⟩
  rw [← hs] at h
  induction h with
  | nil => exact ⟨[], by rw [hs]; rfl, List.nil_sublist _⟩
  | snoc hrun hok hstep ih =>
    rename_i l u t x
    obtain ⟨htidy, hpolicy⟩ := FreeRun.sound (hs ▸ hrun)
    have haddr' := address_of_step hstep haddr
    obtain ⟨ts, hlimiter, hts⟩ := ih haddr'
    rw [requests_snoc, List.map_append]
    cases served_step hstep htidy haddr' a with
    | asked hx hremoves hallowed hnew =>
      refine ⟨ts ++ [x.now], ?_, hts.append (by simp [hx])⟩
      rw [hnew, served_snoc, RateLimiter.limiter, hlimiter, hpolicy]
    | removed hx hremoves hnew => exact ⟨[], hnew, List.nil_sublist _⟩
    | kept hx hremoves hnew =>
      exact ⟨ts, hnew.trans hlimiter, hts.trans (List.sublist_append_left _ _)⟩

/-- The account of an address over a window that began with the state `s`: how many limiters were
removed, since when the present one counts, and which requests it has answered before the window
and in it. -/
structure Account (lib : Library σ ℚ) (policy : Policy ℚ) (slack : ℚ) (address : ℕ → String)
    (a : String) (before : List TimedLabel) (begun : ℚ) (s : LimitedHub σ) (l : List TimedLabel)
    (t : LimitedHub σ) (old recent : List ℚ) (closed : ℕ) (since : ℚ) : Prop where
  limiter : t.limiter.limiters a = served lib policy (old ++ recent)
  answered : (old ++ recent).Sublist ((requests address a (before ++ l)).map (·.now))
  recent_ge : ∀ u ∈ recent, since ≤ u
  recent_mem : ∀ u ∈ recent, u ∈ l.map (·.now)
  begun_le : begun ≤ since
  since_mem : since = begun ∨ since ∈ l.map (·.now)
  closed_le : closed + pending a t.hub ≤ pending a s.hub + departures address a l
  granted_le : (granted address a l : ℚ) ≤ (policy.burst + slack) * closed +
    policy.rate * (since - begun) + grantedAfter lib policy old recent

/-- What the present limiter has granted in the window. -/
theorem Account.recent_le {old recent : List ℚ} {closed : ℕ} {since now : ℚ}
    (h : Account lib policy slack address a before begun s l t old recent closed since)
    (hlib : Respects lib policy slack n) (hslack : 0 ≤ slack)
    (hclock : ((before ++ l).map (·.now)).Pairwise (· ≤ ·))
    (hn : (requests address a (before ++ l)).length ≤ n) (hbegun : begun ≤ now)
    (hnow : ∀ y ∈ l, y.now ≤ now) :
    (grantedAfter lib policy old recent : ℚ) ≤
      policy.burst + slack + policy.rate * (now - since) := by
  have hlast : ∀ u ∈ l.map (·.now), u ≤ now := by simpa using hnow
  have hsorted : (old ++ recent).Pairwise (· ≤ ·) :=
    (hclock.sublist (List.filter_sublist.map _)).sublist h.answered
  have hlength : (old ++ recent).length ≤ n := by
    simpa using h.answered.length_le.trans (by simpa using hn)
  have hsince : since ≤ now := by
    rcases h.since_mem with heq | hmem
    · rw [heq]
      exact hbegun
    · exact hlast _ hmem
  exact hlib.granted_le hslack hsorted hlength hsince h.recent_ge fun u hu =>
    hlast u (h.recent_mem u hu)

section Step

variable {u : LimitedHub σ} {old recent : List ℚ} {closed : ℕ} {since : ℚ}

theorem mem_now_snoc {v : ℚ} (h : v ∈ l.map (·.now)) : v ∈ (l ++ [x]).map (·.now) := by
  rw [List.map_append]
  exact List.mem_append_left _ h

/-- The present limiter answers one request more. -/
theorem Account.asked
    (hacc : Account lib policy slack address a before begun s l u old recent closed since)
    (hpolicy : u.limiter.policy = policy) (hx : x.label.requester.map address = some a)
    (hallowed : x.label.allowed = (lib.allow (u.limiter.limiter lib a) x.now).1)
    (hlimiter : t.limiter.limiters a = some (lib.allow (u.limiter.limiter lib a) x.now).2)
    (hbegun : begun ≤ x.now) (hearlier : ∀ y ∈ l, y.now ≤ x.now)
    (hclosed : closed + pending a t.hub ≤ pending a s.hub + departures address a (l ++ [x])) :
    Account lib policy slack address a before begun s (l ++ [x]) t old (recent ++ [x.now]) closed
      since where
  limiter := by
    rw [← List.append_assoc, served_snoc, hlimiter, RateLimiter.limiter, hacc.limiter, hpolicy]
  answered := by
    rw [← List.append_assoc, ← List.append_assoc, requests_snoc, if_pos hx, List.map_append]
    exact hacc.answered.append (List.Sublist.refl _)
  recent_ge := by
    intro v hv
    rcases List.mem_append.1 hv with hv | hv
    · exact hacc.recent_ge v hv
    · rw [List.mem_singleton.1 hv]
      rcases hacc.since_mem with heq | hsince
      · rw [heq]
        exact hbegun
      · obtain ⟨y, hy, hnow⟩ := List.mem_map.1 hsince
        rw [← hnow]
        exact hearlier y hy
  recent_mem := by
    intro v hv
    rcases List.mem_append.1 hv with hv | hv
    · exact mem_now_snoc (hacc.recent_mem v hv)
    · simp [List.mem_singleton.1 hv]
  begun_le := hacc.begun_le
  since_mem := hacc.since_mem.imp_right mem_now_snoc
  closed_le := hclosed
  granted_le := by
    have hgranted : (granted address a (l ++ [x]) : ℚ) = granted address a l +
        if x.label.allowed = true then 1 else 0 := by
      rw [granted_snoc]
      simp [hx]
    have hanswer : (grantedAfter lib policy old (recent ++ [x.now]) : ℚ) =
        grantedAfter lib policy old recent + if x.label.allowed = true then 1 else 0 := by
      rw [grantedAfter_snoc, hallowed, RateLimiter.limiter, hacc.limiter, hpolicy]
      push_cast
      rfl
    rw [hgranted, hanswer]
    linarith [hacc.granted_le]

/-- The present limiter is removed: what it has granted is settled, and the next one counts from
now on. -/
theorem Account.removed
    (hacc : Account lib policy slack address a before begun s l u old recent closed since)
    (hx : x.label.requester.map address ≠ some a) (hlimiter : t.limiter.limiters a = none)
    (hrecent : (grantedAfter lib policy old recent : ℚ) ≤
      policy.burst + slack + policy.rate * (x.now - since))
    (hbegun : begun ≤ x.now)
    (hclosed : closed + 1 + pending a t.hub ≤ pending a s.hub + departures address a (l ++ [x])) :
    Account lib policy slack address a before begun s (l ++ [x]) t [] [] (closed + 1) x.now where
  limiter := hlimiter
  answered := List.nil_sublist _
  recent_ge := by simp
  recent_mem := by simp
  begun_le := hbegun
  since_mem := .inr (by simp)
  closed_le := hclosed
  granted_le := by
    have hgranted : granted address a (l ++ [x]) = granted address a l := by
      rw [granted_snoc, if_neg fun h => hx h.1, Nat.add_zero]
    rw [hgranted]
    have := hacc.granted_le
    simp only [grantedAfter, answers, List.count_nil, Nat.cast_zero, add_zero]
    push_cast
    linarith [mul_sub policy.rate x.now since, mul_sub policy.rate since begun,
      mul_sub policy.rate x.now begun, mul_add (policy.burst + slack) (closed : ℚ) 1]

theorem Account.kept
    (hacc : Account lib policy slack address a before begun s l u old recent closed since)
    (hx : x.label.requester.map address ≠ some a)
    (hlimiter : t.limiter.limiters a = u.limiter.limiters a)
    (hclosed : closed + pending a t.hub ≤ pending a s.hub + departures address a (l ++ [x])) :
    Account lib policy slack address a before begun s (l ++ [x]) t old recent closed since where
  limiter := hlimiter.trans hacc.limiter
  answered := by
    rw [← List.append_assoc, requests_snoc, if_neg hx, List.append_nil]
    exact hacc.answered
  recent_ge := hacc.recent_ge
  recent_mem v hv := mem_now_snoc (hacc.recent_mem v hv)
  begun_le := hacc.begun_le
  since_mem := hacc.since_mem.imp_right mem_now_snoc
  closed_le := hclosed
  granted_le := by
    rw [granted_snoc, if_neg fun h => hx h.1, Nat.add_zero]
    exact hacc.granted_le

end Step

theorem exists_account (hlib : Respects lib policy slack n) (hslack : 0 ≤ slack)
    (hbefore : FreeRun lib (start policy mq blockStore) before s) (h : FreeRun lib s l t)
    (haddr : ∀ c < t.hub.nextClient, address c = (t.hub.heap c).address)
    (hclock : ((before ++ l).map (·.now)).Pairwise (· ≤ ·)) (hbegun : ∀ x ∈ l, begun ≤ x.now)
    (hn : (requests address a (before ++ l)).length ≤ n) :
    ∃ old recent closed since,
      Account lib policy slack address a before begun s l t old recent closed since := by
  induction h with
  | nil =>
    obtain ⟨old, hlimiter, hold⟩ := exists_served hbefore haddr a
    refine ⟨old, [], 0, begun, by simpa using hlimiter, by simpa using hold, by simp, by simp,
      le_rfl, .inl rfl, by simp, by simp [granted, grantedAfter, answers]⟩
  | snoc hrun hok hstep ih =>
    rename_i l u t x
    obtain ⟨htidy, hpolicy⟩ := FreeRun.sound (hbefore.trans hrun)
    have haddr' := address_of_step hstep haddr
    rw [← List.append_assoc] at hclock hn
    have hclock' : ((before ++ l).map (·.now)).Pairwise (· ≤ ·) :=
      hclock.sublist ((List.sublist_append_left _ _).map _)
    have hn' : (requests address a (before ++ l)).length ≤ n :=
      (List.Sublist.length_le ((List.sublist_append_left _ _).filter _)).trans hn
    have hearlier : ∀ y ∈ l, y.now ≤ x.now := by
      rw [List.map_append, List.pairwise_append] at hclock
      exact fun y hy => hclock.2.2 _ (List.mem_map_of_mem (List.mem_append_right _ hy)) _ (by simp)
    have hnow : begun ≤ x.now := hbegun x (by simp)
    obtain ⟨old, recent, closed, since, hacc⟩ :=
      ih haddr' hclock' (fun y hy => hbegun y (by simp [hy])) hn'
    have hsettled := pending_step (a := a) (Hub.Step.of_step (step_cases hstep).1).2 htidy haddr'
    have hclosed := hacc.closed_le
    cases served_step hstep htidy haddr' a with
    | asked hx hremoves hallowed hnew =>
      rw [if_neg hremoves] at hsettled
      refine ⟨_, _, _, _, hacc.asked hpolicy hx hallowed hnew hnow hearlier ?_⟩
      rw [departures_snoc]
      omega
    | removed hx hremoves hnew =>
      rw [if_pos hremoves] at hsettled
      have hrecent := hacc.recent_le hlib hslack hclock' hn' hnow hearlier
      refine ⟨_, _, _, _, hacc.removed hx hnew hrecent hnow ?_⟩
      rw [departures_snoc]
      omega
    | kept hx hremoves hnew =>
      rw [if_neg hremoves] at hsettled
      refine ⟨_, _, _, _, hacc.kept hx hnew ?_⟩
      rw [departures_snoc]
      omega

/-- In any window of any run, the messages of one address that the relay lets through are at most
a burst for each of its sessions, and what flows in at the sustained rate, up to the slack of the
library's limiters. A run with the limiter is one of the hub. -/
theorem address_bounded (hlib : Respects lib policy slack n) (hslack : 0 ≤ slack)
    (hbefore : FreeRun lib (start policy mq blockStore) before s) (h : FreeRun lib s l t)
    (a : String) {begun now : ℚ} (hwindow : begun ≤ now)
    (hclock : ((before ++ l).map (·.now)).Pairwise (· ≤ ·))
    (hwithin : ∀ x ∈ l, begun ≤ x.now ∧ x.now ≤ now)
    (hn : (requests (fun c => (t.hub.heap c).address) a (before ++ l)).length ≤ n) :
    Hub.FreeRun s.hub (l.map (·.label)) t.hub ∧
    (granted (fun c => (t.hub.heap c).address) a l : ℚ) ≤ (policy.burst + slack) *
        (1 + pending a s.hub + departures (fun c => (t.hub.heap c).address) a l) +
      policy.rate * (now - begun) := by
  refine ⟨h.hub, ?_⟩
  obtain ⟨old, recent, closed, since, hacc⟩ := exists_account hlib hslack hbefore h (fun _ _ => rfl)
    hclock (fun x hx => (hwithin x hx).1) hn
  have hrecent := hacc.recent_le hlib hslack hclock hn hwindow fun x hx => (hwithin x hx).2
  have hburst : 0 ≤ policy.burst + slack := add_nonneg (Nat.cast_nonneg _) hslack
  have hclosed : (closed : ℚ) ≤
      pending a s.hub + departures (fun c => (t.hub.heap c).address) a l := by
    exact_mod_cast (Nat.le_add_right _ _).trans hacc.closed_le
  have hbursts := mul_le_mul_of_nonneg_left hclosed hburst
  have := hacc.granted_le
  linarith [mul_sub policy.rate now since, mul_sub policy.rate since begun,
    mul_sub policy.rate now begun, mul_add (policy.burst + slack) 1
      (pending a s.hub + departures (fun c => (t.hub.heap c).address) a l : ℚ)]

def oneASecond : Policy ℚ := ⟨1, 2, by decide +kernel⟩

/-- Two bursts at the same instant, with a reconnection between them. -/
def hurried : List TimedLabel :=
  [.register "alice", .run true, .authResult 0 true, .route 0 ⟨0, none⟩ true,
    .route 0 ⟨0, none⟩ true, .route 0 ⟨0, none⟩ false, .routeStep 0 0 true, .readError 0,
    .unregister 0, .run true, .register "alice", .run true, .authResult 1 true,
    .route 1 ⟨0, none⟩ true, .route 1 ⟨0, none⟩ true].map (⟨·, 0⟩)

def hurriedHub : LimitedHub (TokenBucket.Bucket ℚ) :=
  (exec (step (bucket 0)) (fun _ _ => True) (start oneASecond (.new 1000 100) ⟨[]⟩) hurried).get
    (by decide +kernel)

/-- The bound is attained. -/
theorem address_bounded_hurried :
    granted (fun c => (hurriedHub.hub.heap c).address) "alice" hurried = 4 ∧
    departures (fun c => (hurriedHub.hub.heap c).address) "alice" hurried = 1 ∧
    (granted (fun c => (hurriedHub.hub.heap c).address) "alice" hurried : ℚ) ≤
      (oneASecond.burst + 0) *
        (1 + pending "alice" (.start (.new 1000 100) ⟨[]⟩) +
          departures (fun c => (hurriedHub.hub.heap c).address) "alice" hurried) +
        oneASecond.rate * (0 - 0) :=
  ⟨by decide +kernel, by decide +kernel,
    (address_bounded (bucket_respects le_rfl oneASecond 5) le_rfl .nil
      (.of_exec (Option.some_get _).symm) "alice" le_rfl (by decide +kernel) (by decide +kernel)
      (by decide +kernel)).2⟩

end Bound

section Session

variable {policy : Policy ℚ} {mq : MessageQueue Parcel} {blockStore : BlockStore}
  {before : List TimedLabel}

/-- Until a client of the address departs, one limiter answers all its requests. -/
theorem answers_of_run (hbefore : FreeRun lib (start policy mq blockStore) before s)
    (h : FreeRun lib s l t) (haddr : ∀ c < t.hub.nextClient, address c = (t.hub.heap c).address)
    (hfresh : s.limiter.limiters a = none) (hpending : pending a s.hub = 0)
    (hstays : departures address a l = 0) :
    pending a t.hub = 0 ∧
    t.limiter.limiters a = served lib policy ((requests address a l).map (·.now)) ∧
    (requests address a l).map (·.label.allowed) =
      session lib policy ((requests address a l).map (·.now)) := by
  induction h with
  | nil => exact ⟨hpending, hfresh, rfl⟩
  | snoc hrun hok hstep ih =>
    rename_i l u t x
    obtain ⟨htidy, hpolicy⟩ := FreeRun.sound (hbefore.trans hrun)
    have haddr' := address_of_step hstep haddr
    rw [departures_snoc, Nat.add_eq_zero_iff] at hstays
    obtain ⟨hnone, hlimiter, hanswers⟩ := ih haddr' hstays.1
    have hsettled := pending_step (a := a) (Hub.Step.of_step (step_cases hstep).1).2 htidy haddr'
    rw [hnone, hstays.2, Nat.le_zero, Nat.add_eq_zero_iff] at hsettled
    refine ⟨hsettled.1, ?_⟩
    rw [requests_snoc]
    cases served_step hstep htidy haddr' a with
    | asked hx hremoves hallowed hnew =>
      rw [RateLimiter.limiter, hlimiter, hpolicy] at hallowed hnew
      simp [hx, hnew, hallowed, hanswers, session_snoc, served_snoc]
    | removed hx hremoves hnew => simp [hremoves] at hsettled
    | kept hx hremoves hnew => simp [hx, hnew, hlimiter, hanswers]

/-- From the first message of an address until a client of it departs, its messages are answered as
one limiter of the library answers them that sees no others: what other addresses send, and when
their clients come and go, makes no difference. -/
theorem answered_by_one_limiter (hbefore : FreeRun lib (start policy mq blockStore) before s)
    (h : FreeRun lib s l t) (a : String) (hfresh : s.limiter.limiters a = none)
    (hpending : pending a s.hub = 0)
    (hstays : departures (fun c => (t.hub.heap c).address) a l = 0) :
    (requests (fun c => (t.hub.heap c).address) a l).map (·.label.allowed) =
      session lib policy ((requests (fun c => (t.hub.heap c).address) a l).map (·.now)) :=
  (answers_of_run hbefore h (fun _ _ => rfl) hfresh hpending hstays).2.2

/-- A burst and one message too many, and another a second later. -/
def patient : List TimedLabel :=
  [⟨.register "alice", 0⟩, ⟨.run true, 0⟩, ⟨.authResult 0 true, 0⟩, ⟨.route 0 ⟨0, none⟩ true, 0⟩,
    ⟨.route 0 ⟨0, none⟩ true, 0⟩, ⟨.route 0 ⟨0, none⟩ false, 0⟩, ⟨.routeStep 0 0 true, 0⟩,
    ⟨.route 0 ⟨0, none⟩ true, 1⟩]

def patientHub : LimitedHub (TokenBucket.Bucket ℚ) :=
  (exec (step (bucket 0)) (fun _ _ => True) (start oneASecond (.new 1000 100) ⟨[]⟩) patient).get
    (by decide +kernel)

theorem answered_by_one_limiter_patient :
    (requests (fun c => (patientHub.hub.heap c).address) "alice" patient).map (·.label.allowed) =
      session (bucket 0) oneASecond
        ((requests (fun c => (patientHub.hub.heap c).address) "alice" patient).map (·.now)) ∧
    (requests (fun c => (patientHub.hub.heap c).address) "alice" patient).map (·.label.allowed) =
      [true, true, false, true] :=
  ⟨answered_by_one_limiter .nil (.of_exec (Option.some_get _).symm) "alice" rfl rfl
    (by decide +kernel), by decide +kernel⟩

end Session

end LimitedHub

end Pinch
