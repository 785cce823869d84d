import Pinch.QueueClock

/-! The order of one sender's messages in a queue. The keys of a queue grow with the
clock, and an address has one `RouteMessage` call at a time, so the keys of its messages
are in the order of the calls. -/

namespace Pinch

def Item.callOf (a : String) : Item → Option ℕ
  | .direct sender parcel | .queued _ sender parcel => if sender = a then some parcel.call else none
  | .control _ => none

namespace Hub

variable {s t : Hub} {label : HubLabel} {a : String} {c d n : ℕ} {k : QueueKey} {now : Int64}
  {e : QueueEntry Parcel}

/-- The entry is in the queue of `a`, or in a batch that was read from it and is not yet
sent. -/
def Queued (s : Hub) (a : String) (e : QueueEntry Parcel) : Prop :=
  (∃ msg, (e.key, some msg) ∈ (s.mq.bucket a).messages ∧
    e = ⟨e.key, msg.envelope, msg.senderAddr⟩) ∨
  ∃ c, (s.heap c).address = a ∧ e ∈ (s.heap c).unsent

structure Enqueues (s : Hub) (label : HubLabel) (t : Hub) (d : ℕ) (now : Int64) (a : String)
    (e : QueueEntry Parcel) : Prop where
  label : label = .routeStep d now true
  route : (s.heap d).route = some ⟨e.envelope, .enqueue a⟩
  sender : e.senderAddr = (s.heap d).address
  key : e.key = encodeKey now ((s.mq.bucket a).sequence + 1)
  sequence : (t.mq.bucket a).sequence = (s.mq.bucket a).sequence + 1
  after : t = { s with mq := t.mq, clock := now }.setRoute d none

theorem Step.enqueues_of_mem (hs : Step s label t) {msg : QueuedMessage Parcel}
    (hmem : (e.key, some msg) ∈ (t.mq.bucket a).messages)
    (he : e = ⟨e.key, msg.envelope, msg.senderAddr⟩) :
    (e.key, some msg) ∈ (s.mq.bucket a).messages ∨ ∃ d now, Enqueues s label t d now a e := by
  rcases hs.of_mem_bucket hmem with hold | ⟨d, now, parcel, hl, hroute, hmq, hx, ht⟩
  · exact .inl hold
  · obtain ⟨hkey, rfl⟩ : e.key = _ ∧ msg = _ := by simpa using hx
    exact .inr ⟨d, now, hl, by rw [he]; exact hroute, by rw [he], hkey,
      MessageQueue.sequence_enqueue_self hmq, ht⟩

theorem Step.waiting_before (hs : Step s label t) (hok : s.clockForward label = true)
    (hdated : Dated s) (h : e ∈ t.mq.waiting a t.clock) :
    e ∈ s.mq.waiting a s.clock ∨ ∃ d now, Enqueues s label t d now a e := by
  obtain ⟨msg, hmem, hlive, he⟩ := MessageQueue.mem_waiting.mp h
  refine (hs.enqueues_of_mem hmem he).imp_left fun hold => ?_
  refine MessageQueue.mem_waiting.mpr ⟨msg, hold, ?_, he⟩
  by_contra hexp
  exact absurd (hs.stays_expired hok hdated hold (by simpa using hexp)) (by simp [hlive])

theorem Step.queued_before (hs : Step s label t) (h : Queued t a e) :
    Queued s a e ∨ ∃ d now, Enqueues s label t d now a e := by
  rcases h with ⟨msg, hmem, he⟩ | ⟨c, rfl, he⟩
  · exact (hs.enqueues_of_mem hmem he).imp_left fun hold => .inl ⟨msg, hold, he⟩
  · rcases hs.unsent c with hnil | ⟨hsub, haddr⟩ | ⟨now, -, -, rfl⟩
    · simp [hnil] at he
    · exact .inl (.inr ⟨c, haddr.symm, hsub.subset he⟩)
    · have hin : e ∈ s.mq.flushBatch (s.heap c).address flushBatchSize now := by
        simpa [Client.unsent, FlushPc.unsent] using he
      obtain ⟨msg, hmem, -, heq⟩ := MessageQueue.mem_of_mem_flushBatch hin
      exact .inl (.inl ⟨msg, by simpa using hmem, heq⟩)

def Stamped (s : Hub) (a : String) (k : QueueKey) : Prop :=
  ∃ date n, k = encodeKey date n ∧ 0 ≤ date ∧ date ≤ s.clock ∧ n ≤ (s.mq.bucket a).sequence

theorem Step.stamped (hs : Step s label t) (hok : s.clockForward label = true)
    (h : Stamped s a k) : Stamped t a k := by
  obtain ⟨date, n, hk, hzero, hdate, hn⟩ := h
  exact ⟨date, n, hk, hzero, Int64.le_trans hdate (hs.clock_le hok), hn.trans (hs.evolves a).1⟩

theorem Enqueues.clock (h : Enqueues s label t d now a e) : t.clock = now := by
  rw [h.after]
  rfl

theorem Enqueues.placed (h : Enqueues s label t d now a e) : t.placed = s.placed := by
  rw [h.after]
  rfl

theorem Enqueues.stamped (h : Enqueues s label t d now a e) (hclock : 0 ≤ t.clock) :
    Stamped t a e.key :=
  ⟨now, _, h.key, h.clock ▸ hclock, h.clock ▸ Int64.le_refl _, h.sequence.ge⟩

/-- A new key is larger than every key that was given out before. -/
theorem Enqueues.key_lt (h : Enqueues s label t d now a e) (hok : s.clockForward label = true)
    (hk : Stamped s a k) : k < e.key := by
  obtain ⟨date, n, rfl, hzero, hdate, hn⟩ := hk
  have hnow : s.clock ≤ now := by simpa [h.label, clockForward, HubLabel.reading] using hok
  rw [h.key]
  exact encodeKey_lt hzero (Int64.le_trans hdate hnow) (Nat.lt_succ_of_le hn)

/-- Call `n` of `a` has come to its end: its message is queued or was placed. -/
def Carries (s : Hub) (a : String) (n : ℕ) : Prop :=
  (∃ r e, Queued s r e ∧ e.senderAddr = a ∧ e.envelope.call = n) ∨
    ∃ p ∈ s.placed, p.item.callOf a = some n

theorem Step.carries_before (hs : Step s label t) (h : Carries t a n) :
    Carries s a n ∨ ∃ d now ok call, label = .routeStep d now ok ∧
      (s.heap d).route = some call ∧ (t.heap d).route = none ∧ (s.heap d).address = a ∧
      call.parcel.call = n := by
  rcases h with ⟨r, e, hq, rfl, rfl⟩ | ⟨p, hp, hcall⟩
  · rcases hs.queued_before hq with hold | ⟨d, now, henq⟩
    · exact .inl (.inl ⟨r, e, hold, rfl, rfl⟩)
    · exact .inr ⟨d, now, true, _, henq.label, henq.route, by rw [henq.after]; simp,
        henq.sender.symm, rfl⟩
  · rcases hs.placed_cases with heq | ⟨q, heq, hq⟩
    · exact .inl (.inr ⟨p, heq ▸ hp, hcall⟩)
    · rw [heq, List.mem_append, List.mem_singleton] at hp
      rcases hp with hp | rfl
      · exact .inl (.inr ⟨p, hp, hcall⟩)
      · cases hq with
        | control hacc => simp [Item.callOf] at hcall
        | direct hl hacc hroute ht =>
          obtain ⟨ha, hn⟩ := Option.ite_none_right_eq_some.mp hcall
          exact .inr ⟨_, _, _, _, hl, hroute, by simp [ht], ha, Option.some.inj hn⟩
        | queued hl hacc hflush ht =>
          rename_i c _ _ e rest
          have hin : e ∈ (s.heap c).unsent := by simp [Client.unsent, FlushPc.unsent, hflush]
          obtain ⟨ha, hn⟩ := Option.ite_none_right_eq_some.mp hcall
          exact .inl (.inl ⟨_, e, .inr ⟨c, rfl, hin⟩, ha, Option.some.inj hn⟩)

theorem Tidy.route_unique (h : Tidy s) (hc : (s.heap c).route ≠ none)
    (hd : (s.heap d).route ≠ none) (ha : (s.heap c).address = (s.heap d).address) : c = d := by
  refine h.single c d ?_ ?_ ha
  · simp [(h.settled c).reading hc]
  · simp [(h.settled d).reading hd]

structure Chronological (s : Hub) : Prop where
  stamped : ∀ a e, Queued s a e → Stamped s a e.key
  ordered : ∀ a e e', Queued s a e → Queued s a e' → e.senderAddr = e'.senderAddr →
    e.key < e'.key → e.envelope.call < e'.envelope.call
  carried : ∀ a n, Carries s a n → n < s.nextCall
  called : ∀ d call, (s.heap d).route = some call → call.parcel.call < s.nextCall
  latest : ∀ d call, (s.heap d).route = some call → ∀ n, Carries s (s.heap d).address n →
    n < call.parcel.call

theorem Chronological.start (maxPerAgent : ℤ) (ttl : Int64) (blockStore : BlockStore) :
    Chronological (start (.new maxPerAgent ttl) blockStore) := by
  constructor <;> simp [Hub.start, Queued, Carries, Client.unsent, Bucket.empty]

namespace Step

theorem nextCall_le (hs : Step s label t) : s.nextCall ≤ t.nextCall := by
  cases hs with
  | called hstage hroute => exact Nat.le_succ _
  | _ => simp

theorem queue_ordered (hs : Step s label t) (hok : s.clockForward label = true)
    (h : Chronological s) : ∀ a e e', Queued t a e → Queued t a e' →
      e.senderAddr = e'.senderAddr → e.key < e'.key → e.envelope.call < e'.envelope.call := by
  intro a e e' he he' hsender hlt
  rcases hs.queued_before he with hold | ⟨d, now, henq⟩
  · rcases hs.queued_before he' with hold' | ⟨d, now, henq⟩
    · exact h.ordered a e e' hold hold' hsender hlt
    · exact h.latest d _ henq.route _ (.inl ⟨a, e, hold, hsender.trans henq.sender, rfl⟩)
  · rcases hs.queued_before he' with hold' | ⟨d', now', henq'⟩
    · exact absurd hlt (henq.key_lt hok (h.stamped a e' hold')).not_gt
    · obtain ⟨rfl, rfl⟩ : d = d' ∧ now = now' := by simpa using henq.label.symm.trans henq'.label
      exact absurd hlt (by rw [henq.key, henq'.key]; exact lt_irrefl _)

theorem called_lt (hs : Step s label t) (h : Chronological s) :
    ∀ d call, (t.heap d).route = some call → call.parcel.call < t.nextCall := by
  intro d call hcall
  cases hs.routeView d with
  | same hroute haddr => exact (h.called d call (hroute ▸ hcall)).trans_le hs.nextCall_le
  | fresh hc hroute | ended hl hroute => simp [hroute] at hcall
  | called hl hold ht =>
    subst ht
    obtain ⟨pc, -, rfl⟩ := Option.map_eq_some_iff.mp (by simpa using hcall)
    exact Nat.lt_succ_self _
  | moved hl hold hmove ht =>
    have hlt := h.called d _ hold
    subst ht
    obtain ⟨pc, -, rfl⟩ := Option.map_eq_some_iff.mp (by simpa using hcall)
    exact hlt

theorem latest (hs : Step s label t) (htidy : Tidy s) (h : Chronological s) :
    ∀ d call, (t.heap d).route = some call → ∀ n, Carries t (t.heap d).address n →
      n < call.parcel.call := by
  intro d call hcall n hn
  cases hs.routeView d with
  | same hroute haddr =>
    rw [hroute] at hcall
    rw [haddr] at hn
    rcases hs.carries_before hn with hold | ⟨d', now, ok, call', hl, hcall', hnone, ha, -⟩
    · exact h.latest d call hcall n hold
    · obtain rfl := htidy.route_unique (by simp [hcall']) (by simp [hcall]) ha
      exact absurd (hroute.symm.trans hnone) (by simp [hcall])
  | fresh hc hroute | ended hl hroute => simp [hroute] at hcall
  | called hl hold ht =>
    rcases hs.carries_before hn with hcar | ⟨d', now, ok, call', hl', -⟩
    · subst ht
      obtain ⟨pc, -, rfl⟩ := Option.map_eq_some_iff.mp (by simpa using hcall)
      exact h.carried _ n hcar
    · exact absurd (hl.symm.trans hl') (by simp)
  | moved hl hold hmove ht =>
    rcases hs.carries_before hn with hcar | ⟨d', now, ok, call', hl', -, hnone, -⟩
    · have hlt := h.latest d _ hold n (by simpa [ht] using hcar)
      subst ht
      obtain ⟨pc, -, rfl⟩ := Option.map_eq_some_iff.mp (by simpa using hcall)
      exact hlt
    · obtain ⟨rfl, -⟩ : d = d' ∧ _ := by simpa using hl.symm.trans hl'
      exact absurd (hcall.symm.trans hnone) (by simp)

theorem chronological (hs : Step s label t) (htidy : Tidy s) (hdated : Dated s)
    (hok : s.clockForward label = true) (h : Chronological s) : Chronological t where
  stamped a e he := by
    rcases hs.queued_before he with hold | ⟨d, now, henq⟩
    · exact hs.stamped hok (h.stamped a e hold)
    · exact henq.stamped (hs.dated hok hdated).clock
  ordered := hs.queue_ordered hok h
  carried a n hn := by
    rcases hs.carries_before hn with hold | ⟨d, now, ok, call, -, hcall, -, -, rfl⟩
    · exact (h.carried a n hold).trans_le hs.nextCall_le
    · exact (h.called d call hcall).trans_le hs.nextCall_le
  called := hs.called_lt h
  latest := hs.latest htidy h

end Step

end Hub

end Pinch
