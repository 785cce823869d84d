import Pinch.QueueClock

/-! Messages that an online recipient has to fetch by reconnecting. A flush ends with a
read that finds nothing, and nobody looks at the queue after it. -/

namespace Pinch

namespace Hub

open Transition

variable {s t : Hub} {label : HubLabel} {a : String} {c : ℕ} {k : QueueKey}
  {m : QueuedMessage Parcel}

/-- No message is queued for an online client once nobody looks at its queue any more,
and no flush is cut off while its client is in the table. -/
def queuesInTime (s : Hub) : HubLabel → Bool
  | .routeStep c _ _ =>
    match (s.heap c).route with
    | some ⟨_, .enqueue a⟩ => (s.clients a).all s.attended
    | _ => true
  | .flushStep c _ _ =>
    (s.heap c).flush ≠ some .checkCtx || !(s.heap c).cancelled || (s.heap c).closed
  | _ => true

def reliable (s : Hub) (label : HubLabel) : Bool :=
  label.succeeds && s.clockForward label && s.queuesInTime label

def Quiescent (s : Hub) : Prop :=
  s.run = .idle ∧ ∀ c < s.nextClient, (s.heap c).route = none ∧ (s.heap c).flush = none

instance : Decidable (Quiescent s) :=
  inferInstanceAs (Decidable (s.run = .idle ∧ ∀ c < s.nextClient, _ ∧ _))

def Drained (s : Hub) : Prop :=
  ∀ a c, s.clients a = some c → s.attended c = false → ∀ k m,
    (k, some m) ∈ (s.mq.bucket a).messages → expired s.mq.ttl s.clock m.enqueuedAt = true

theorem Step.clients_before (hs : Step s label t) (hc : t.clients a = some c) :
    s.clients a = some c ∨ t.run.registering = some c := by
  cases hs with
  | registered hrun ha =>
    rename_i b
    by_cases hab : a = b
    · subst hab
      exact .inr (by simpa [RunPc.registering] using hc)
    · exact .inl (by simpa [hab] using hc)
  | unregistered hrun hstage htable | shutdownClosed hrun htable =>
    exact .inl (eq_some_of_update_none hc).2
  | _ => exact .inl (by simpa using hc)

theorem Step.counted_none (hs : Step s label t) (hok : label.succeeds = true)
    (hbefore : s.run.registering = some c) (hafter : t.attended c = false)
    (hm : (k, some m) ∈ (t.mq.bucket (s.heap c).address).messages) : False := by
  have hstays : t.run.registering ≠ some c := by
    intro hreg
    simp [attended, hreg] at hafter
  cases hs with
  | uncounted hrun hcount =>
    obtain rfl : _ = c := by simpa [hrun, RunPc.registering] using hbefore
    exact SortedMap.not_mem_of_size_eq_zero (hcount hok) hm
  | counted hrun =>
    exact hstays (by simpa [hrun, RunPc.registering] using hbefore)
  | announced hrun =>
    exact hstays (by simpa [hrun, RunPc.registering] using hbefore)
  | flagged hrun =>
    obtain rfl : _ = c := by simpa [hrun, RunPc.registering] using hbefore
    simp [attended, Client.draining] at hafter
  | registered hrun ha => simp [hrun, RunPc.registering] at hbefore
  | cancelled hrun | shutdownBegun hrun | stopped hrun => simp [hrun, RunPc.registering] at hbefore
  | unregistered hrun hstage htable => simp [hrun, RunPc.registering] at hbefore
  | shutdownClosed hrun htable => simp [hrun, RunPc.registering] at hbefore
  | _ => exact hstays (by simpa using hbefore)

/-- The last look at a queue finds nothing in it that has not expired. -/
theorem Step.last_look (hs : Step s label t) (htidy : Tidy s) (hsucc : label.succeeds = true)
    (hok : s.queuesInTime label = true) (hopen : (s.heap c).closed = false)
    (hbefore : s.attended c = true) (hafter : t.attended c = false)
    (hm : (k, some m) ∈ (t.mq.bucket (s.heap c).address).messages) :
    expired t.mq.ttl t.clock m.enqueuedAt = true := by
  rcases Bool.or_eq_true_iff.mp hbefore with hreg | hdrain
  · exact (hs.counted_none hsucc (by simpa using hreg) hafter hm).elim
  · have hdone : (t.heap c).draining = false := (Bool.or_eq_false_iff.mp hafter).2
    cases hs.flushView c with
    | same hflush haddr =>
      rw [Client.draining, hflush, ← Client.draining, hdrain] at hdone
      exact absurd hdone (by simp)
    | fresh hc hflush =>
      rw [hc, htidy.nextClient_closed] at hopen
      exact absurd hopen (by simp)
    | begun hrun hflush haddr => simp [Client.draining, hflush] at hdone
    | moved hl hold hmove ht =>
      cases hmove with
      | aborted hcan => simp [hl, queuesInTime, hold, hcan, hopen] at hok
      | failed hfail => simp [hl, hfail, HubLabel.succeeds] at hsucc
      | connected hcan => simp [ht, Client.draining] at hdone
      | slept => simp [ht, Client.draining] at hdone
    | drained hl hold hnil ht =>
      subst ht
      exact MessageQueue.expired_of_flushBatch_eq_nil (by decide) hnil hm
    | batched hl hold ht | sent hl hold ht | removed hl hold ht =>
      simp [ht, Client.draining] at hdone
    | finished hl hold hflush haddr => simp [Client.draining, hold] at hdrain

theorem Step.drained_of_reliable (hs : Step s label t) (htidy : Tidy s) (hdated : Dated s)
    (hok : s.reliable label = true) (h : Drained s) : Drained t := by
  obtain ⟨⟨hsucc, hclock⟩, htime⟩ : (label.succeeds = true ∧ s.clockForward label = true) ∧
      s.queuesInTime label = true := by
    simpa only [reliable, Bool.and_eq_true] using hok
  intro a c hc hatt k m hm
  have hc' : s.clients a = some c := by
    refine (hs.clients_before hc).resolve_right fun hreg => ?_
    simp [attended, hreg] at hatt
  obtain rfl := htidy.address a c hc'
  cases hbefore : s.attended c with
  | true =>
    exact hs.last_look htidy hsucc htime (htidy.opened _ c hc') hbefore hatt hm
  | false =>
    rcases hs.of_mem_bucket hm with hold | ⟨d, now, parcel, rfl, hroute, -⟩
    · exact hs.stays_expired hclock hdated hold (h _ c hc' hbefore k m hold)
    · simp [queuesInTime, hroute, hc', hbefore] at htime

/-- In a run of reliable steps, a hub at rest holds no unexpired message for a client in
the table. -/
theorem no_stranded_message {maxPerAgent : ℤ} {ttl : Int64} {blockStore : BlockStore}
    {l : List HubLabel}
    (h : Run step (fun s x => s.reliable x) (start (.new maxPerAgent ttl) blockStore) l s)
    (hrest : Quiescent s) (hc : s.clients a = some c) (hflag : (s.heap c).flushing = false)
    (hm : (k, some m) ∈ (s.mq.bucket a).messages) :
    expired s.mq.ttl s.clock m.enqueuedAt = true := by
  obtain ⟨htidy, -, hdrained⟩ := h.invariant (P := fun s => Tidy s ∧ Dated s ∧ Drained s)
    ⟨.start _ blockStore, .start maxPerAgent ttl blockStore, by simp [Drained, start]⟩ (by
      rintro s label t ⟨htidy, hdated, hdrained⟩ hok hstep
      obtain ⟨-, hs⟩ := Step.of_step hstep
      have hclock : s.clockForward label = true := by
        simp only [reliable, Bool.and_eq_true] at hok
        exact hok.1.2
      exact ⟨hs.tidy htidy, hs.dated hclock hdated,
        hs.drained_of_reliable htidy hdated hok hdrained⟩)
  have hnone : (s.heap c).flush = none := by
    simpa [(htidy.settled c).flag] using hflag
  refine hdrained a c hc ?_ k m hm
  simp [attended, hrest.1, RunPc.registering, Client.draining, hnone]

def lateBob : Hub :=
  (exec step (fun s x => s.reliable x) (start (.new 1000 100) ⟨[]⟩)
    [.register "alice", .run true, .authResult 0 true, .route 0 toBob true, .routeStep 0 0 true,
      .routeStep 0 0 true, .routeStep 0 0 true, .register "bob", .run true, .run true, .run true,
      .flushStep 1 200 true, .flushStep 1 200 true, .flushStep 1 200 true]).get (by decide +kernel)

theorem no_stranded_message_lateBob : expired lateBob.mq.ttl lateBob.clock 0 = true :=
  no_stranded_message (a := "bob") (c := 1) (k := encodeKey 0 1) (m := ⟨0, "alice", ⟨toBob, 0⟩⟩)
    (.of_exec (Option.some_get _).symm) (by decide +kernel) (by decide +kernel) (by decide +kernel)
    (by decide +kernel)

/-- "bob" registers between the lookup and the `Enqueue` of a message for them. -/
theorem message_stranded : ∃ l s, Run step (fun s x => x.succeeds && s.clockForward x)
      (start (.new 1000 100) ⟨[]⟩) l s ∧
    Quiescent s ∧ s.clients "bob" = some 1 ∧ (s.heap 1).flushing = false ∧
    ∃ k m, (k, some m) ∈ (s.mq.bucket "bob").messages ∧
      expired s.mq.ttl s.clock m.enqueuedAt = false :=
  ⟨_, _, .of_exec (l := [.register "alice", .run true, .authResult 0 true, .route 0 toBob true,
      .routeStep 0 0 true, .routeStep 0 0 true, .register "bob", .run true, .authResult 1 true,
      .routeStep 0 0 true]) (Option.some_get (by decide +kernel)).symm,
    by decide +kernel, by decide +kernel, by decide +kernel, encodeKey 0 1,
    ⟨0, "alice", ⟨toBob, 0⟩⟩, by decide +kernel, by decide +kernel⟩

end Hub

end Pinch
