import Pinch.RoutingTable

/-! Sends on closed channels. `Run` closes a channel under the lock, but the goroutines
that look a client up send to it after they have released the lock. -/

namespace Pinch

def Client.flushIdle (x : Client) : Bool :=
  match x.flush with
  | none | some .clearing | some .checkCtx | some (.sending []) | some (.removing _ []) => true
  | _ => false

namespace Hub

open Transition

variable {s t : Hub} {label : HubLabel} {c d r : ℕ}

def unused (s : Hub) (c : ℕ) : Bool :=
  (s.heap c).route.isNone && (s.heap c).flushIdle &&
    (List.range s.nextClient).all fun d => (s.heap d).recipient ≠ some c

/-- A client is closed only when it is unused. Once it is closed, no `RouteMessage` of the client
starts, neither before the cancellation of its context nor after it, and until the cancellation no
check of the context by a flush passes. -/
def closesUnused (s : Hub) : HubLabel → Bool
  | .unregister c | .closeNext c => s.unused c
  | .route c _ _ => !(s.heap c).closed
  | .flushStep c _ _ =>
    (s.heap c).flush ≠ some .checkCtx || !(s.heap c).closed || (s.heap c).cancelled
  | _ => true

def Sealed (x : Client) : Prop := x.closed = true → x.route = none ∧ x.flushIdle = true

def HoldsOpen (s : Hub) : Prop :=
  ∀ d r, (s.heap d).recipient = some r → (s.heap r).closed = false

theorem sealed_send (x : Client) (l : List Item) : Sealed { x with send := l } ↔ Sealed x := Iff.rfl

namespace Step

theorem sealed (hs : Step s label t) (htidy : Tidy s) (hok : s.closesUnused label = true)
    (h : ∀ c, Sealed (s.heap c)) : ∀ c, Sealed (t.heap c) := by
  have hunused : ∀ {c}, s.unused c = true →
      (s.heap c).route = none ∧ (s.heap c).flushIdle = true := by
    intro c hc
    simp only [unused, Bool.and_eq_true, Option.isNone_iff_eq_none] at hc
    exact hc.1
  cases hs with
  | registered hrun ha =>
    refine forall_modify h ?_
    simp [Sealed]
  | announced hrun => exact forall_send sealed_send h
  | flagged hrun =>
    refine forall_modify h ?_
    have hopen := (htidy.registering _ (by rw [hrun]; rfl)).1
    exact fun hc => absurd (hopen.symm.trans hc) (by simp)
  | cancelled hrun | stale hrun hstage | propagated hcn | authenticated hstage
  | readFailed hstage hroute | written =>
    refine forall_modify h ?_
    exact h _
  | unregistered hrun hstage htable | shutdownClosed hrun htable =>
    refine forall_modify h ?_
    exact fun _ => hunused hok
  | called hstage hroute =>
    rename_i d _ _
    refine forall_modify h ?_
    have hopen : (s.heap d).closed = false := by simpa [closesUnused] using hok
    exact fun hc => absurd (hopen.symm.trans hc) (by simp)
  | routed hroute hmove =>
    refine forall_modify h ?_
    exact fun hc => absurd ((h _ hc).1.symm.trans hroute) (by simp)
  | blockChanged hroute | enqueued hroute hmq =>
    refine forall_modify h ?_
    exact fun hc => ⟨rfl, (h _ hc).2⟩
  | replied hroute | delivered hroute =>
    refine forall_modify (forall_send sealed_send h) ?_
    exact fun hc => ⟨rfl, (forall_send sealed_send h _ hc).2⟩
  | flushMoved hflush hmove =>
    rename_i d _ _ _ _
    refine forall_modify h ?_
    intro hc
    replace hc : (s.heap d).closed = true := hc
    obtain ⟨hroute, hidle⟩ := h _ hc
    refine ⟨hroute, ?_⟩
    cases hmove with
    | aborted hcan => rfl
    | slept => rfl
    | connected hcan => simp [closesUnused, hflush, hcan, hc] at hok
    | failed hfail => simp [Client.flushIdle, hflush] at hidle
  | drained hflush hnil | batched hflush =>
    refine forall_modify h ?_
    exact fun hc => absurd (h _ hc).2 (by simp [Client.flushIdle, hflush])
  | flushSent hflush =>
    refine forall_modify (forall_send sealed_send h) ?_
    intro hc
    exact absurd (h _ (by simpa using hc)).2 (by simp [Client.flushIdle, hflush])
  | flushRemoved hflush =>
    refine forall_modify h ?_
    intro hc
    obtain ⟨hroute, hidle⟩ := h _ hc
    refine ⟨hroute, ?_⟩
    rename_i rest
    cases rest with
    | nil => rfl
    | cons e rest => simp [Client.flushIdle, hflush] at hidle
  | flushed hflush =>
    refine forall_modify h ?_
    exact fun hc => ⟨(h _ hc).1, rfl⟩
  | _ => exact h

theorem holdsOpen (hs : Step s label t) (htidy : Tidy s) (hok : s.closesUnused label = true)
    (h : HoldsOpen s) : HoldsOpen t := by
  -- a client that a call holds is not closed by the step
  have hkeep : ∀ {d r}, (s.heap d).recipient = some r → (t.heap r).closed = false := by
    intro d r hr
    have hborn : d < s.nextClient := htidy.born_route fun hnone => by
      simp [Client.recipient, hnone] at hr
    have hfree : ¬ s.unused r = true := by
      intro hu
      simp only [unused, Bool.and_eq_true, List.all_eq_true, List.mem_range] at hu
      simpa [hr] using hu.2 d hborn
    rcases hs.opened_after (h d r hr) with hopen | rfl | rfl
    · exact hopen
    · exact absurd hok hfree
    · exact absurd hok hfree
  intro d r hr
  rcases hs.recipient_before hr with hold | ⟨-, -, a, -, htable, hsame⟩
  · exact hkeep hold
  · rw [hsame]
    exact htidy.opened a r htable

end Step

theorem Step.not_panicked (hs : Step s label t) (htidy : Tidy s) (hp : s.panicked = false)
    (hsealed : ∀ c, Sealed (s.heap c)) (hopen : HoldsOpen s) : t.panicked = false := by
  have hlive : ∀ {c}, ((s.heap c).route = none ∧ (s.heap c).flushIdle = true → False) →
      (s.heap c).closed = false := by
    intro c hbusy
    by_contra hc
    exact hbusy (hsealed c (by simpa using hc))
  cases hs with
  | announced hrun =>
    have hc := (htidy.registering _ (by rw [hrun]; rfl)).1
    simp [panicked_send, hp, hc]
  | replied hroute =>
    have hc := hlive (fun hidle => absurd (hidle.1.symm.trans hroute) (by simp))
    simp [panicked_send, hp, hc]
  | delivered hroute =>
    rename_i d r _ _ _
    have hc := hopen d r (by simp [Client.recipient, hroute, RoutePc.recipient])
    simp [panicked_send, hp, hc]
  | flushSent hflush =>
    rename_i d _ _ _ _
    have hc := hlive (c := d) (fun hidle => absurd hidle.2 (by simp [Client.flushIdle, hflush]))
    simp [panicked_send, hp, hc]
  | _ => simpa using hp

/-- In a run that closes only unused clients the relay never panics. -/
theorem no_send_on_closed_channel {mq : MessageQueue Parcel} {blockStore : BlockStore}
    {l : List HubLabel}
    (h : Run step (fun s x => s.closesUnused x) (start mq blockStore) l s) :
    s.panicked = false := by
  refine (h.invariant (P := fun s => Tidy s ∧ (∀ c, Sealed (s.heap c)) ∧ HoldsOpen s ∧
    s.panicked = false) ⟨.start mq blockStore, ?_, ?_, rfl⟩ ?_).2.2.2
  · simp [start, Sealed, Client.flushIdle]
  · simp [start, HoldsOpen, Client.recipient]
  · rintro s label t ⟨htidy, hsealed, hopen, hp⟩ hok hstep
    obtain ⟨-, hs⟩ := Step.of_step hstep
    exact ⟨hs.tidy htidy, hs.sealed htidy hok hsealed, hs.holdsOpen htidy hok hopen,
      hs.not_panicked htidy hp hsealed hopen⟩

def bobLeft : Hub :=
  (exec step (fun s x => s.closesUnused x) (start (.new 1000 100) ⟨[]⟩)
    [.register "alice", .run true, .authResult 0 true, .register "bob", .run true,
      .authResult 1 true, .route 0 toBob true, .routeStep 0 0 true, .routeStep 0 0 true,
      .routeStep 0 0 true, .routeStep 0 0 true, .readError 1, .unregister 1, .run true]).get
    (by decide +kernel)

theorem no_send_on_closed_channel_bobLeft :
    (bobLeft.heap 1).closed = true ∧ bobLeft.panicked = false :=
  ⟨by decide +kernel, no_send_on_closed_channel (.of_exec (Option.some_get _).symm)⟩

/-- "bob" disconnects between the lookup and the send of a message to them. -/
theorem send_on_closed_channel : ∃ l s,
    Run step (fun _ x => x.succeeds) (start (.new 1000 100) ⟨[]⟩) l s ∧ s.panicked = true :=
  ⟨_, _, .of_exec (l := [.register "alice", .run true, .authResult 0 true, .register "bob",
      .run true, .authResult 1 true, .route 0 toBob true, .routeStep 0 0 true, .routeStep 0 0 true,
      .routeStep 0 0 true, .readError 1, .unregister 1, .routeStep 0 0 true])
    (Option.some_get (by decide +kernel)).symm, by decide +kernel⟩

end Hub

end Pinch
