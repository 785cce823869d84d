import Pinch.Hub

/-! What one step of the hub can do. The step relation lists the cases once, with
their guards, and everything about runs is derived from it. -/

namespace Pinch

def RoutePc.recipient : RoutePc → Option ℕ
  | .isFlushing _ r | .deliver r => some r
  | _ => none

def Client.recipient (x : Client) : Option ℕ := x.route.bind fun call => call.pc.recipient

namespace Hub

variable {s t : Hub} {c d r : ℕ} {f : Client → Client} {item : Item} {label : HubLabel}

section Fields

@[simp] theorem modify_clients : (s.modify c f).clients = s.clients := rfl
@[simp] theorem modify_nextClient : (s.modify c f).nextClient = s.nextClient := rfl
@[simp] theorem modify_nextCall : (s.modify c f).nextCall = s.nextCall := rfl
@[simp] theorem modify_mq : (s.modify c f).mq = s.mq := rfl
@[simp] theorem modify_run : (s.modify c f).run = s.run := rfl
@[simp] theorem modify_panicked : (s.modify c f).panicked = s.panicked := rfl
@[simp] theorem modify_clock : (s.modify c f).clock = s.clock := rfl
@[simp] theorem modify_placed : (s.modify c f).placed = s.placed := rfl

@[simp]
theorem heap_modify_self : (s.modify c f).heap c = f (s.heap c) := by
  simp [modify]

theorem heap_modify_of_ne (h : d ≠ c) : (s.modify c f).heap d = s.heap d := by
  simp [modify, h]

theorem modify_eq_self (h : f (s.heap c) = s.heap c) : s.modify c f = s := by
  rw [modify, h, Function.update_eq_self]

theorem field_modify {β : Type*} (g : Client → β) (h : ∀ x, g (f x) = g x) :
    g ((s.modify c f).heap d) = g (s.heap d) := by
  by_cases hd : d = c
  · subst hd
    rw [heap_modify_self, h]
  · rw [heap_modify_of_ne hd]

@[simp]
theorem address_modify (h : ∀ x, (f x).address = x.address) :
    ((s.modify c f).heap d).address = (s.heap d).address := field_modify _ h

@[simp]
theorem closed_modify (h : ∀ x, (f x).closed = x.closed) :
    ((s.modify c f).heap d).closed = (s.heap d).closed := field_modify _ h

@[simp]
theorem cancelled_modify (h : ∀ x, (f x).cancelled = x.cancelled) :
    ((s.modify c f).heap d).cancelled = (s.heap d).cancelled := field_modify _ h

@[simp]
theorem flushing_modify (h : ∀ x, (f x).flushing = x.flushing) :
    ((s.modify c f).heap d).flushing = (s.heap d).flushing := field_modify _ h

@[simp]
theorem stage_modify (h : ∀ x, (f x).stage = x.stage) :
    ((s.modify c f).heap d).stage = (s.heap d).stage := field_modify _ h

@[simp]
theorem route_modify (h : ∀ x, (f x).route = x.route) :
    ((s.modify c f).heap d).route = (s.heap d).route := field_modify _ h

@[simp]
theorem flush_modify (h : ∀ x, (f x).flush = x.flush) :
    ((s.modify c f).heap d).flush = (s.heap d).flush := field_modify _ h

end Fields

section Send

def accepts (s : Hub) (c : ℕ) : Bool :=
  !(s.heap c).closed && (s.heap c).send.length < sendBufferSize

theorem send_eq : s.send c item =
    { s with
      panicked := s.panicked || (s.heap c).closed
      placed := s.placed ++
        if s.accepts c then [Placement.mk c (s.heap c).address item] else [] }.modify c
        (fun x => { x with send := x.send ++ if s.accepts c then [item] else [] }) := by
  cases hc : (s.heap c).closed with
  | true =>
    have hacc : s.accepts c = false := by simp [accepts, hc]
    simp only [send, hc, hacc, if_true, Bool.false_eq_true, if_false, List.append_nil, Bool.or_true]
    exact (modify_eq_self rfl).symm
  | false =>
    by_cases hroom : (s.heap c).send.length < sendBufferSize
    · simp [send, accepts, hc, hroom]
    · have hacc : s.accepts c = false := by simp [accepts, hroom]
      simp only [send, hc, hroom, hacc, Bool.false_eq_true, if_false, List.append_nil,
        Bool.or_false]
      exact (modify_eq_self rfl).symm

@[simp] theorem send_clients : (s.send c item).clients = s.clients := by simp [send_eq]
@[simp] theorem send_nextClient : (s.send c item).nextClient = s.nextClient := by simp [send_eq]
@[simp] theorem send_nextCall : (s.send c item).nextCall = s.nextCall := by simp [send_eq]
@[simp] theorem send_mq : (s.send c item).mq = s.mq := by simp [send_eq]
@[simp] theorem send_run : (s.send c item).run = s.run := by simp [send_eq]
@[simp] theorem send_clock : (s.send c item).clock = s.clock := by simp [send_eq]

theorem field_send {β : Type*} (g : Client → β) (h : ∀ x l, g { x with send := l } = g x) :
    g ((s.send c item).heap d) = g (s.heap d) := by
  rw [send_eq]
  exact field_modify g fun x => h x _

@[simp]
theorem address_send : ((s.send c item).heap d).address = (s.heap d).address :=
  field_send _ fun _ _ => rfl

@[simp]
theorem closed_send : ((s.send c item).heap d).closed = (s.heap d).closed :=
  field_send _ fun _ _ => rfl

@[simp]
theorem cancelled_send : ((s.send c item).heap d).cancelled = (s.heap d).cancelled :=
  field_send _ fun _ _ => rfl

@[simp]
theorem flushing_send : ((s.send c item).heap d).flushing = (s.heap d).flushing :=
  field_send _ fun _ _ => rfl

@[simp]
theorem stage_send : ((s.send c item).heap d).stage = (s.heap d).stage :=
  field_send _ fun _ _ => rfl

@[simp]
theorem route_send : ((s.send c item).heap d).route = (s.heap d).route :=
  field_send _ fun _ _ => rfl

@[simp]
theorem flush_send : ((s.send c item).heap d).flush = (s.heap d).flush :=
  field_send _ fun _ _ => rfl

theorem placed_send : (s.send c item).placed =
    s.placed ++ if s.accepts c then [⟨c, (s.heap c).address, item⟩] else [] := by
  rw [send_eq, modify_placed]

theorem placed_send_cases : (s.send c item).placed = s.placed ∨
    (s.accepts c = true ∧
      (s.send c item).placed = s.placed ++ [⟨c, (s.heap c).address, item⟩]) := by
  rw [placed_send]
  cases s.accepts c with
  | false => exact .inl (by simp)
  | true => exact .inr ⟨rfl, by simp⟩

theorem panicked_send : (s.send c item).panicked = (s.panicked || (s.heap c).closed) := by
  rw [send_eq, modify_panicked]

theorem not_closed_of_accepts (h : s.accepts c = true) : (s.heap c).closed = false := by
  simp_all [accepts]

end Send

theorem routeMessage_eq_some {frame : Frame} {allowed : Bool} {pc : RoutePc}
    (h : routeMessage frame allowed = some pc) :
    (∃ e, pc = .reply e) ∨ (∃ a, pc = .block a) ∨ (∃ a, pc = .unblock a) ∨
      ∃ a, pc = .isBlocked a := by
  unfold routeMessage at h
  split at h
  · exact .inl ⟨_, (Option.some.inj h).symm⟩
  · split at h
    · simp at h
    · split at h
      · simp at h
      · split at h
        · exact .inr (.inl ⟨_, (Option.some.inj h).symm⟩)
        · simp at h
        · exact .inr (.inr (.inl ⟨_, (Option.some.inj h).symm⟩))
        · simp at h
        · split at h
          · simp at h
          · exact .inr (.inr (.inr ⟨_, (Option.some.inj h).symm⟩))

/-- The moves of a `RouteMessage` call of `sender` that change nothing else. -/
inductive RouteMove (s : Hub) (sender : String) : RoutePc → Option RoutePc → Prop
  | blocked {a : String} (h : s.blockStore.isBlocked a sender = true) :
      RouteMove s sender (.isBlocked a) none
  | unblocked {a : String} : RouteMove s sender (.isBlocked a) (some (.lookupClient a))
  | offline {a : String} (hl : s.locked = false) (h : s.clients a = none) :
      RouteMove s sender (.lookupClient a) (some (.enqueue a))
  | online {a : String} {r : ℕ} (hl : s.locked = false) (h : s.clients a = some r) :
      RouteMove s sender (.lookupClient a) (some (.isFlushing a r))
  | flushing {a : String} {r : ℕ} (h : (s.heap r).flushing = true) :
      RouteMove s sender (.isFlushing a r) (some (.enqueue a))
  | live {a : String} {r : ℕ} (h : (s.heap r).flushing = false) :
      RouteMove s sender (.isFlushing a r) (some (.deliver r))
  | full {a : String} : RouteMove s sender (.enqueue a) (some (.reply (queueFullEnvelope a)))
  | failed {a : String} : RouteMove s sender (.enqueue a) none

inductive FlushMove (s : Hub) (c : ℕ) (ok : Bool) : FlushPc → FlushPc → Prop
  | aborted (h : (s.heap c).cancelled = true) : FlushMove s c ok .checkCtx .clearing
  | connected (h : (s.heap c).cancelled = false) : FlushMove s c ok .checkCtx .flushBatch
  | failed (h : ok = false) : FlushMove s c ok .flushBatch .clearing
  | slept : FlushMove s c ok (.sending []) .checkCtx

/-- The steps of a hub that has not panicked. -/
inductive Step (s : Hub) : HubLabel → Hub → Prop
  | rejected {a : String} (hrun : s.run = .idle) : Step s (.register a) s
  | registered {a : String} (hrun : s.run = .idle) (ha : s.clients a = none) :
      Step s (.register a)
        ({ s with
          clients := Function.update s.clients a (some s.nextClient)
          nextClient := s.nextClient + 1
          run := .counting s.nextClient }.modify s.nextClient
            (fun _ => { address := a, cancelled := s.serverDone }))
  | uncounted {c : ℕ} {ok : Bool} (hrun : s.run = .counting c)
      (hcount : ok = true → s.mq.count (s.heap c).address = 0) :
      Step s (.run ok) { s with run := .idle }
  | counted {c n : ℕ} {ok : Bool} (hrun : s.run = .counting c) :
      Step s (.run ok) { s with run := .announcing c n }
  | announced {c n : ℕ} {ok : Bool} {env : Envelope} (hrun : s.run = .announcing c n) :
      Step s (.run ok) ({ s with run := .flagging c }.send c (.control env))
  | flagged {c : ℕ} {ok : Bool} (hrun : s.run = .flagging c) :
      Step s (.run ok)
        ({ s with run := .idle }.modify c
          (fun x => { x with flushing := true, flush := some .checkCtx }))
  | cancelled {c : ℕ} {shutdown ok : Bool} (hrun : s.run = .cancelling c shutdown) :
      Step s (.run ok)
        ({ s with run := if shutdown then .stopping else .idle }.modify c
          (fun x => { x with cancelled := true }))
  | unregistered {c : ℕ} (hrun : s.run = .idle) (hstage : (s.heap c).stage = .leaving)
      (htable : s.clients (s.heap c).address = some c) :
      Step s (.unregister c)
        ({ s with
          clients := Function.update s.clients (s.heap c).address none
          run := .cancelling c false }.modify c
            (fun x => { x with stage := .gone, closed := true }))
  | stale {c : ℕ} (hrun : s.run = .idle) (hstage : (s.heap c).stage = .leaving) :
      Step s (.unregister c) (s.modify c (fun x => { x with stage := .gone }))
  | signalled : Step s .signal { s with serverDone := true }
  | propagated {c : ℕ} (hc : c < s.nextClient) :
      Step s (.propagate c) (s.modify c (fun x => { x with cancelled := true }))
  | shutdownBegun (hrun : s.run = .idle) : Step s .beginShutdown { s with run := .stopping }
  | shutdownClosed {c : ℕ} (hrun : s.run = .stopping)
      (htable : s.clients (s.heap c).address = some c) :
      Step s (.closeNext c)
        ({ s with
          clients := Function.update s.clients (s.heap c).address none
          run := .cancelling c true }.modify c (fun x => { x with closed := true }))
  | stopped (hrun : s.run = .stopping) : Step s .stop { s with run := .stopped }
  | authenticated {c : ℕ} {ok : Bool} (hstage : (s.heap c).stage = .handshaking) :
      Step s (.authResult c ok)
        (s.modify c (fun x => { x with stage := if ok then .reading else .leaving, writing := ok }))
  | readFailed {c : ℕ} (hstage : (s.heap c).stage = .reading) (hroute : (s.heap c).route = none) :
      Step s (.readError c) (s.modify c (fun x => { x with stage := .leaving }))
  | called {c : ℕ} {frame : Frame} {allowed : Bool} (hstage : (s.heap c).stage = .reading)
      (hroute : (s.heap c).route = none) :
      Step s (.route c frame allowed)
        ({ s with nextCall := s.nextCall + 1 }.setRoute c
          ((routeMessage frame allowed).map (⟨⟨frame, s.nextCall⟩, ·⟩)))
  | routed {c : ℕ} {now : Int64} {ok : Bool} {call : RouteCall} {p : Option RoutePc}
      (hroute : (s.heap c).route = some call)
      (hmove : RouteMove s (s.heap c).address call.pc p) :
      Step s (.routeStep c now ok) (s.setRoute c (p.map fun pc => { call with pc := pc }))
  | replied {c : ℕ} {now : Int64} {ok : Bool} {parcel : Parcel} {env : Envelope}
      (hroute : (s.heap c).route = some ⟨parcel, .reply env⟩) :
      Step s (.routeStep c now ok) ((s.send c (.control env)).setRoute c none)
  | blockChanged {c : ℕ} {now : Int64} {ok : Bool} {call : RouteCall} {store : BlockStore}
      (hroute : (s.heap c).route = some call) :
      Step s (.routeStep c now ok) ({ s with blockStore := store }.setRoute c none)
  | enqueued {c : ℕ} {now : Int64} {parcel : Parcel} {a : String} {mq : MessageQueue Parcel}
      (hroute : (s.heap c).route = some ⟨parcel, .enqueue a⟩)
      (hmq : s.mq.enqueue a (s.heap c).address parcel now = .ok mq) :
      Step s (.routeStep c now true) ({ s with mq := mq, clock := now }.setRoute c none)
  | delivered {c r : ℕ} {now : Int64} {ok : Bool} {parcel : Parcel}
      (hroute : (s.heap c).route = some ⟨parcel, .deliver r⟩) :
      Step s (.routeStep c now ok)
        ((s.send r (.direct (s.heap c).address parcel)).setRoute c none)
  | flushMoved {c : ℕ} {now : Int64} {ok : Bool} {pc pc' : FlushPc}
      (hflush : (s.heap c).flush = some pc) (hmove : FlushMove s c ok pc pc') :
      Step s (.flushStep c now ok) (s.setFlush c pc')
  | drained {c : ℕ} {now : Int64} (hflush : (s.heap c).flush = some .flushBatch)
      (hnil : s.mq.flushBatch (s.heap c).address flushBatchSize now = []) :
      Step s (.flushStep c now true) ({ s with clock := now }.setFlush c .clearing)
  | batched {c : ℕ} {now : Int64} (hflush : (s.heap c).flush = some .flushBatch) :
      Step s (.flushStep c now true)
        ({ s with clock := now }.setFlush c
          (.sending (s.mq.flushBatch (s.heap c).address flushBatchSize now)))
  | flushSent {c : ℕ} {now : Int64} {ok : Bool} {e : QueueEntry Parcel}
      {rest : List (QueueEntry Parcel)} (hflush : (s.heap c).flush = some (.sending (e :: rest))) :
      Step s (.flushStep c now ok)
        ((s.send c (.queued e.key e.senderAddr e.envelope)).setFlush c (.removing e rest))
  | flushRemoved {c : ℕ} {now : Int64} {ok : Bool} {e : QueueEntry Parcel}
      {rest : List (QueueEntry Parcel)} (hflush : (s.heap c).flush = some (.removing e rest)) :
      Step s (.flushStep c now ok)
        ({ s with mq := if ok then s.mq.remove (s.heap c).address e.key else s.mq }.setFlush c
          (.sending rest))
  | flushed {c : ℕ} {now : Int64} {ok : Bool} (hflush : (s.heap c).flush = some .clearing) :
      Step s (.flushStep c now ok)
        (s.modify c (fun x => { x with flushing := false, flush := none }))
  | written {c : ℕ} : Step s (.write c) (s.modify c (fun x => { x with send := x.send.tail }))
  | swept {now : Int64} : Step s (.sweep now) { s with mq := (s.mq.sweep now).2, clock := now }

/-- What one step does to the flush of client `c`. -/
inductive FlushView (s : Hub) (label : HubLabel) (t : Hub) (c : ℕ) : Prop
  | same (hflush : (t.heap c).flush = (s.heap c).flush)
      (haddr : (t.heap c).address = (s.heap c).address) : FlushView s label t c
  | fresh (hc : c = s.nextClient) (hflush : (t.heap c).flush = none) : FlushView s label t c
  | begun (hrun : s.run = .flagging c) (hflush : (t.heap c).flush = some .checkCtx)
      (haddr : (t.heap c).address = (s.heap c).address) : FlushView s label t c
  | moved {now : Int64} {ok : Bool} {pc pc' : FlushPc} (hl : label = .flushStep c now ok)
      (hold : (s.heap c).flush = some pc) (hmove : FlushMove s c ok pc pc')
      (ht : t = s.setFlush c pc') : FlushView s label t c
  | drained {now : Int64} (hl : label = .flushStep c now true)
      (hold : (s.heap c).flush = some .flushBatch)
      (hnil : s.mq.flushBatch (s.heap c).address flushBatchSize now = [])
      (ht : t = { s with clock := now }.setFlush c .clearing) : FlushView s label t c
  | batched {now : Int64} (hl : label = .flushStep c now true)
      (hold : (s.heap c).flush = some .flushBatch)
      (ht : t = { s with clock := now }.setFlush c
        (.sending (s.mq.flushBatch (s.heap c).address flushBatchSize now))) : FlushView s label t c
  | sent {now : Int64} {ok : Bool} {e : QueueEntry Parcel} {rest : List (QueueEntry Parcel)}
      (hl : label = .flushStep c now ok) (hold : (s.heap c).flush = some (.sending (e :: rest)))
      (ht : t = (s.send c (.queued e.key e.senderAddr e.envelope)).setFlush c (.removing e rest)) :
      FlushView s label t c
  | removed {now : Int64} {ok : Bool} {e : QueueEntry Parcel} {rest : List (QueueEntry Parcel)}
      (hl : label = .flushStep c now ok) (hold : (s.heap c).flush = some (.removing e rest))
      (ht : t =
        { s with mq := if ok then s.mq.remove (s.heap c).address e.key else s.mq }.setFlush c
          (.sending rest)) : FlushView s label t c
  | finished {now : Int64} {ok : Bool} (hl : label = .flushStep c now ok)
      (hold : (s.heap c).flush = some .clearing) (hflush : (t.heap c).flush = none)
      (haddr : (t.heap c).address = (s.heap c).address) : FlushView s label t c

theorem Step.flushView (hs : Step s label t) (c : ℕ) : FlushView s label t c := by
  cases hs with
  | registered hrun ha =>
    by_cases hc : c = s.nextClient
    · exact .fresh hc (by simp [hc])
    · exact .same (by simp [heap_modify_of_ne hc]) (by simp [heap_modify_of_ne hc])
  | flagged hrun =>
    rename_i d _
    by_cases hc : c = d
    · exact .begun (by rw [hc, hrun]) (by simp [hc]) (by simp)
    · exact .same (by simp [heap_modify_of_ne hc]) (by simp)
  | flushMoved hflush hmove =>
    rename_i d _ _ _ _
    by_cases hc : c = d
    · subst hc
      exact .moved rfl hflush hmove rfl
    · exact .same (by simp [heap_modify_of_ne hc]) (by simp)
  | drained hflush hnil =>
    rename_i d _
    by_cases hc : c = d
    · subst hc
      exact .drained rfl hflush hnil rfl
    · exact .same (by simp [heap_modify_of_ne hc]) (by simp)
  | batched hflush =>
    rename_i d _
    by_cases hc : c = d
    · subst hc
      exact .batched rfl hflush rfl
    · exact .same (by simp [heap_modify_of_ne hc]) (by simp)
  | flushSent hflush =>
    rename_i d _ _ _ _
    by_cases hc : c = d
    · subst hc
      exact .sent rfl hflush rfl
    · exact .same (by simp [heap_modify_of_ne hc]) (by simp)
  | flushRemoved hflush =>
    rename_i d _ _ _ _
    by_cases hc : c = d
    · subst hc
      exact .removed rfl hflush rfl
    · exact .same (by simp [heap_modify_of_ne hc]) (by simp)
  | flushed hflush =>
    rename_i d _ _
    by_cases hc : c = d
    · subst hc
      exact .finished rfl hflush (by simp) (by simp)
    · exact .same (by simp [heap_modify_of_ne hc]) (by simp)
  | _ => exact .same (by simp) (by simp)

inductive RouteView (s : Hub) (label : HubLabel) (t : Hub) (c : ℕ) : Prop
  | same (hroute : (t.heap c).route = (s.heap c).route)
      (haddr : (t.heap c).address = (s.heap c).address) : RouteView s label t c
  | fresh (hc : c = s.nextClient) (hroute : (t.heap c).route = none) : RouteView s label t c
  | called {frame : Frame} {allowed : Bool} (hl : label = .route c frame allowed)
      (hold : (s.heap c).route = none)
      (ht : t = { s with nextCall := s.nextCall + 1 }.setRoute c
        ((routeMessage frame allowed).map (⟨⟨frame, s.nextCall⟩, ·⟩))) : RouteView s label t c
  | moved {now : Int64} {ok : Bool} {call : RouteCall} {p : Option RoutePc}
      (hl : label = .routeStep c now ok) (hold : (s.heap c).route = some call)
      (hmove : RouteMove s (s.heap c).address call.pc p)
      (ht : t = s.setRoute c (p.map fun pc => { call with pc := pc })) : RouteView s label t c
  | ended {now : Int64} {ok : Bool} (hl : label = .routeStep c now ok)
      (hroute : (t.heap c).route = none) : RouteView s label t c

theorem Step.routeView (hs : Step s label t) (c : ℕ) : RouteView s label t c := by
  cases hs with
  | registered hrun ha =>
    by_cases hc : c = s.nextClient
    · exact .fresh hc (by simp [hc])
    · exact .same (by simp [heap_modify_of_ne hc]) (by simp [heap_modify_of_ne hc])
  | called hstage hroute =>
    rename_i d _ _
    by_cases hc : c = d
    · subst hc
      exact .called rfl hroute rfl
    · exact .same (by simp [heap_modify_of_ne hc]) (by simp)
  | routed hroute hmove =>
    rename_i d _ _ _ _
    by_cases hc : c = d
    · subst hc
      exact .moved rfl hroute hmove rfl
    · exact .same (by simp [heap_modify_of_ne hc]) (by simp)
  | replied hroute | blockChanged hroute | delivered hroute =>
    rename_i d _ _ _ _
    by_cases hc : c = d
    · subst hc
      exact .ended rfl (by simp)
    · exact .same (by simp [heap_modify_of_ne hc]) (by simp)
  | enqueued hroute hmq =>
    rename_i d _ _ _ _
    by_cases hc : c = d
    · subst hc
      exact .ended rfl (by simp)
    · exact .same (by simp [heap_modify_of_ne hc]) (by simp)
  | _ => exact .same (by simp) (by simp)

theorem Step.recipient_before (hs : Step s label t) (h : (t.heap c).recipient = some r) :
    (s.heap c).recipient = some r ∨ ∃ now ok a, label = .routeStep c now ok ∧
      s.clients a = some r ∧ (t.heap r).closed = (s.heap r).closed := by
  cases hs.routeView c with
  | same hroute haddr => exact .inl (by rwa [Client.recipient, hroute] at h)
  | fresh hc hroute | ended hl hroute => simp [Client.recipient, hroute] at h
  | called hl hold ht =>
    rename_i frame allowed
    obtain ⟨call, hcall, hrec⟩ := Option.bind_eq_some_iff.mp h
    obtain ⟨pc, hpc, rfl⟩ : ∃ pc, routeMessage frame allowed = some pc ∧
        RouteCall.mk ⟨frame, s.nextCall⟩ pc = call := by simpa [ht] using hcall
    rcases routeMessage_eq_some hpc with ⟨_, rfl⟩ | ⟨_, rfl⟩ | ⟨_, rfl⟩ | ⟨_, rfl⟩ <;>
      simp [RoutePc.recipient] at hrec
  | moved hl hold hmove ht =>
    rename_i call p
    obtain ⟨parcel, pc⟩ := call
    subst ht
    cases hmove with
    | online hlock htable =>
      obtain rfl : _ = r := by simpa [Client.recipient, RoutePc.recipient] using h
      exact .inr ⟨_, _, _, hl, htable, by simp⟩
    | live hflag =>
      obtain rfl : _ = r := by simpa [Client.recipient, RoutePc.recipient] using h
      exact .inl (by simp [Client.recipient, RoutePc.recipient, hold])
    | _ => simp [Client.recipient, RoutePc.recipient] at h

theorem Step.of_runStep {ok : Bool} (h : s.runStep ok = some t) : Step s (.run ok) t := by
  unfold runStep at h
  split at h
  · rename_i c hrun
    obtain rfl := Option.some.inj h
    by_cases hcount : 0 < if ok then s.mq.count (s.heap c).address else 0
    · simp only [hcount, if_true]
      exact .counted hrun
    · simp only [hcount, if_false]
      refine .uncounted hrun ?_
      rintro rfl
      simpa using hcount
  · rename_i c n hrun
    obtain rfl := Option.some.inj h
    exact .announced hrun
  · rename_i c hrun
    obtain rfl := Option.some.inj h
    exact .flagged hrun
  · rename_i c shutdown hrun
    obtain rfl := Option.some.inj h
    exact .cancelled hrun
  · simp at h

theorem Step.of_routeStep {now : Int64} {ok : Bool} (h : s.routeStep c now ok = some t) :
    Step s (.routeStep c now ok) t := by
  unfold routeStep at h
  obtain ⟨⟨parcel, pc⟩, hroute, h⟩ := Option.bind_eq_some_iff.mp h
  cases pc with
  | reply env =>
    obtain rfl := Option.some.inj h
    exact .replied hroute
  | block a =>
    obtain rfl := Option.some.inj h
    exact .blockChanged hroute
  | unblock a =>
    obtain rfl := Option.some.inj h
    exact .blockChanged hroute
  | isBlocked a =>
    obtain rfl := Option.some.inj h
    by_cases hblocked : (ok && s.blockStore.isBlocked a (s.heap c).address) = true
    · simp only [hblocked, if_true]
      exact .routed (p := none) hroute (.blocked (Bool.and_eq_true_iff.mp hblocked).2)
    · simp only [hblocked]
      exact .routed (p := some _) hroute .unblocked
  | lookupClient a =>
    dsimp only [Hub.lookupClient] at h
    split at h
    · simp at h
    · rename_i hl
      split at h
      · rename_i hnone
        obtain rfl := Option.some.inj h
        exact .routed (p := some _) hroute (.offline (by simpa using hl) hnone)
      · rename_i r hsome
        obtain rfl := Option.some.inj h
        exact .routed (p := some _) hroute (.online (by simpa using hl) hsome)
  | isFlushing a r =>
    obtain rfl := Option.some.inj h
    cases hf : (s.heap r).flushing with
    | true => exact .routed (p := some _) hroute (.flushing hf)
    | false => exact .routed (p := some _) hroute (.live hf)
  | enqueue a =>
    cases ok with
    | false =>
      obtain rfl := Option.some.inj h
      exact .routed (p := none) hroute .failed
    | true =>
      dsimp only [if_true] at h
      cases hmq : s.mq.enqueue a (s.heap c).address parcel now with
      | error err =>
        simp only [hmq] at h
        obtain rfl := Option.some.inj h
        exact .routed (p := some _) hroute .full
      | ok mq =>
        simp only [hmq] at h
        obtain rfl := Option.some.inj h
        exact .enqueued hroute hmq
  | deliver r =>
    obtain rfl := Option.some.inj h
    exact .delivered hroute

theorem Step.of_flush {now : Int64} {ok : Bool} (h : s.flushQueuedMessages c now ok = some t) :
    Step s (.flushStep c now ok) t := by
  unfold flushQueuedMessages at h
  obtain ⟨pc, hflush, h⟩ := Option.bind_eq_some_iff.mp h
  cases pc with
  | checkCtx =>
    obtain rfl := Option.some.inj h
    cases hc : (s.heap c).cancelled with
    | true => exact .flushMoved hflush (.aborted hc)
    | false => exact .flushMoved hflush (.connected hc)
  | flushBatch =>
    cases ok with
    | false =>
      obtain rfl := Option.some.inj h
      exact .flushMoved hflush (.failed rfl)
    | true =>
      obtain rfl := Option.some.inj h
      by_cases hnil : s.mq.flushBatch (s.heap c).address flushBatchSize now = []
      · simp only [hnil, if_true]
        exact .drained hflush hnil
      · simp only [hnil, if_false]
        exact .batched hflush
  | sending entries =>
    cases entries with
    | nil =>
      obtain rfl := Option.some.inj h
      exact .flushMoved hflush .slept
    | cons e rest =>
      obtain rfl := Option.some.inj h
      exact .flushSent hflush
  | removing e rest =>
    obtain rfl := Option.some.inj h
    exact .flushRemoved hflush
  | clearing =>
    obtain rfl := Option.some.inj h
    exact .flushed hflush

theorem Step.of_step (h : s.step label = some t) : s.panicked = false ∧ Step s label t := by
  unfold step at h
  split at h
  · simp at h
  · rename_i hp
    refine ⟨by simpa using hp, ?_⟩
    cases label with
    | run ok => exact .of_runStep h
    | routeStep c now ok => exact .of_routeStep h
    | flushStep c now ok => exact .of_flush h
    | signal =>
      obtain rfl := Option.some.inj h
      exact .signalled
    | sweep now =>
      obtain rfl := Option.some.inj h
      exact .swept
    | register a =>
      obtain ⟨hrun, h⟩ := Option.ite_none_right_eq_some.mp h
      obtain rfl := Option.some.inj h
      cases ha : s.clients a with
      | none => simpa only [register, ha] using Step.registered hrun ha
      | some c => simpa only [register, ha] using Step.rejected hrun
    | unregister c =>
      obtain ⟨⟨hrun, hstage⟩, h⟩ := Option.ite_none_right_eq_some.mp h
      obtain rfl := Option.some.inj h
      by_cases htable : s.clients (s.heap c).address = some c
      · have hstep := Step.unregistered hrun hstage htable
        simpa [unregister, close, modify, htable] using hstep
      · simpa only [unregister, htable, if_false] using Step.stale hrun hstage
    | propagate c =>
      obtain ⟨⟨-, hc⟩, h⟩ := Option.ite_none_right_eq_some.mp h
      obtain rfl := Option.some.inj h
      exact .propagated hc
    | beginShutdown =>
      obtain ⟨⟨-, hrun⟩, h⟩ := Option.ite_none_right_eq_some.mp h
      obtain rfl := Option.some.inj h
      exact .shutdownBegun hrun
    | closeNext c =>
      obtain ⟨⟨hrun, htable⟩, h⟩ := Option.ite_none_right_eq_some.mp h
      obtain rfl := Option.some.inj h
      exact .shutdownClosed hrun htable
    | stop =>
      obtain ⟨⟨hrun, -⟩, h⟩ := Option.ite_none_right_eq_some.mp h
      obtain rfl := Option.some.inj h
      exact .stopped hrun
    | authResult c ok =>
      obtain ⟨hstage, h⟩ := Option.ite_none_right_eq_some.mp h
      obtain rfl := Option.some.inj h
      exact .authenticated hstage
    | readError c =>
      obtain ⟨⟨hstage, hroute⟩, h⟩ := Option.ite_none_right_eq_some.mp h
      obtain rfl := Option.some.inj h
      exact .readFailed hstage hroute
    | route c frame allowed =>
      obtain ⟨⟨hstage, hroute⟩, h⟩ := Option.ite_none_right_eq_some.mp h
      obtain rfl := Option.some.inj h
      exact .called hstage hroute
    | write c =>
      obtain ⟨-, h⟩ := Option.ite_none_right_eq_some.mp h
      obtain rfl := Option.some.inj h
      exact .written

end Hub

end Pinch
