import Pinch.QueueOrder

/-! The order in which one session of a recipient gets the messages of one sender. A new
client is in the table before its flag is set, and a message that arrives in between
overtakes the messages that are queued for it. -/

namespace Pinch

def Placement.callTo (c : ℕ) (a : String) (p : Placement) : Option ℕ :=
  if p.client = c then p.item.callOf a else none

def Client.removingKey (x : Client) : Option QueueKey :=
  match x.flush with
  | some (.removing e _) => some e.key
  | _ => none

namespace Hub

open Transition

variable {s t : Hub} {label : HubLabel} {a : String} {c d n r : ℕ} {e : QueueEntry Parcel}

/-- The calls of `a` whose messages were placed in the channel of client `c`, in the order
of their placement. -/
def session (s : Hub) (c : ℕ) (a : String) : List ℕ :=
  s.placed.filterMap (Placement.callTo c a)

/-- No call sends past queued messages of its own address to a client that is still being
registered, and removals succeed. -/
def waitsForFlush (s : Hub) : HubLabel → Bool
  | .routeStep d _ _ =>
    match (s.heap d).route with
    | some ⟨_, .isFlushing _ r⟩ => s.run.registering ≠ some r ||
        (s.mq.waiting (s.heap r).address s.clock).all fun e => e.senderAddr ≠ (s.heap d).address
    | _ => true
  | .flushStep c _ ok => (s.heap c).removingKey.isNone || ok
  | _ => true

def keepsOrder (s : Hub) (label : HubLabel) : Bool := s.clockForward label && s.waitsForFlush label

/-- The entry is left for the flush of client `c` to send. -/
def Due (s : Hub) (c : ℕ) (e : QueueEntry Parcel) : Prop :=
  e ∈ (s.heap c).unsent ∨
    (e ∈ s.mq.waiting (s.heap c).address s.clock ∧ (s.heap c).removingKey ≠ some e.key)

theorem Due.queued (h : Due s c e) : Queued s (s.heap c).address e := by
  rcases h with hun | ⟨hwait, -⟩
  · exact .inr ⟨c, rfl, hun⟩
  · obtain ⟨msg, hmem, -, he⟩ := MessageQueue.mem_waiting.mp hwait
    exact .inl ⟨msg, hmem, he⟩

theorem carries_of_mem_session (h : n ∈ s.session c a) : Carries s a n := by
  obtain ⟨p, hp, hcall⟩ := List.mem_filterMap.mp h
  exact .inr ⟨p, hp, (Option.ite_none_right_eq_some.mp hcall).2⟩

inductive Hands (s t : Hub) (c : ℕ) (a : String) : ℕ → Prop
  | direct {d : ℕ} {parcel : Parcel} (hroute : (s.heap d).route = some ⟨parcel, .deliver c⟩)
      (ha : (s.heap d).address = a) : Hands s t c a parcel.call
  | queued {e : QueueEntry Parcel} {rest : List (QueueEntry Parcel)}
      (hold : (s.heap c).flush = some (.sending (e :: rest)))
      (hnew : (t.heap c).flush = some (.removing e rest)) (ha : e.senderAddr = a) :
      Hands s t c a e.envelope.call

theorem Places.hands {p : Placement} (h : Places s label t p) (hn : p.item.callOf a = some n) :
    Hands s t p.client a n := by
  cases h with
  | control hacc => simp [Item.callOf] at hn
  | direct hl hacc hroute ht =>
    obtain ⟨ha, hn⟩ := Option.ite_none_right_eq_some.mp hn
    obtain rfl := Option.some.inj hn
    exact .direct hroute ha
  | queued hl hacc hflush ht =>
    obtain ⟨ha, hn⟩ := Option.ite_none_right_eq_some.mp hn
    obtain rfl := Option.some.inj hn
    exact .queued hflush (by simp [ht]) ha

theorem Step.session_cases (hs : Step s label t) (c : ℕ) (a : String) :
    t.session c a = s.session c a ∨
      ∃ n, t.session c a = s.session c a ++ [n] ∧ Hands s t c a n := by
  rcases hs.placed_cases with heq | ⟨p, heq, hp⟩
  · exact .inl (by rw [session, heq, session])
  · have happ : t.session c a = s.session c a ++ [p].filterMap (Placement.callTo c a) := by
      rw [session, heq, List.filterMap_append, session]
    cases hcall : p.callTo c a with
    | none => exact .inl (by simpa [hcall] using happ)
    | some n =>
      refine .inr ⟨n, by simpa [hcall] using happ, ?_⟩
      obtain ⟨rfl, hn⟩ := Option.ite_none_right_eq_some.mp hcall
      exact hp.hands hn

theorem Step.due_before (hs : Step s label t) (htidy : Tidy s) (hdated : Dated s)
    (hok : s.keepsOrder label = true) (hc : c < s.nextClient) (h : Due t c e) :
    Due s c e ∨ ∃ d now, Enqueues s label t d now (s.heap c).address e := by
  obtain ⟨hclock, hwaits⟩ := Bool.and_eq_true_iff.mp hok
  rcases h with hun | ⟨hwait, hkey⟩
  · rcases hs.unsent c with hnil | ⟨hsub, -⟩ | ⟨now, rfl, hflush, rfl⟩
    · simp [hnil] at hun
    · exact .inl (.inl (hsub.subset hun))
    · have hin : e ∈ s.mq.flushBatch (s.heap c).address flushBatchSize now := by
        simpa [Client.unsent, FlushPc.unsent] using hun
      have hwait := MessageQueue.mem_waiting_of_mem_flushBatch hin
      refine (hs.waiting_before hclock hdated hwait).imp_left fun hold => .inr ⟨hold, ?_⟩
      simp [Client.removingKey, hflush]
  · rw [hs.address_eq hc] at hwait
    refine (hs.waiting_before hclock hdated hwait).imp_left fun hold => .inr ⟨hold, ?_⟩
    intro hrem
    unfold Client.removingKey at hrem
    split at hrem
    · rename_i e' rest hflush
      have hkey' : e'.key = e.key := Option.some.inj hrem
      rcases hs.removing htidy hflush with ⟨hsame, -⟩ | ⟨now, ok, rfl, hmq⟩
      · exact hkey (by simp [Client.removingKey, hsame, hkey'])
      · obtain rfl : ok = true := by
          simpa [waitsForFlush, Client.removingKey, hflush] using hwaits
        obtain ⟨msg, hmem, -⟩ := MessageQueue.mem_waiting.mp hwait
        simp [hmq, hkey'] at hmem
    · simp at hrem

theorem Step.of_deliver (hs : Step s label t) {parcel : Parcel}
    (h : (t.heap d).route = some ⟨parcel, .deliver r⟩) :
    ((s.heap d).route = some ⟨parcel, .deliver r⟩ ∧ (t.heap d).address = (s.heap d).address) ∨
      ∃ now ok a, label = .routeStep d now ok ∧
        (s.heap d).route = some ⟨parcel, .isFlushing a r⟩ ∧ (s.heap r).flushing = false ∧
        (t.heap d).address = (s.heap d).address := by
  cases hs.routeView d with
  | same hroute haddr => exact .inl ⟨hroute ▸ h, haddr⟩
  | fresh hc hroute | ended hl hroute => simp [hroute] at h
  | called hl hold ht =>
    obtain ⟨hpc, -⟩ : routeMessage _ _ = some (.deliver r) ∧ _ := by simpa [ht] using h
    rcases routeMessage_eq_some hpc with ⟨_, hbad⟩ | ⟨_, hbad⟩ | ⟨_, hbad⟩ | ⟨_, hbad⟩ <;>
      simp at hbad
  | moved hl hold hmove ht =>
    rename_i call p
    obtain ⟨parcel', pc⟩ := call
    subst ht
    cases hmove with
    | live hflag =>
      obtain ⟨rfl, rfl⟩ : parcel' = parcel ∧ _ = r := by simpa using h
      exact .inr ⟨_, _, _, hl, hold, hflag, by simp⟩
    | _ => simp at h

structure Ordered (s : Hub) : Prop where
  placed : ∀ p ∈ s.placed, p.client < s.nextClient
  recipient : ∀ d r, (s.heap d).recipient = some r → r < s.nextClient
  sorted : ∀ c, (s.heap c).unsent.Pairwise (fun e e' => e.key < e'.key)
  front : ∀ c e e', e ∈ (s.heap c).unsent → Due s c e' → e'.key < e.key → e' ∈ (s.heap c).unsent
  clear : ∀ d r parcel, (s.heap d).route = some ⟨parcel, .deliver r⟩ → s.attended r = true →
    ∀ e, Due s r e → e.senderAddr ≠ (s.heap d).address
  ahead : ∀ c a, s.attended c = true → ∀ n ∈ s.session c a, ∀ e, Due s c e → e.senderAddr = a →
    n < e.envelope.call
  session : ∀ c a, (s.session c a).Pairwise (· < ·)

theorem Ordered.start (mq : MessageQueue Parcel) (blockStore : BlockStore) :
    Ordered (start mq blockStore) := by
  constructor <;> simp [Hub.start, Hub.session, Client.unsent, Client.recipient]

/-- The entry that a flush sends is older than every entry that is still due after it. -/
theorem Ordered.sent_lt (h : Ordered s) {e₀ : QueueEntry Parcel} {rest : List (QueueEntry Parcel)}
    (hflush : (s.heap c).flush = some (.sending (e₀ :: rest)))
    (hnew : (t.heap c).flush = some (.removing e₀ rest)) (hold : Due s c e) (hdue : Due t c e) :
    e₀.key < e.key := by
  have hall : (s.heap c).unsent = e₀ :: rest := by simp [hflush, Client.unsent, FlushPc.unsent]
  have hsorted := h.sorted c
  rw [hall, List.pairwise_cons] at hsorted
  rcases hdue with hun | ⟨-, hkey⟩
  · exact hsorted.1 e (by simpa [hnew, Client.unsent, FlushPc.unsent] using hun)
  · have hne : e₀.key ≠ e.key := by simpa [hnew, Client.removingKey] using hkey
    by_contra hle
    have hin := h.front c e₀ e (by simp [hall]) hold (lt_of_le_of_ne (not_lt.mp hle) hne.symm)
    rw [hall, List.mem_cons] at hin
    rcases hin with rfl | hrest
    · exact hne rfl
    · exact hle (hsorted.1 e hrest)

namespace Step

theorem placed_born (hs : Step s label t) (htidy : Tidy s) (h : Ordered s) :
    ∀ p ∈ t.placed, p.client < s.nextClient := by
  intro p hp
  rcases hs.placed_cases with heq | ⟨q, heq, hq⟩
  · exact h.placed p (heq ▸ hp)
  · rw [heq, List.mem_append, List.mem_singleton] at hp
    rcases hp with hp | rfl
    · exact h.placed p hp
    · exact hq.born htidy

theorem recipient_born (hs : Step s label t) (htidy : Tidy s) (h : Ordered s) :
    ∀ d r, (t.heap d).recipient = some r → r < s.nextClient := by
  intro d r hr
  rcases hs.recipient_before hr with hold | ⟨-, -, a, -, htable, -⟩
  · exact h.recipient d r hold
  · exact htidy.born a r htable

theorem front (hs : Step s label t) (htidy : Tidy s) (hdated : Dated s) (hchron : Chronological s)
    (hok : s.keepsOrder label = true) (h : Ordered s) : ∀ c e e', e ∈ (t.heap c).unsent →
      Due t c e' → e'.key < e.key → e' ∈ (t.heap c).unsent := by
  intro c e e' he hdue hlt
  have hborn : c < s.nextClient := by
    rcases hs.unsent c with hnil | ⟨hsub, -⟩ | ⟨now, -, hflush, -⟩
    · simp [hnil] at he
    · refine htidy.born_flush c fun hnone => ?_
      have hin := hsub.subset he
      simp [Client.unsent, hnone] at hin
    · exact htidy.born_flush c (by simp [hflush])
  rcases hdue with hun | ⟨hwait, hkey⟩
  · exact hun
  rcases hs.due_before htidy hdated hok hborn (.inr ⟨hwait, hkey⟩) with hdue | ⟨d, now, henq⟩
  · cases hs.flushView c with
    | same hflush haddr =>
      have hsame : (t.heap c).unsent = (s.heap c).unsent := by
        rw [Client.unsent, hflush, Client.unsent]
      rw [hsame] at he ⊢
      exact h.front c e e' he hdue hlt
    | sent hl hold ht =>
      rename_i now ok e₀ rest
      have hrest : (t.heap c).unsent = rest := by simp [ht, Client.unsent, FlushPc.unsent]
      have hall : (s.heap c).unsent = e₀ :: rest := by simp [hold, Client.unsent, FlushPc.unsent]
      have hin := h.front c e e' (by rw [hall]; exact List.mem_cons_of_mem _ (hrest ▸ he)) hdue hlt
      have hne : e' ≠ e₀ := by
        rintro rfl
        simp [ht, Client.removingKey] at hkey
      rw [hall, List.mem_cons] at hin
      exact hrest ▸ hin.resolve_left hne
    | removed hl hold ht =>
      have hsame : (t.heap c).unsent = (s.heap c).unsent := by
        simp [ht, hold, Client.unsent, FlushPc.unsent]
      rw [hsame] at he ⊢
      exact h.front c e e' he hdue hlt
    | batched hl hold ht =>
      subst ht
      simp only [setFlush, Client.unsent, FlushPc.unsent, heap_modify_self, Option.map_some,
        Option.getD_some] at he ⊢
      exact MessageQueue.mem_flushBatch_of_lt (by simpa using hwait) he hlt
    | fresh hc hflush | begun hrun hflush haddr | finished hl hold hflush haddr =>
      simp [Client.unsent, FlushPc.unsent, hflush] at he
    | moved hl hold hmove ht => cases hmove <;> simp [ht, Client.unsent, FlushPc.unsent] at he
    | drained hl hold hnil ht => simp [ht, Client.unsent, FlushPc.unsent] at he
  · rcases hs.unsent c with hnil | ⟨hsub, -⟩ | ⟨now', hl, -, -⟩
    · simp [hnil] at he
    · have hkeys := hchron.stamped _ e (.inr ⟨c, rfl, hsub.subset he⟩)
      exact absurd hlt (henq.key_lt (Bool.and_eq_true_iff.mp hok).1 hkeys).not_gt
    · exact absurd (hl.symm.trans henq.label) (by simp)

theorem clear (hs : Step s label t) (htidy : Tidy s) (hdated : Dated s)
    (hok : s.keepsOrder label = true) (h : Ordered s) :
    ∀ d r parcel, (t.heap d).route = some ⟨parcel, .deliver r⟩ → t.attended r = true →
      ∀ e, Due t r e → e.senderAddr ≠ (t.heap d).address := by
  intro d r parcel hroute hatt e hdue hsender
  have hrec : (t.heap d).recipient = some r := by
    simp [Client.recipient, hroute, RoutePc.recipient]
  have hborn := hs.recipient_born htidy h d r hrec
  have hatt' := hs.attended_before hborn hatt
  have hdue' := hs.due_before htidy hdated hok hborn hdue
  rcases hs.of_deliver hroute with ⟨hold, haddr⟩ | ⟨now, ok, a, rfl, hold, hflag, haddr⟩
  · rw [haddr] at hsender
    rcases hdue' with hdue | ⟨d', now, henq⟩
    · exact h.clear d r parcel hold hatt' e hdue hsender
    · obtain rfl := htidy.route_unique (by simp [henq.route]) (by simp [hold])
        (henq.sender.symm.trans hsender)
      exact absurd (henq.route.symm.trans hold) (by simp)
  · rcases hdue' with hdue | ⟨d', now', henq⟩
    · -- the flag is not set, so it is `Run` that will still start a flush
      have hnone : (s.heap r).flush = none := by simpa [(htidy.settled r).flag] using hflag
      have hreg : s.run.registering = some r := by
        simpa [attended, Client.draining, hnone] using hatt'
      have hpast : ∀ e ∈ s.mq.waiting (s.heap r).address s.clock,
          e.senderAddr ≠ (s.heap d).address := by
        simpa [waitsForFlush, hold, hreg] using (Bool.and_eq_true_iff.mp hok).2
      rcases hdue with hun | ⟨hwait, -⟩
      · simp [Client.unsent, hnone] at hun
      · exact hpast e hwait (hsender.trans haddr)
    · obtain ⟨rfl, -⟩ : d = d' ∧ _ := by simpa using henq.label
      exact absurd (henq.route.symm.trans hold) (by simp)

theorem ahead (hs : Step s label t) (htidy : Tidy s) (hdated : Dated s) (hchron : Chronological s)
    (hok : s.keepsOrder label = true) (h : Ordered s) : ∀ c a, t.attended c = true →
      ∀ n ∈ t.session c a, ∀ e, Due t c e → e.senderAddr = a → n < e.envelope.call := by
  intro c a hatt n hn e hdue hsender
  have hborn : c < s.nextClient := by
    obtain ⟨p, hp, hcall⟩ := List.mem_filterMap.mp hn
    obtain ⟨rfl, -⟩ := Option.ite_none_right_eq_some.mp hcall
    exact hs.placed_born htidy h p hp
  have hatt' := hs.attended_before hborn hatt
  rcases hs.due_before htidy hdated hok hborn hdue with hold | ⟨d, now, henq⟩
  · rcases hs.session_cases c a with heq | ⟨m, heq, hm⟩
    · exact h.ahead c a hatt' n (heq ▸ hn) e hold hsender
    · rw [heq, List.mem_append, List.mem_singleton] at hn
      rcases hn with hn | rfl
      · exact h.ahead c a hatt' n hn e hold hsender
      · cases hm with
        | direct hroute ha =>
          exact absurd (hsender.trans ha.symm) (h.clear _ c _ hroute hatt' e hold)
        | queued hflush hnew ha =>
          rename_i e₀ rest
          have hin : e₀ ∈ (s.heap c).unsent := by simp [hflush, Client.unsent, FlushPc.unsent]
          exact hchron.ordered _ e₀ e (.inr ⟨c, rfl, hin⟩) hold.queued (ha.trans hsender.symm)
            (h.sent_lt hflush hnew hold hdue)
  · rw [session, henq.placed, ← session] at hn
    refine hchron.latest d _ henq.route n ?_
    rw [← henq.sender, hsender]
    exact carries_of_mem_session hn

theorem session_sorted (hs : Step s label t) (hchron : Chronological s) (h : Ordered s) :
    ∀ c a, (t.session c a).Pairwise (· < ·) := by
  intro c a
  rcases hs.session_cases c a with heq | ⟨n, heq, hn⟩
  · rw [heq]
    exact h.session c a
  · rw [heq, List.pairwise_append]
    refine ⟨h.session c a, List.pairwise_singleton _ _, fun m hm n' hn' => ?_⟩
    obtain rfl := List.mem_singleton.mp hn'
    cases hn with
    | direct hroute ha =>
      exact hchron.latest _ _ hroute m (ha ▸ carries_of_mem_session hm)
    | queued hold hnew ha =>
      refine h.ahead c a ?_ m hm _ (.inl ?_) ha
      · simp [attended, Client.draining, hold]
      · simp [Client.unsent, FlushPc.unsent, hold]

theorem ordered (hs : Step s label t) (htidy : Tidy s) (hdated : Dated s)
    (hchron : Chronological s) (hok : s.keepsOrder label = true) (h : Ordered s) : Ordered t where
  placed p hp := (hs.placed_born htidy h p hp).trans_le hs.nextClient_le
  recipient d r hr := (hs.recipient_born htidy h d r hr).trans_le hs.nextClient_le
  sorted := hs.unsent_sorted h.sorted
  front := hs.front htidy hdated hchron hok h
  clear := hs.clear htidy hdated hok h
  ahead := hs.ahead htidy hdated hchron hok h
  session := hs.session_sorted hchron h

end Step

/-- In a run that keeps the order, every session of a recipient gets the messages of one
sender in the order of the sender's calls. -/
theorem session_in_order {maxPerAgent : ℤ} {ttl : Int64} {blockStore : BlockStore}
    {l : List HubLabel}
    (h : Run step (fun s x => s.keepsOrder x) (start (.new maxPerAgent ttl) blockStore) l s) :
    ∀ c a, (s.session c a).Pairwise (· < ·) := by
  refine (h.invariant (P := fun s => Tidy s ∧ Dated s ∧ Chronological s ∧ Ordered s)
    ⟨.start _ blockStore, .start maxPerAgent ttl blockStore, .start maxPerAgent ttl blockStore,
      .start _ blockStore⟩ ?_).2.2.2.session
  rintro s label t ⟨htidy, hdated, hchron, hordered⟩ hok hstep
  obtain ⟨-, hs⟩ := Step.of_step hstep
  have hclock := (Bool.and_eq_true_iff.mp hok).1
  exact ⟨hs.tidy htidy, hs.dated hclock hdated, hs.chronological htidy hdated hclock hchron,
    hs.ordered htidy hdated hchron hok hordered⟩

def orderedSession : Hub :=
  (exec step (fun s x => s.keepsOrder x) (start (.new 1000 100) ⟨[]⟩)
    ([HubLabel.register "alice", .run true, .authResult 0 true, .route 0 toBob true] ++
      List.replicate 3 (HubLabel.routeStep 0 1 true) ++
      [HubLabel.register "bob", .run true, .run true, .run true, .route 0 toBob true] ++
      List.replicate 4 (HubLabel.routeStep 0 2 true) ++
      List.replicate 10 (HubLabel.flushStep 1 3 true) ++ [HubLabel.route 0 toBob true] ++
      List.replicate 4 (HubLabel.routeStep 0 4 true))).get (by decide +kernel)

theorem session_in_order_bob : orderedSession.session 1 "alice" = [0, 1, 2] ∧
    (orderedSession.session 1 "alice").Pairwise (· < ·) :=
  ⟨by decide +kernel, session_in_order (.of_exec (Option.some_get _).symm) 1 "alice"⟩

/-- "bob" registers with a message queued, and the next message of "alice" is delivered
before `Run` sets the flag. Every database operation succeeds, the clock does not go back
and no channel is ever full. -/
theorem session_out_of_order : ∃ l s, Run step (fun s x => x.succeeds && s.clockForward x)
      (start (.new 1000 100) ⟨[]⟩) l s ∧
    s.placed.length < sendBufferSize ∧ ¬ (s.session 1 "alice").Pairwise (· ≤ ·) :=
  ⟨_, _, .of_exec (l := [.register "alice", .run true, .authResult 0 true, .route 0 toBob true,
      .routeStep 0 0 true, .routeStep 0 0 true, .routeStep 0 0 true, .register "bob",
      .route 0 toBob true, .routeStep 0 0 true, .routeStep 0 0 true, .routeStep 0 0 true,
      .routeStep 0 0 true, .run true, .run true, .run true, .flushStep 1 0 true,
      .flushStep 1 0 true, .flushStep 1 0 true]) (Option.some_get (by decide +kernel)).symm,
    by decide +kernel, by decide +kernel⟩

end Hub

end Pinch
