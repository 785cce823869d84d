import Pinch.RoutingTable

/-! The batch of a flush and the durable queue it was read from. The queue moves on
between the read and the removals, but it never gives a key to another message. -/

namespace Pinch

namespace MessageQueue

variable {ε : Type} {mq mq' : MessageQueue ε} {a r sender : String} {e : QueueEntry ε} {n : ℕ}
  {envelope : ε} {now : Int64} {key : QueueKey}

/-- The queue changes only by losing entries and by gaining entries with new sequence
numbers. -/
def Evolves (mq mq' : MessageQueue ε) : Prop :=
  ∀ a, (mq.bucket a).sequence ≤ (mq'.bucket a).sequence ∧
    ∀ x ∈ (mq'.bucket a).messages,
      x ∈ (mq.bucket a).messages ∨ (mq.bucket a).sequence < (ofLex x.1).2

theorem Evolves.refl (mq : MessageQueue ε) : mq.Evolves mq := fun _ => ⟨le_rfl, fun _ => .inl⟩

theorem Evolves.enqueue (h : mq.enqueue r sender envelope now = .ok mq') : mq.Evolves mq' := by
  intro a
  refine ⟨sequence_enqueue h, fun x hx => ?_⟩
  rcases (mem_enqueue h).mp hx with hx | ⟨rfl, rfl⟩
  · exact .inl hx
  · exact .inr (Nat.lt_succ_self _)

theorem Evolves.remove : mq.Evolves (mq.remove r key) := fun _ =>
  ⟨sequence_remove.ge, fun _ hx => .inl (mem_remove.mp hx).1⟩

theorem Evolves.sweep : mq.Evolves (mq.sweep now).2 := fun _ =>
  ⟨sequence_sweep.ge, fun _ hx => .inl (mem_sweep.mp hx).1⟩

/-- The entry was read from the bucket of `a`: if its key is still there, so is the
message. -/
def Read (mq : MessageQueue ε) (a : String) (e : QueueEntry ε) : Prop :=
  (ofLex e.key).2 ≤ (mq.bucket a).sequence ∧
    ∀ msg, (e.key, some msg) ∈ (mq.bucket a).messages → e = ⟨e.key, msg.envelope, msg.senderAddr⟩

theorem Read.evolves (h : mq.Read a e) (hmq : mq.Evolves mq') : mq'.Read a e := by
  refine ⟨h.1.trans (hmq a).1, fun msg hmsg => ?_⟩
  rcases (hmq a).2 _ hmsg with hold | hnew
  · exact h.2 msg hold
  · exact absurd h.1 (Nat.not_le_of_lt hnew)

theorem read_of_mem_flushBatch (h : e ∈ mq.flushBatch a n now) : mq.Read a e := by
  obtain ⟨msg, hmem, -, he⟩ := mem_of_mem_flushBatch h
  refine ⟨(mq.bucket a).bounded _ hmem, fun msg' hmem' => ?_⟩
  obtain rfl := Option.some.inj (SortedMap.eq_of_mem hmem hmem')
  exact he

end MessageQueue

def FlushPc.batch : FlushPc → List (QueueEntry Parcel)
  | .sending entries => entries
  | .removing e rest => e :: rest
  | _ => []

def Client.batch (x : Client) : List (QueueEntry Parcel) := (x.flush.map FlushPc.batch).getD []

def FlushPc.unsent : FlushPc → List (QueueEntry Parcel)
  | .sending entries => entries
  | .removing _ rest => rest
  | _ => []

def Client.unsent (x : Client) : List (QueueEntry Parcel) := (x.flush.map FlushPc.unsent).getD []

/-- The flush of the client will read the queue again, unless it is cut off. -/
def Client.draining (x : Client) : Bool :=
  match x.flush with
  | none | some .clearing => false
  | _ => true

namespace Hub

variable {s t : Hub} {label : HubLabel} {c : ℕ} {e : QueueEntry Parcel}
  {rest : List (QueueEntry Parcel)}

theorem Step.evolves (hs : Step s label t) : s.mq.Evolves t.mq := by
  cases hs with
  | enqueued hroute hmq => exact .enqueue hmq
  | flushRemoved hflush =>
    rename_i ok _ _
    cases ok with
    | true => exact .remove
    | false => exact .refl _
  | swept => exact .sweep
  | _ => simpa using MessageQueue.Evolves.refl s.mq

theorem Step.of_mem_bucket (hs : Step s label t) {a : String}
    {x : QueueKey × Option (QueuedMessage Parcel)} (hx : x ∈ (t.mq.bucket a).messages) :
    x ∈ (s.mq.bucket a).messages ∨ ∃ c now parcel, label = .routeStep c now true ∧
      (s.heap c).route = some ⟨parcel, .enqueue a⟩ ∧
      s.mq.enqueue a (s.heap c).address parcel now = .ok t.mq ∧
      x = (encodeKey now ((s.mq.bucket a).sequence + 1), some ⟨now, (s.heap c).address, parcel⟩) ∧
      t = { s with mq := t.mq, clock := now }.setRoute c none := by
  cases hs with
  | enqueued hroute hmq =>
    rcases (MessageQueue.mem_enqueue hmq).mp hx with hold | ⟨rfl, rfl⟩
    · exact .inl hold
    · exact .inr ⟨_, _, _, rfl, hroute, hmq, rfl, rfl⟩
  | flushRemoved hflush =>
    rename_i ok _ _
    cases ok with
    | true => exact .inl (MessageQueue.mem_remove.mp hx).1
    | false => exact .inl hx
  | swept => exact .inl (MessageQueue.mem_sweep.mp hx).1
  | _ => exact .inl (by simpa using hx)

def BatchRead (mq : MessageQueue Parcel) (x : Client) : Prop :=
  ∀ e ∈ x.batch, mq.Read x.address e

theorem batchRead_send {mq : MessageQueue Parcel} (x : Client) (l : List Item) :
    BatchRead mq { x with send := l } ↔ BatchRead mq x := Iff.rfl

theorem Step.batchRead (hs : Step s label t) (h : ∀ c, BatchRead s.mq (s.heap c)) :
    ∀ c, BatchRead t.mq (t.heap c) := by
  have hall : ∀ c, BatchRead t.mq (s.heap c) := fun c e he => (h c e he).evolves hs.evolves
  cases hs with
  | registered hrun ha | flagged hrun | drained hflush hnil | flushed hflush =>
    refine forall_modify hall ?_
    simp [BatchRead, Client.batch, FlushPc.batch]
  | flushMoved hflush hmove =>
    refine forall_modify hall ?_
    cases hmove <;> simp [BatchRead, Client.batch, FlushPc.batch]
  | batched hflush =>
    refine forall_modify hall ?_
    exact fun e he => MessageQueue.read_of_mem_flushBatch he
  | flushSent hflush =>
    rename_i d _ _ e rest
    have hbatch : (s.heap d).batch = e :: rest := by simp [Client.batch, hflush, FlushPc.batch]
    refine forall_modify (forall_send batchRead_send (by simpa using hall)) ?_
    intro e' he'
    simpa using hall d e' (by rw [hbatch]; exact he')
  | flushRemoved hflush =>
    rename_i d _ _ e rest
    have hbatch : (s.heap d).batch = e :: rest := by simp [Client.batch, hflush, FlushPc.batch]
    refine forall_modify hall ?_
    intro e' he'
    exact hall d e' (by rw [hbatch]; exact List.mem_cons_of_mem _ he')
  | _ => simpa [BatchRead, Client.batch] using hall

theorem Step.of_removing (hs : Step s label t) (h : (t.heap c).flush = some (.removing e rest)) :
    ((s.heap c).flush = some (.removing e rest) ∧ (t.heap c).address = (s.heap c).address) ∨
      ∃ now ok, label = .flushStep c now ok ∧ (s.heap c).flush = some (.sending (e :: rest)) ∧
        t = (s.send c (.queued e.key e.senderAddr e.envelope)).setFlush c (.removing e rest) := by
  cases hs.flushView c with
  | same hflush haddr => exact .inl ⟨hflush ▸ h, haddr⟩
  | sent hl hold ht =>
    subst ht
    obtain ⟨rfl, rfl⟩ : _ = e ∧ _ = rest := by simpa using h
    exact .inr ⟨_, _, hl, hold, rfl⟩
  | moved hl hold hmove ht => cases hmove <;> simp [ht] at h
  | drained hl hold hnil ht => simp [ht] at h
  | batched hl hold ht | removed hl hold ht => simp [ht] at h
  | fresh hc hflush => simp [hflush] at h
  | begun hrun hflush haddr | finished hl hold hflush haddr => simp [hflush] at h

theorem Step.removing (hs : Step s label t) (htidy : Tidy s)
    (h : (s.heap c).flush = some (.removing e rest)) :
    ((t.heap c).flush = some (.removing e rest) ∧ (t.heap c).address = (s.heap c).address) ∨
      ∃ now ok, label = .flushStep c now ok ∧
        t.mq = if ok then s.mq.remove (s.heap c).address e.key else s.mq := by
  cases hs.flushView c with
  | same hflush haddr => exact .inl ⟨hflush.trans h, haddr⟩
  | fresh hc hflush => exact absurd (htidy.born_flush c (by simp [h])) (by simp [hc])
  | begun hrun hflush haddr =>
    have hnone := (htidy.registering c (by simp [hrun, RunPc.registering])).2
    exact absurd (hnone.symm.trans h) (by simp)
  | removed hl hold ht =>
    obtain ⟨rfl, rfl⟩ : _ = e ∧ _ = rest := by simpa [h] using hold.symm
    exact .inr ⟨_, _, hl, by simp [ht]⟩
  | moved hl hold hmove ht => cases hmove <;> simp [h] at hold
  | drained hl hold hnil ht | batched hl hold ht | sent hl hold ht
  | finished hl hold hflush haddr => simp [h] at hold

theorem Step.unsent (hs : Step s label t) (c : ℕ) :
    (t.heap c).unsent = [] ∨
    ((t.heap c).unsent.Sublist (s.heap c).unsent ∧ (t.heap c).address = (s.heap c).address) ∨
      ∃ now, label = .flushStep c now true ∧ (s.heap c).flush = some .flushBatch ∧
        t = { s with clock := now }.setFlush c
          (.sending (s.mq.flushBatch (s.heap c).address flushBatchSize now)) := by
  cases hs.flushView c with
  | same hflush haddr => exact .inr (.inl ⟨by simp [Client.unsent, hflush], haddr⟩)
  | fresh hc hflush => exact .inl (by simp [Client.unsent, hflush])
  | begun hrun hflush haddr | finished hl hold hflush haddr =>
    exact .inl (by simp [Client.unsent, FlushPc.unsent, hflush])
  | moved hl hold hmove ht =>
    exact .inl (by cases hmove <;> simp [ht, Client.unsent, FlushPc.unsent])
  | drained hl hold hnil ht => exact .inl (by simp [ht, Client.unsent, FlushPc.unsent])
  | batched hl hold ht => exact .inr (.inr ⟨_, hl, hold, ht⟩)
  | sent hl hold ht | removed hl hold ht =>
    exact .inr (.inl (by simp [ht, Client.unsent, FlushPc.unsent, hold]))

theorem Step.unsent_sorted (hs : Step s label t)
    (h : ∀ c, (s.heap c).unsent.Pairwise (fun e e' => e.key < e'.key)) :
    ∀ c, (t.heap c).unsent.Pairwise (fun e e' => e.key < e'.key) := by
  intro c
  rcases hs.unsent c with hnil | ⟨hsub, -⟩ | ⟨now, -, -, rfl⟩
  · simp [hnil]
  · exact (h c).sublist hsub
  · simpa [Client.unsent, FlushPc.unsent] using MessageQueue.flushBatch_sorted

def attended (s : Hub) (c : ℕ) : Bool := s.run.registering = some c || (s.heap c).draining

theorem Step.attended_before (hs : Step s label t) (hc : c < s.nextClient)
    (h : t.attended c = true) : s.attended c = true := by
  rcases Bool.or_eq_true_iff.mp h with hreg | hdrain
  · have hold := (hs.registering_before (of_decide_eq_true hreg)).resolve_right hc.ne
    simp [attended, hold]
  · cases hs.flushView c with
    | same hflush haddr =>
      rw [Client.draining, hflush, ← Client.draining] at hdrain
      simp [attended, hdrain]
    | fresh hcn hflush => exact absurd hc (by simp [hcn])
    | begun hrun hflush haddr => simp [attended, hrun, RunPc.registering]
    | moved hl hold hmove ht => cases hmove <;> simp [attended, Client.draining, hold]
    | drained hl hold hnil ht => simp [attended, Client.draining, hold]
    | batched hl hold ht | sent hl hold ht | removed hl hold ht =>
      simp [attended, Client.draining, hold]
    | finished hl hold hflush haddr => simp [Client.draining, hflush] at hdrain

inductive Places (s : Hub) (label : HubLabel) (t : Hub) : Placement → Prop
  | control {c : ℕ} {env : Envelope} (hacc : s.accepts c = true) :
      Places s label t ⟨c, (s.heap c).address, .control env⟩
  | direct {d r : ℕ} {now : Int64} {ok : Bool} {parcel : Parcel}
      (hl : label = .routeStep d now ok) (hacc : s.accepts r = true)
      (hroute : (s.heap d).route = some ⟨parcel, .deliver r⟩)
      (ht : t = (s.send r (.direct (s.heap d).address parcel)).setRoute d none) :
      Places s label t ⟨r, (s.heap r).address, .direct (s.heap d).address parcel⟩
  | queued {c : ℕ} {now : Int64} {ok : Bool} {e : QueueEntry Parcel}
      {rest : List (QueueEntry Parcel)} (hl : label = .flushStep c now ok)
      (hacc : s.accepts c = true) (hflush : (s.heap c).flush = some (.sending (e :: rest)))
      (ht : t = (s.send c (.queued e.key e.senderAddr e.envelope)).setFlush c (.removing e rest)) :
      Places s label t ⟨c, (s.heap c).address, .queued e.key e.senderAddr e.envelope⟩

theorem Places.born {p : Placement} (h : Places s label t p) (htidy : Tidy s) :
    p.client < s.nextClient := by
  cases h with
  | control hacc => exact htidy.born_open (not_closed_of_accepts hacc)
  | direct hl hacc hroute ht => exact htidy.born_open (not_closed_of_accepts hacc)
  | queued hl hacc hflush ht => exact htidy.born_open (not_closed_of_accepts hacc)

theorem Step.placed_cases (hs : Step s label t) :
    t.placed = s.placed ∨ ∃ p, t.placed = s.placed ++ [p] ∧ Places s label t p := by
  cases hs with
  | announced hrun =>
    exact placed_send_cases.imp_right fun ⟨hacc, heq⟩ => ⟨_, heq, .control hacc⟩
  | replied hroute =>
    exact placed_send_cases.imp_right fun ⟨hacc, heq⟩ => ⟨_, heq, .control hacc⟩
  | delivered hroute =>
    exact placed_send_cases.imp_right fun ⟨hacc, heq⟩ => ⟨_, heq, .direct rfl hacc hroute rfl⟩
  | flushSent hflush =>
    exact placed_send_cases.imp_right fun ⟨hacc, heq⟩ => ⟨_, heq, .queued rfl hacc hflush rfl⟩
  | _ => exact .inl rfl

theorem Step.placed_subset (hs : Step s label t) : s.placed ⊆ t.placed := by
  rcases hs.placed_cases with heq | ⟨p, heq, -⟩
  · simp [heq]
  · simp [heq]

/-- A message of "alice" and its place in a queue that received nothing else. -/
def letter (i : ℕ) : QueueEntry Parcel :=
  ⟨encodeKey 0 (i + 1), ⟨toBob, i⟩, "alice"⟩

def letters : ℕ → Bucket Parcel
  | 0 => .empty
  | n + 1 => (letters n).enqueue (letter n).senderAddr (letter n).envelope 0

def mailbag (n : ℕ) : MessageQueue Parcel := (MessageQueue.new 1000 100).setBucket "bob" (letters n)

end Hub

end Pinch
