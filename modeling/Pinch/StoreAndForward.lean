import Pinch.FlushBatch

/-! How an entry leaves the durable queue. A flush removes the entry it has just
offered to the send channel, so nothing is lost as long as the channel had room. -/

namespace Pinch.Hub

open Transition

variable {s t : Hub} {label : HubLabel} {a : String}

def Offered (s : Hub) : Prop :=
  ∀ c e rest, (s.heap c).flush = some (.removing e rest) →
    ⟨c, (s.heap c).address, .queued e.key e.senderAddr e.envelope⟩ ∈ s.placed

/-- A flush that is about to send finds room in the channel. -/
def roomToFlush (s : Hub) : HubLabel → Bool
  | .flushStep c _ _ =>
    match (s.heap c).flush with
    | some (.sending (_ :: _)) => (s.heap c).send.length < sendBufferSize
    | _ => true
  | _ => true

theorem Step.offered (hs : Step s label t) (hok : s.roomToFlush label = true) (h : Offered s)
    (hp : t.panicked = false) : Offered t := by
  intro c e rest hflush
  rcases hs.of_removing hflush with ⟨hold, haddr⟩ | ⟨now, ok, rfl, hsending, rfl⟩
  · rw [haddr]
    exact hs.placed_subset (h c e rest hold)
  · have hroom : (s.heap c).send.length < sendBufferSize := by
      simpa only [roomToFlush, hsending, decide_eq_true_eq] using hok
    have hopen : (s.heap c).closed = false := by
      simp only [setFlush, modify_panicked, panicked_send, Bool.or_eq_false_iff] at hp
      exact hp.2
    have hacc : s.accepts c = true := by simp [accepts, hopen, hroom]
    simp [placed_send, hacc]

structure Forwarding (s : Hub) : Prop where
  read : ∀ c, BatchRead s.mq (s.heap c)
  offered : s.panicked = false → Offered s

theorem forwarding_of_run {mq : MessageQueue Parcel} {blockStore : BlockStore} {l : List HubLabel}
    (h : Run step (fun s x => s.roomToFlush x) (start mq blockStore) l s) : Forwarding s := by
  refine h.invariant ⟨?_, ?_⟩ ?_
  · simp [start, BatchRead, Client.batch]
  · simp [start, Offered]
  · intro s label t hs hok hstep
    obtain ⟨hp, hs'⟩ := Step.of_step hstep
    exact ⟨hs'.batchRead hs.read, hs'.offered hok (hs.offered hp)⟩

/-- When every flush finds room in the channel, an entry leaves the queue only because it
has expired or because it was placed. -/
theorem removed_expired_or_placed {mq : MessageQueue Parcel} {blockStore : BlockStore}
    {l : List HubLabel} {k : QueueKey} {m : QueuedMessage Parcel}
    (hrun : Run step (fun s x => s.roomToFlush x) (start mq blockStore) l s)
    (hstep : s.step label = some t)
    (hbefore : (k, some m) ∈ (s.mq.bucket a).messages)
    (hafter : (k, some m) ∉ (t.mq.bucket a).messages) :
    (∃ now, label = .sweep now ∧ expired s.mq.ttl now m.enqueuedAt = true) ∨
      ∃ c, ⟨c, a, .queued k m.senderAddr m.envelope⟩ ∈ s.placed := by
  obtain ⟨hp, hs⟩ := Step.of_step hstep
  have hinv := forwarding_of_run hrun
  cases hs with
  | enqueued hroute hmq =>
    exact absurd ((MessageQueue.mem_enqueue hmq).mpr (.inl hbefore)) hafter
  | flushRemoved hflush =>
    rename_i d _ ok e rest
    have hin : e ∈ (s.heap d).batch := by simp [Client.batch, hflush, FlushPc.batch]
    have hremoved : ok = true ∧ a = (s.heap d).address ∧ k = e.key := by
      by_contra hno
      cases ok with
      | false => exact hafter hbefore
      | true =>
        refine hafter (MessageQueue.mem_remove.mpr ⟨hbefore, fun ha hk => hno ⟨rfl, ha, hk⟩⟩)
    obtain ⟨-, rfl, rfl⟩ := hremoved
    have hread := (hinv.read d e hin).2 m hbefore
    have hplaced := hinv.offered hp d e rest hflush
    rw [hread] at hplaced
    exact .inr ⟨d, hplaced⟩
  | swept =>
    rename_i now
    refine .inl ⟨now, rfl, ?_⟩
    by_contra hlive
    exact hafter (MessageQueue.mem_sweep.mpr ⟨hbefore, by simp [Bucket.live, hlive]⟩)
  | _ => exact absurd (by simpa using hbefore) hafter

def sentLetter : Hub :=
  (exec step (fun s x => s.roomToFlush x) (start (mailbag 1) ⟨[]⟩)
    [.register "bob", .run true, .run true, .run true, .flushStep 0 0 true, .flushStep 0 0 true,
      .flushStep 0 0 true]).get (by decide +kernel)

theorem removed_expired_or_placed_letter :
    (∃ now, HubLabel.flushStep 0 0 true = .sweep now ∧ expired sentLetter.mq.ttl now 0 = true) ∨
      ∃ c, ⟨c, "bob", .queued (letter 0).key "alice" (letter 0).envelope⟩ ∈ sentLetter.placed :=
  removed_expired_or_placed (k := (letter 0).key) (m := ⟨0, "alice", (letter 0).envelope⟩)
    (Run.of_exec (t := sentLetter) (Option.some_get _).symm)
    (Option.some_get (x := sentLetter.step (.flushStep 0 0 true)) (by decide +kernel)).symm
    (by decide +kernel) (by decide +kernel)

section FlushAhead

def stored (e : QueueEntry Parcel) : QueueKey × Option (QueuedMessage Parcel) :=
  (e.key, some ⟨0, e.senderAddr, e.envelope⟩)

theorem letters_spec (n : ℕ) : (letters n).sequence = n ∧
    (letters n).messages.entries = ((List.range n).map letter).map stored := by
  induction n with
  | zero => exact ⟨rfl, rfl⟩
  | succ n ih =>
    obtain ⟨hseq, hentries⟩ := ih
    have hlt : ∀ x ∈ (letters n).messages, x.1 < encodeKey 0 ((letters n).sequence + 1) := by
      intro x hx
      rw [SortedMap.mem_def, hentries, List.map_map, List.mem_map] at hx
      obtain ⟨i, hi, rfl⟩ := hx
      rw [List.mem_range] at hi
      exact encodeKey_lt (by decide) (by decide) (by omega)
    refine ⟨by simp [letters, Bucket.enqueue, hseq], ?_⟩
    rw [letters, Bucket.enqueue, SortedMap.entries_put_of_lt hlt, hentries, hseq,
      List.range_succ, List.map_append, List.map_append]
    rfl

/-- Client 0 of "bob" is open and holds `n` items, the entries `queue` are still queued,
and the entries `es` were not placed. -/
structure Ahead (n : ℕ) (queue es : List (QueueEntry Parcel)) (pc : FlushPc) (s : Hub) : Prop where
  running : s.panicked = false
  address : (s.heap 0).address = "bob"
  opened : (s.heap 0).closed = false
  connected : (s.heap 0).cancelled = false
  flush : (s.heap 0).flush = some pc
  length : (s.heap 0).send.length = n
  ttl : s.mq.ttl = 100
  queued : (s.mq.bucket "bob").messages.entries = queue.map stored
  unplaced : ∀ p ∈ s.placed, ∀ e ∈ es, p.item ≠ .queued e.key e.senderAddr e.envelope

def Reaches (m n : ℕ) (queue es : List (QueueEntry Parcel)) (pc : FlushPc) : Prop :=
  ∃ l s, Run Hub.step (fun _ x => x.succeeds) (start (mailbag m) ⟨[]⟩) l s ∧ Ahead n queue es pc s

variable {m n : ℕ} {e : QueueEntry Parcel} {queue es es' rest : List (QueueEntry Parcel)}
  {pc pc' : FlushPc}

theorem Reaches.step {n' : ℕ} {queue' : List (QueueEntry Parcel)} (h : Reaches m n queue es pc)
    (hstep : ∀ s, Ahead n queue es pc s →
      ∃ t, s.step (.flushStep 0 0 true) = some t ∧ Ahead n' queue' es' pc' t) :
    Reaches m n' queue' es' pc' := by
  obtain ⟨l, s, hrun, hs⟩ := h
  obtain ⟨t, ht, hahead⟩ := hstep s hs
  exact ⟨_, t, .snoc hrun rfl ht, hahead⟩

theorem Ahead.setFlush (h : Ahead n queue es pc s) (pc' : FlushPc) :
    Ahead n queue es pc' (s.setFlush 0 pc') := by
  constructor
  case length => simpa using h.length
  case unplaced => exact h.unplaced
  all_goals simp [h.running, h.address, h.opened, h.connected, h.ttl, h.queued]

theorem Ahead.setClock (h : Ahead n queue es pc s) (clock : Int64) :
    Ahead n queue es pc { s with clock := clock } :=
  ⟨h.running, h.address, h.opened, h.connected, h.flush, h.length, h.ttl, h.queued, h.unplaced⟩

theorem live_stored (e : QueueEntry Parcel) : Bucket.live 100 0 (stored e) = some e := by
  have hexp : expired 100 0 0 = false := by decide
  simp [Bucket.live, stored, hexp]

theorem Ahead.flushBatch (h : Ahead n queue es pc s) :
    s.mq.flushBatch "bob" flushBatchSize 0 = queue.take flushBatchSize := by
  have hlive : Bucket.live 100 0 ∘ stored = some := funext live_stored
  rw [MessageQueue.flushBatch_eq, MessageQueue.waiting, h.queued, h.ttl, List.filterMap_map, hlive,
    List.filterMap_some]

theorem Reaches.batch (h : Reaches m n queue es .checkCtx) (hne : queue ≠ []) :
    Reaches m n queue es (.sending (queue.take flushBatchSize)) := by
  have hread : Reaches m n queue es .flushBatch := by
    refine h.step fun s hs => ⟨_, ?_, hs.setFlush _⟩
    simp [Hub.step, flushQueuedMessages, hs.running, hs.flush, hs.connected]
  refine hread.step fun s hs => ⟨_, ?_, (hs.setClock 0).setFlush _⟩
  have htake : queue.take flushBatchSize ≠ [] := by simpa [flushBatchSize] using hne
  simp [Hub.step, flushQueuedMessages, hs.running, hs.flush, hs.address, hs.flushBatch, htake]

theorem Reaches.slept (h : Reaches m n queue es (.sending [])) :
    Reaches m n queue es .checkCtx := by
  refine h.step fun s hs => ⟨_, ?_, hs.setFlush _⟩
  simp [Hub.step, flushQueuedMessages, hs.running, hs.flush]

theorem step_sending (h : Ahead n queue es (.sending (e :: rest)) s) :
    s.step (.flushStep 0 0 true) =
      some ((s.send 0 (.queued e.key e.senderAddr e.envelope)).setFlush 0 (.removing e rest)) := by
  simp [Hub.step, flushQueuedMessages, h.running, h.flush]

theorem key_ne_of_queued (h : Ahead n (e :: es) queue pc s) : ∀ e' ∈ es, e'.key ≠ e.key := by
  have hsorted := (s.mq.bucket "bob").messages.sorted
  rw [h.queued, List.map_cons, List.pairwise_cons] at hsorted
  intro e' he'
  exact (hsorted.1 (stored e') (List.mem_map_of_mem he')).ne'

theorem Reaches.sent (h : Reaches m n (e :: es) (e :: es) (.sending (e :: rest)))
    (hn : n < sendBufferSize) : Reaches m (n + 1) (e :: es) es (.removing e rest) := by
  refine h.step fun s hs => ⟨_, step_sending hs, ?_⟩
  have hacc : s.accepts 0 = true := by simp [accepts, hs.opened, hs.length, hn]
  have hitem : Ahead (n + 1) (e :: es) es (.sending (e :: rest))
      (s.send 0 (.queued e.key e.senderAddr e.envelope)) := by
    constructor
    case length => simp [send_eq, hacc, hs.length]
    case unplaced =>
      simp only [placed_send, hacc, if_true, List.mem_append, List.mem_singleton]
      rintro p (hp | rfl) e' he' heq
      · exact hs.unplaced p hp e' (List.mem_cons_of_mem _ he') heq
      · exact key_ne_of_queued hs e' he' (Item.queued.inj heq).1.symm
    case running => simp [panicked_send, hs.running, hs.opened]
    all_goals simp [hs.address, hs.opened, hs.connected, hs.flush, hs.ttl, hs.queued]
  exact hitem.setFlush _

theorem Reaches.dropped (h : Reaches m sendBufferSize queue es (.sending (e :: rest))) :
    Reaches m sendBufferSize queue es (.removing e rest) := by
  refine h.step fun s hs => ⟨_, step_sending hs, ?_⟩
  have hsame : s.send 0 (.queued e.key e.senderAddr e.envelope) = s := by
    simp [send, hs.opened, hs.length]
  rw [hsame]
  exact hs.setFlush _

theorem step_removing (h : Ahead n queue es (.removing e rest) s) :
    s.step (.flushStep 0 0 true) =
      some ({ s with mq := s.mq.remove "bob" e.key }.setFlush 0 (.sending rest)) := by
  simp [Hub.step, flushQueuedMessages, h.running, h.flush, h.address]

theorem Reaches.removed (h : Reaches m n (e :: es) es (.removing e rest)) :
    Reaches m n es es (.sending rest) := by
  refine h.step fun s hs => ⟨_, step_removing hs, ?_⟩
  have hmq : Ahead n es es (.removing e rest) { s with mq := s.mq.remove "bob" e.key } := by
    refine ⟨hs.running, hs.address, hs.opened, hs.connected, hs.flush, hs.length, ?_, ?_,
      hs.unplaced⟩
    · simpa using hs.ttl
    · have hkeep : (es.map stored).filter (fun x => x.1 ≠ e.key) = es.map stored := by
        refine List.filter_eq_self.mpr fun x hx => ?_
        obtain ⟨e', he', rfl⟩ := List.mem_map.mp hx
        exact decide_eq_true (key_ne_of_queued hs e' he')
      rw [MessageQueue.bucket_remove_self, Bucket.remove, SortedMap.entries_erase, hs.queued,
        List.map_cons, List.filter_cons_of_neg (by simp [stored]), hkeep]
  exact hmq.setFlush _

theorem Reaches.forward (rest es es' : List (QueueEntry Parcel))
    (h : Reaches m n (rest ++ es) (rest ++ es) (.sending (rest ++ es')))
    (hn : n + rest.length ≤ sendBufferSize) :
    Reaches m (n + rest.length) es es (.sending es') := by
  induction rest generalizing n with
  | nil => exact h
  | cons e rest ih =>
    rw [List.length_cons] at hn
    have hnext := ih (h.sent (by omega)).removed (by omega)
    rwa [List.length_cons, Nat.add_comm rest.length 1, ← Nat.add_assoc]

theorem Reaches.round (h : Reaches m n queue queue .checkCtx) (hlen : flushBatchSize ≤ queue.length)
    (hn : n + flushBatchSize ≤ sendBufferSize) :
    Reaches m (n + flushBatchSize) (queue.drop flushBatchSize) (queue.drop flushBatchSize)
      .checkCtx := by
  have hne : queue ≠ [] := by
    rintro rfl
    exact absurd hlen (by decide)
  have htake : (queue.take flushBatchSize).length = flushBatchSize := by simpa using hlen
  have hbatch := h.batch hne
  have hsent := Reaches.forward (queue.take flushBatchSize) (queue.drop flushBatchSize) []
    (by simpa using hbatch) (by rw [htake]; exact hn)
  rw [htake] at hsent
  exact hsent.slept

theorem reaches_flush (hm : 0 < m) :
    Reaches m 1 ((List.range m).map letter) ((List.range m).map letter) .checkCtx := by
  have hbucket : (mailbag m).bucket "bob" = letters m := MessageQueue.bucket_setBucket_self
  have hentries := (letters_spec m).2
  have hcount : (mailbag m).count "bob" = m := by
    rw [MessageQueue.count, hbucket, SortedMap.size, hentries, List.length_map, List.length_map,
      List.length_range]
  let s₁ := (start (mailbag m) ⟨[]⟩).register "bob"
  let s₂ := { s₁ with run := .flagging 0 }.send 0
    (.control (queueStatusEnvelope ((m : ℤ).bmod 4294967296)))
  have hrun : Run Hub.step (fun _ x => x.succeeds) (start (mailbag m) ⟨[]⟩)
      [.register "bob", .run true, .run true, .run true] ({ s₂ with run := .idle }.modify 0
        (fun x => { x with flushing := true, flush := some .checkCtx })) := by
    refine .of_exec ?_
    simp [exec, step, start, register, runStep, hcount, hm, s₁, s₂, panicked_send,
      HubLabel.succeeds]
  refine ⟨_, _, hrun, ?_⟩
  constructor
  case length => simp [s₂, send_eq, accepts, sendBufferSize, start, register, s₁]
  case queued => simpa [s₂, s₁, start, register, hbucket] using hentries
  case unplaced => simp [s₂, placed_send, accepts, s₁, start, register]
  all_goals simp [s₂, s₁, start, register, panicked_send, mailbag, MessageQueue.setBucket,
    MessageQueue.new]

/-- Five full batches fit in the channel, and five entries of the sixth. -/
theorem reaches_full (hqueue : Reaches m 1 queue queue .checkCtx) (hlen : queue.length = 256) :
    Reaches m sendBufferSize (queue.drop 255) (queue.drop 255) (.sending (queue.drop 255)) := by
  have hrounds : ∀ k ≤ 5, Reaches m (1 + flushBatchSize * k) (queue.drop (flushBatchSize * k))
      (queue.drop (flushBatchSize * k)) .checkCtx := by
    intro k hk
    induction k with
    | zero => exact hqueue
    | succ k ih =>
      have hmany : flushBatchSize ≤ (queue.drop (flushBatchSize * k)).length := by
        rw [List.length_drop, hlen]
        simp only [flushBatchSize]
        omega
      have hroom : 1 + flushBatchSize * k + flushBatchSize ≤ sendBufferSize := by
        simp only [flushBatchSize, sendBufferSize]
        omega
      have hnext := (ih (by omega)).round hmany hroom
      rwa [List.drop_drop, Nat.add_assoc, ← Nat.mul_succ] at hnext
  have hsix : (queue.drop 250).length = 6 := by rw [List.length_drop, hlen]
  have hfive : ((queue.drop 250).take 5).length = 5 := by rw [List.length_take, hsix]; rfl
  have hsplit : (queue.drop 250).take 5 ++ queue.drop 255 = queue.drop 250 := by
    simpa [List.drop_drop] using List.take_append_drop 5 (queue.drop 250)
  have hbatch := (hrounds 5 le_rfl).batch (List.ne_nil_of_length_pos (by
    rw [List.length_drop, hlen]; decide))
  rw [List.take_of_length_le (by rw [List.length_drop, hlen]; decide)] at hbatch
  have hsent := Reaches.forward (n := 251) ((queue.drop 250).take 5) (queue.drop 255)
    (queue.drop 255) (by rw [hsplit]; exact hbatch) (by rw [hfive]; decide)
  rwa [hfive] at hsent

/-- "bob" comes online with 256 messages queued and every database operation succeeds. The
last message is removed from the queue and was never placed. -/
theorem flush_drops_queued : ∃ l s label t k msg,
    Run step (fun _ x => x.succeeds) (start (mailbag 256) ⟨[]⟩) l s ∧
    label.succeeds = true ∧ s.step label = some t ∧ (k, some msg) ∈ (s.mq.bucket "bob").messages ∧
    (k, some msg) ∉ (t.mq.bucket "bob").messages ∧ (∀ now, label ≠ .sweep now) ∧
    ∀ p ∈ s.placed, p.item ≠ .queued k msg.senderAddr msg.envelope := by
  have hfull := reaches_full (reaches_flush (m := 256) (by decide)) (by simp)
  have hlast : ((List.range 256).map letter).drop 255 = [letter 255] := by
    rw [← List.map_drop]
    rfl
  rw [hlast] at hfull
  obtain ⟨l, s, hrun, hs⟩ := hfull.dropped
  refine ⟨l, s, _, _, (letter 255).key, ⟨0, (letter 255).senderAddr, (letter 255).envelope⟩, hrun,
    rfl, step_removing hs, ?_, ?_, by simp, ?_⟩
  · rw [SortedMap.mem_def, hs.queued]
    exact List.mem_singleton.mpr rfl
  · simp
  · exact fun p hp => hs.unplaced p hp _ (List.mem_singleton.mpr rfl)

end FlushAhead

end Pinch.Hub
