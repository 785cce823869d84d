import Pinch.QueueClock
import Pinch.StoreAndForward

/-! A flush that is left alone. It takes a bounded number of steps, sends what was
waiting in the order of the keys, and leaves what it may not send. -/

namespace Pinch

theorem MessageQueue.waiting_remove {ε : Type} (mq : MessageQueue ε) (r : String) (k : QueueKey)
    (now : Int64) :
    (mq.remove r k).waiting r now = (mq.waiting r now).filter fun e => e.key ≠ k := by
  rw [waiting, waiting, bucket_remove_self, ttl_remove, Bucket.remove, SortedMap.entries_erase]
  induction (mq.bucket r).messages.entries with
  | nil => rfl
  | cons x l ih =>
    cases hlive : Bucket.live mq.ttl now x with
    | none => by_cases hx : x.1 = k <;> simp_all
    | some e =>
      obtain ⟨msg, rfl, -⟩ := Bucket.live_eq_some.mp hlive
      by_cases hx : e.key = k <;> simp_all

def QueueEntry.item (e : QueueEntry Parcel) : Item := .queued e.key e.senderAddr e.envelope

def HubLabel.flushes (c : ℕ) : HubLabel → Bool
  | .flushStep d _ _ => d = c
  | _ => false

namespace Hub

open Transition

variable {s t s₀ : Hub} {label : HubLabel} {c : ℕ} {now : Int64} {n : ℕ}
  {sent : List (QueueEntry Parcel)}

/-- What was ever placed in the channel of client `c` out of the durable queue. -/
def flushedTo (c : ℕ) (placed : List Placement) : List Item :=
  (placed.filter fun p => p.client = c && p.item matches .queued _ _ _).map Placement.item

/-- Client `c` stays connected and only its flush touches its queue. That flush always reads the
same time, finds room in the channel and a database that works. -/
structure LeftAlone (c : ℕ) (now : Int64) (s : Hub) (label : HubLabel) : Prop where
  connected : ∀ t, s.step label = some t →
    (t.heap c).closed = false ∧ (t.heap c).cancelled = false
  own : ∀ now' ok, label = .flushStep c now' ok →
    now' = now ∧ ok = true ∧ s.roomToFlush label = true
  others : label.flushes c = false → ∀ t, s.step label = some t →
    t.mq.bucket (s.heap c).address = s.mq.bucket (s.heap c).address

/-- How many more steps a flush can take that finds `rest` messages in the queue. -/
def stepsLeft (rest : ℕ) : Option FlushPc → ℕ
  | none => 0
  | some .clearing => 1
  | some .flushBatch => 5 * rest + 2
  | some .checkCtx => 5 * rest + 3
  | some (.sending es) => 5 * rest + 4 - 3 * es.length
  | some (.removing _ es) => 5 * rest - 3 * es.length

/-- The entry that has been sent and not yet removed. -/
def offered : Option FlushPc → List (QueueEntry Parcel)
  | some (.removing e _) => [e]
  | _ => []

/-- What the flush has in hand is at the front of the queue. -/
def inHand (rest : List (QueueEntry Parcel)) : Option FlushPc → Prop
  | some (.sending es) => es <+: rest
  | some (.removing e es) => e :: es <+: rest
  | some .clearing | none => rest = []
  | some .checkCtx | some .flushBatch => True

/-- What a run does not change about client `c`. -/
structure Attached (s₀ : Hub) (c : ℕ) (s : Hub) : Prop where
  tidy : Tidy s
  born : c < s.nextClient
  registered : s.run.registering ≠ some c
  address : (s.heap c).address = (s₀.heap c).address
  ttl : s.mq.ttl = s₀.mq.ttl
  closed : (s.heap c).closed = false
  cancelled : (s.heap c).cancelled = false

/-- The flush of client `c` has sent and removed the entries `sent`, one after the other. -/
structure Drains (s₀ : Hub) (c : ℕ) (now : Int64) (s : Hub) (sent : List (QueueEntry Parcel)) :
    Prop where
  waiting : s₀.mq.waiting (s₀.heap c).address now = sent ++ s.mq.waiting (s₀.heap c).address now
  bucket : ∀ x, x ∈ (s.mq.bucket (s₀.heap c).address).messages ↔
    x ∈ (s₀.mq.bucket (s₀.heap c).address).messages ∧ ∀ e ∈ sent, e.key ≠ x.1
  placed : flushedTo c s.placed =
    flushedTo c s₀.placed ++ (sent ++ offered (s.heap c).flush).map QueueEntry.item
  inHand : inHand (s.mq.waiting (s₀.heap c).address now) (s.heap c).flush

theorem Attached.step (h : Attached s₀ c s) (hs : Step s label t)
    (hconn : (t.heap c).closed = false ∧ (t.heap c).cancelled = false) : Attached s₀ c t where
  tidy := hs.tidy h.tidy
  born := h.born.trans_le hs.nextClient_le
  registered hreg := by
    rcases hs.registering_before hreg with hold | hnew
    · exact h.registered hold
    · exact absurd hnew h.born.ne
  address := (hs.address_eq h.born).trans h.address
  ttl := hs.ttl.trans h.ttl
  closed := hconn.1
  cancelled := hconn.2

/-- The flush of `c` is moved by its own steps only. -/
theorem Attached.flush_eq (h : Attached s₀ c s) (hs : Step s label t)
    (hlabel : label.flushes c = false) : (t.heap c).flush = (s.heap c).flush := by
  cases hs.flushView c with
  | same hflush haddr => exact hflush
  | fresh hc hflush => exact absurd hc h.born.ne
  | begun hrun hflush haddr =>
    exact absurd (by rw [hrun]; rfl) h.registered
  | moved hl hold hmove ht | drained hl hold hnil ht | batched hl hold ht | sent hl hold ht
  | removed hl hold ht | finished hl hold hflush haddr => simp [hl, HubLabel.flushes] at hlabel

theorem flushedTo_eq (hs : Step s label t) (hlabel : label.flushes c = false) :
    flushedTo c t.placed = flushedTo c s.placed := by
  rcases hs.placed_cases with heq | ⟨p, heq, hplaces⟩
  · rw [heq]
  · rw [heq, flushedTo, List.filter_append, List.map_append]
    cases hplaces with
    | control hacc => simp [flushedTo]
    | direct hl hacc hroute ht => simp [flushedTo]
    | queued hl hacc hflush ht =>
      rename_i d _ _ _ _
      have hd : d ≠ c := by simpa [hl, HubLabel.flushes] using hlabel
      simp [flushedTo, hd]

theorem Drains.other (h : Drains s₀ c now s sent) (hatt : Attached s₀ c s) (hs : Step s label t)
    (hlabel : label.flushes c = false)
    (hbucket : t.mq.bucket (s.heap c).address = s.mq.bucket (s.heap c).address) :
    Drains s₀ c now t sent := by
  rw [hatt.address] at hbucket
  have hwait : t.mq.waiting (s₀.heap c).address now = s.mq.waiting (s₀.heap c).address now := by
    rw [MessageQueue.waiting, MessageQueue.waiting, hbucket, hs.ttl]
  have hflush := hatt.flush_eq hs hlabel
  refine ⟨?_, ?_, ?_, ?_⟩
  · rw [hwait, h.waiting]
  · rw [hbucket]
    exact h.bucket
  · rw [flushedTo_eq hs hlabel, hflush, h.placed]
  · rw [hwait, hflush]
    exact h.inHand

theorem step_flushStep (hp : s.panicked = false) :
    s.step (.flushStep c now true) = s.flushQueuedMessages c now true := by
  simp [step, hp]

/-- A step of the flush that moves no entry. -/
theorem Drains.moved (h : Drains s₀ c now s sent) {pc : FlushPc} (clock : Int64)
    (hold : offered (s.heap c).flush = []) (hnew : offered (some pc) = [])
    (hhand : Hub.inHand (s.mq.waiting (s₀.heap c).address now) (some pc)) :
    Drains s₀ c now ({ s with clock := clock }.setFlush c pc) sent := by
  refine ⟨h.waiting, h.bucket, ?_, ?_⟩
  · have hplaced := h.placed
    rw [hold] at hplaced
    simpa [hnew] using hplaced
  · simpa using hhand

theorem Drains.offer {e : QueueEntry Parcel} {rest : List (QueueEntry Parcel)}
    (h : Drains s₀ c now s sent) (hacc : s.accepts c = true)
    (hflush : (s.heap c).flush = some (.sending (e :: rest))) :
    Drains s₀ c now ((s.send c e.item).setFlush c (.removing e rest)) sent := by
  have hplaced := h.placed
  have hhand := h.inHand
  rw [hflush] at hplaced hhand
  refine ⟨by simpa using h.waiting, by simpa using h.bucket, ?_, ?_⟩
  · have hone : flushedTo c (s.send c e.item).placed = flushedTo c s.placed ++ [e.item] := by
      simp [placed_send, hacc, flushedTo, QueueEntry.item]
    simp only [setFlush, modify_placed, hone, hplaced, heap_modify_self, offered]
    simp
  · simpa [Hub.inHand] using hhand

theorem Drains.removed {e : QueueEntry Parcel} {rest : List (QueueEntry Parcel)}
    (h : Drains s₀ c now s sent) (haddr : (s.heap c).address = (s₀.heap c).address)
    (hflush : (s.heap c).flush = some (.removing e rest)) :
    Drains s₀ c now
      ({ s with mq := s.mq.remove (s.heap c).address e.key }.setFlush c (.sending rest))
        (sent ++ [e]) ∧
      (s.mq.waiting (s₀.heap c).address now).length =
        ((s.mq.remove (s.heap c).address e.key).waiting (s₀.heap c).address now).length + 1 := by
  have hplaced := h.placed
  have hhand := h.inHand
  rw [hflush] at hplaced hhand
  obtain ⟨tail, htail⟩ := hhand
  have hwait : (s.mq.remove (s.heap c).address e.key).waiting (s₀.heap c).address now =
      rest ++ tail := by
    have hsorted : (s.mq.waiting (s₀.heap c).address now).Pairwise (fun e e' => e.key < e'.key) :=
      MessageQueue.waiting_sorted
    rw [← htail, List.cons_append, List.pairwise_cons] at hsorted
    rw [haddr, MessageQueue.waiting_remove, ← htail, List.cons_append, List.filter_cons_of_neg (by simp)]
    exact List.filter_eq_self.mpr fun e' he' => by simpa using (hsorted.1 e' he').ne'
  refine ⟨⟨?_, fun x => ?_, ?_, ?_⟩, ?_⟩
  · simp only [setFlush, modify_mq, hwait]
    rw [h.waiting, ← htail]
    simp
  · simp only [setFlush, modify_mq, haddr, MessageQueue.mem_remove, h.bucket, List.mem_append,
      List.mem_singleton]
    constructor
    · rintro ⟨⟨hx, hsent⟩, hne⟩
      refine ⟨hx, ?_⟩
      rintro e' (he' | rfl)
      · exact hsent e' he'
      · exact (hne trivial).symm
    · rintro ⟨hx, hsent⟩
      exact ⟨⟨hx, fun e' he' => hsent e' (.inl he')⟩, fun _ => (hsent e (.inr rfl)).symm⟩
  · simp only [setFlush, modify_placed, hplaced, heap_modify_self, offered]
    simp
  · simp only [setFlush, modify_mq, hwait, heap_modify_self]
    exact List.prefix_append rest tail
  · rw [hwait, ← htail]
    simp

/-- Every step of the flush brings it nearer to its end. -/
theorem Drains.own (h : Drains s₀ c now s sent) (hatt : Attached s₀ c s)
    (hp : s.panicked = false) (hroom : s.roomToFlush (.flushStep c now true) = true)
    (hstep : s.step (.flushStep c now true) = some t) :
    ∃ sent', Drains s₀ c now t sent' ∧
      stepsLeft (t.mq.waiting (s₀.heap c).address now).length (t.heap c).flush <
        stepsLeft (s.mq.waiting (s₀.heap c).address now).length (s.heap c).flush := by
  rw [step_flushStep hp, flushQueuedMessages] at hstep
  have hhand := h.inHand
  cases hflush : (s.heap c).flush with
  | none => simp [hflush] at hstep
  | some pc =>
    rw [hflush] at hhand
    simp only [hflush, Option.bind_some] at hstep
    cases pc with
    | checkCtx =>
      rw [hatt.cancelled] at hstep
      obtain rfl := Option.some.inj hstep
      exact ⟨sent, h.moved s.clock (by rw [hflush]; rfl) rfl trivial, by simp [stepsLeft]⟩
    | flushBatch =>
      obtain rfl := Option.some.inj hstep
      rw [MessageQueue.flushBatch_eq, hatt.address]
      by_cases hnil : s.mq.waiting (s₀.heap c).address now = []
      · rw [hnil, List.take_nil, if_pos rfl]
        exact ⟨sent, h.moved now (by rw [hflush]; rfl) rfl hnil, by simp [stepsLeft]⟩
      · have hbatch : (s.mq.waiting (s₀.heap c).address now).take flushBatchSize ≠ [] := by
          simpa [List.take_eq_nil_iff, flushBatchSize] using hnil
        rw [if_neg hbatch]
        refine ⟨sent, h.moved now (by rw [hflush]; rfl) rfl (List.take_prefix _ _), ?_⟩
        have hpos := List.length_pos_of_ne_nil hbatch
        simp only [setFlush, modify_mq, heap_modify_self, stepsLeft]
        omega
    | sending es =>
      cases es with
      | nil =>
        obtain rfl := Option.some.inj hstep
        exact ⟨sent, h.moved s.clock (by rw [hflush]; rfl) rfl trivial, by simp [stepsLeft]⟩
      | cons e rest =>
        obtain rfl := Option.some.inj hstep
        have hlen : (s.heap c).send.length < sendBufferSize := by
          simpa only [roomToFlush, hflush, decide_eq_true_eq] using hroom
        have hacc : s.accepts c = true := by simp [accepts, hatt.closed, hlen]
        refine ⟨sent, h.offer hacc hflush, ?_⟩
        have hle := hhand.length_le
        simp only [setFlush, modify_mq, send_mq, heap_modify_self, stepsLeft]
        rw [List.length_cons] at hle ⊢
        omega
    | removing e rest =>
      obtain rfl := Option.some.inj hstep
      obtain ⟨hdrains, hlen⟩ := h.removed hatt.address hflush
      refine ⟨sent ++ [e], hdrains, ?_⟩
      have hle := hhand.length_le
      rw [List.length_cons] at hle
      simp only [setFlush, modify_mq, heap_modify_self, stepsLeft, if_true]
      omega
    | clearing =>
      obtain rfl := Option.some.inj hstep
      refine ⟨sent, ⟨h.waiting, h.bucket, ?_, ?_⟩, by simp [stepsLeft]⟩
      · have hplaced := h.placed
        rw [hflush] at hplaced
        simpa [offered] using hplaced
      · simpa [Hub.inHand] using hhand

theorem Drains.start (hflush : (s.heap c).flush = some .checkCtx) : Drains s c now s [] :=
  ⟨rfl, by simp, by simp [hflush, offered], by simp [hflush, Hub.inHand]⟩

/-- A flush that is over has sent all that was waiting. -/
theorem Drains.done (h : Drains s₀ c now s sent) (hdone : (s.heap c).flush = none) :
    s₀.mq.waiting (s₀.heap c).address now = sent ∧
      flushedTo c s.placed = flushedTo c s₀.placed ++ sent.map QueueEntry.item := by
  have hhand := h.inHand
  have hplaced := h.placed
  rw [hdone] at hhand hplaced
  have hnil : s.mq.waiting (s₀.heap c).address now = [] := hhand
  have hwait := h.waiting
  rw [hnil, List.append_nil] at hwait
  have hnone : offered none = [] := rfl
  rw [hnone, List.append_nil] at hplaced
  exact ⟨hwait, hplaced⟩

theorem tidy_of_run {mq : MessageQueue Parcel} {blockStore : BlockStore} {l : List HubLabel}
    (h : Run step (fun _ _ => True) (start mq blockStore) l s) : Tidy s :=
  h.invariant (.start mq blockStore) fun _ _ _ htidy _ hstep => (Step.of_step hstep).2.tidy htidy

theorem drains_of_run {l : List HubLabel} (htidy : Tidy s₀)
    (hflush : (s₀.heap c).flush = some .checkCtx)
    (hconn : (s₀.heap c).closed = false ∧ (s₀.heap c).cancelled = false)
    (h : Run step (LeftAlone c now) s₀ l s) :
    Attached s₀ c s ∧ (∃ sent, Drains s₀ c now s sent) ∧
      l.countP (HubLabel.flushes c) +
        stepsLeft (s.mq.waiting (s₀.heap c).address now).length (s.heap c).flush ≤
          5 * (s₀.mq.waiting (s₀.heap c).address now).length + 3 := by
  induction h with
  | nil =>
    have hborn := htidy.born_flush c (by simp [hflush])
    have hreg : s₀.run.registering ≠ some c := fun hreg => by
      simp [(htidy.registering c hreg).2] at hflush
    exact ⟨⟨htidy, hborn, hreg, rfl, rfl, hconn.1, hconn.2⟩, ⟨[], .start hflush⟩,
      by simp [hflush, stepsLeft]⟩
  | @snoc l s t label h hok hstep ih =>
    obtain ⟨hatt, ⟨sent, hdrains⟩, hsteps⟩ := ih
    obtain ⟨hp, hs⟩ := Step.of_step hstep
    refine ⟨hatt.step hs (hok.connected t hstep), ?_⟩
    rw [List.countP_append, List.countP_singleton]
    cases hlabel : label.flushes c with
    | false =>
      have hbucket := hok.others hlabel t hstep
      have hnext := hdrains.other hatt hs hlabel hbucket
      rw [hatt.address] at hbucket
      have hwait : t.mq.waiting (s₀.heap c).address now = s.mq.waiting (s₀.heap c).address now := by
        rw [MessageQueue.waiting, MessageQueue.waiting, hbucket, hs.ttl]
      refine ⟨⟨sent, hnext⟩, ?_⟩
      rw [hwait, hatt.flush_eq hs hlabel]
      simpa using hsteps
    | true =>
      cases label with
      | flushStep d now' ok =>
        obtain rfl : d = c := by simpa [HubLabel.flushes] using hlabel
        obtain ⟨rfl, rfl, hroom⟩ := hok.own now' ok rfl
        obtain ⟨sent', hnext, hless⟩ := hdrains.own hatt hp hroom hstep
        refine ⟨⟨sent', hnext⟩, ?_⟩
        simp only [if_true]
        omega
      | _ => simp [HubLabel.flushes] at hlabel

/-- A flush that is left alone ends. It has then sent what could be sent, once and in the order
of the keys, and has left the rest in the queue. -/
theorem flush_drains_queue {mq : MessageQueue Parcel} {blockStore : BlockStore}
    {l₀ l : List HubLabel} (hreach : Run step (fun _ _ => True) (start mq blockStore) l₀ s₀)
    (hflush : (s₀.heap c).flush = some .checkCtx)
    (hconn : (s₀.heap c).closed = false ∧ (s₀.heap c).cancelled = false)
    (h : Run step (LeftAlone c now) s₀ l s) :
    l.countP (HubLabel.flushes c) ≤ 5 * (s₀.mq.waiting (s₀.heap c).address now).length + 3 ∧
    ((s.heap c).flush ≠ none → s.panicked = false →
      (s.step (.flushStep c now true)).isSome = true) ∧
    ((s.heap c).flush = none →
      flushedTo c s.placed = flushedTo c s₀.placed ++
        (s₀.mq.waiting (s₀.heap c).address now).map QueueEntry.item ∧
      (∀ x, x ∈ (s.mq.bucket (s₀.heap c).address).messages ↔
        x ∈ (s₀.mq.bucket (s₀.heap c).address).messages ∧
          Bucket.live s₀.mq.ttl now x = none) ∧
      (s.heap c).flushing = false) := by
  obtain ⟨hatt, ⟨sent, hdrains⟩, hsteps⟩ := drains_of_run (tidy_of_run hreach) hflush hconn h
  refine ⟨by omega, fun hrunning hp => ?_, fun hdone => ?_⟩
  · obtain ⟨pc, hpc⟩ := Option.ne_none_iff_exists'.1 hrunning
    rw [step_flushStep hp, flushQueuedMessages, hpc, Option.bind_some]
    cases pc with
    | sending es => cases es <;> rfl
    | _ => rfl
  · obtain ⟨hwait, hplaced⟩ := hdrains.done hdone
    refine ⟨by rw [hplaced, hwait], fun x => ?_, ?_⟩
    · rw [hdrains.bucket, ← hwait]
      refine and_congr_right fun hx => ⟨fun hkeys => ?_, fun hdead e he heq => ?_⟩
      · by_contra hlive
        obtain ⟨e, he⟩ := Option.ne_none_iff_exists'.1 hlive
        obtain ⟨msg, rfl, -⟩ := Bucket.live_eq_some.mp he
        exact hkeys e (List.mem_filterMap.2 ⟨_, hx, he⟩) rfl
      · obtain ⟨y, hy, hlive⟩ := List.mem_filterMap.1 he
        obtain ⟨msg, rfl, -⟩ := Bucket.live_eq_some.mp hlive
        obtain rfl : x = (e.key, some msg) :=
          Prod.ext heq.symm (SortedMap.eq_of_mem (k := e.key) (by rw [heq]; exact hx) hy)
        rw [hdead] at hlive
        simp at hlive
    · rw [(hatt.tidy.settled c).flag, hdone]
      rfl

/-- A flush step that is left alone, as a check. -/
def calm (s : Hub) (label : HubLabel) : Bool :=
  label = .flushStep 0 0 true && s.roomToFlush label &&
    (s.step label).all fun t => !(t.heap 0).closed && !(t.heap 0).cancelled

theorem LeftAlone.of_calm (h : s.calm label = true) : LeftAlone 0 0 s label := by
  simp only [calm, Bool.and_eq_true, decide_eq_true_eq] at h
  obtain ⟨⟨rfl, hroom⟩, hall⟩ := h
  refine ⟨fun t ht => ?_, fun now' ok heq => ?_, fun hlabel => by simp [HubLabel.flushes] at hlabel⟩
  · rw [ht] at hall
    simpa using hall
  · cases heq
    exact ⟨rfl, rfl, hroom⟩

/-- A letter, an expired one and a corrupt value. -/
def oldMail : MessageQueue Parcel :=
  (MessageQueue.new 1000 100).setBucket "bob"
    ⟨3, ((SortedMap.empty.put (encodeKey (-200) 1) (some ⟨-200, "amy", ⟨toBob, 0⟩⟩)).put
      (encodeKey 0 2) none).put (letter 2).key (some ⟨0, "alice", (letter 2).envelope⟩),
      by decide +kernel⟩

def beforeFlush : Hub :=
  (exec step (fun _ _ => True) (start oldMail ⟨[]⟩)
    [.register "bob", .run true, .run true, .run true]).get (by decide +kernel)

def afterFlush : Hub :=
  (exec step (fun s x => s.calm x = true) beforeFlush
    (List.replicate 8 (.flushStep 0 0 true))).get (by decide +kernel)

theorem flush_drains_queue_oldMail :
    flushedTo 0 afterFlush.placed = [.queued (letter 2).key "alice" (letter 2).envelope] ∧
    (afterFlush.mq.bucket "bob").messages.entries.map Prod.fst =
      [encodeKey 0 2, encodeKey (-200) 1] ∧
    (afterFlush.heap 0).flushing = false := by
  have hrun : Run step (LeftAlone 0 0) beforeFlush _ afterFlush :=
    Run.imp (Run.of_exec (Option.some_get _).symm) fun _ _ => LeftAlone.of_calm
  obtain ⟨-, -, hdone⟩ := flush_drains_queue (Run.of_exec (Option.some_get _).symm)
    (by decide +kernel) (by decide +kernel) hrun
  obtain ⟨hplaced, -, hflag⟩ := hdone (by decide +kernel)
  exact ⟨hplaced.trans (by decide +kernel), by decide +kernel, hflag⟩

end Hub

end Pinch
