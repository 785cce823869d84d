import Pinch.QueueLaws

/-! The database as the queue that the hub works with: a bucket of byte keys stands for
one of time stamps and sequence numbers, and every call keeps it so. -/

namespace Pinch

open Transition

variable {ε : Type} {k k' : QueueKey} {ttl now : Int64}

/-- Both halves of the key fit into eight bytes. -/
def Fits (k : QueueKey) : Prop := (ofLex k).1 < 2 ^ 64 ∧ (ofLex k).2 < 2 ^ 64

theorem keyBytes_inj (hk : Fits k) (hk' : Fits k') (h : keyBytes k = keyBytes k') : k = k' := by
  rcases lt_trichotomy k k' with hlt | heq | hgt
  · have hbytes := (keyBytes_lt_iff hk.1 hk'.1 hk.2 hk'.2).2 hlt
    exact absurd h hbytes.ne
  · exact heq
  · have hbytes := (keyBytes_lt_iff hk'.1 hk.1 hk'.2 hk.2).2 hgt
    exact absurd h hbytes.ne'

def stored (y : QueueKey × Option (QueuedMessage ε)) : Bytes × Option (QueuedMessage ε) :=
  (keyBytes y.1, y.2)

def QueueEntry.stored (e : QueueEntry ε) : StoredEntry ε :=
  ⟨keyBytes e.key, e.envelope, e.senderAddr⟩

theorem live_stored_eq (y : QueueKey × Option (QueuedMessage ε)) :
    StoredBucket.live ttl now (stored y) = (Bucket.live ttl now y).map QueueEntry.stored := by
  obtain ⟨k, _ | msg⟩ := y
  · rfl
  · cases hexp : expired ttl now msg.enqueuedAt with
    | true => simp [StoredBucket.live, Bucket.live, stored, hexp]
    | false => simp [StoredBucket.live, Bucket.live, stored, hexp, QueueEntry.stored]

/-- The bucket `b` of the database holds what `c` says. -/
structure Bucket.Stored (c : Bucket ε) (b : StoredBucket ε) : Prop where
  sequence : b.sequence = c.sequence
  sequence_lt : c.sequence < 2 ^ 64
  fits : ∀ y ∈ c.messages, Fits y.1
  mem : ∀ x, x ∈ b.entries ↔ ∃ y ∈ c.messages, stored y = x

namespace Bucket.Stored

variable {c : Bucket ε} {b : StoredBucket ε}

theorem empty : Stored (.empty : Bucket ε) .empty :=
  ⟨rfl, Nat.two_pow_pos 64, by simp [Bucket.empty], by simp [Bucket.empty, Bolt.Bucket.empty]⟩

theorem entries_eq (h : c.Stored b) : b.entries.entries = c.messages.entries.map stored := by
  have hsorted : (c.messages.entries.map stored).Pairwise (fun x y => x.1 < y.1) := by
    rw [List.pairwise_map]
    refine c.messages.sorted.imp_of_mem fun {y z} hy hz hlt => ?_
    obtain ⟨hy₁, hy₂⟩ := h.fits y hy
    obtain ⟨hz₁, hz₂⟩ := h.fits z hz
    exact (keyBytes_lt_iff hy₁ hz₁ hy₂ hz₂).2 hlt
  refine b.entries.sorted.eq_of_mem_iff hsorted fun x => ?_
  rw [List.mem_map]
  exact h.mem x

theorem size_eq (h : c.Stored b) : b.entries.size = c.messages.size := by
  rw [SortedMap.size, h.entries_eq, List.length_map, SortedMap.size]

theorem waiting_eq (h : c.Stored b) : StoredBucket.waiting b ttl now =
    (c.messages.entries.filterMap (live ttl now)).map QueueEntry.stored := by
  rw [StoredBucket.waiting, h.entries_eq, List.filterMap_map, List.map_filterMap]
  exact List.filterMap_congr fun y _ => live_stored_eq y

theorem enqueue (h : c.Stored b) (hleft : c.sequence + 1 < 2 ^ 64) (sender : String)
    (envelope : ε) (now : Int64) :
    (c.enqueue sender envelope now).Stored (QueueDatabase.queued b sender envelope now) := by
  have hkey : Fits (encodeKey now (c.sequence + 1)) := ⟨encodeKey_fst_lt _ _, hleft⟩
  refine ⟨congrArg (· + 1) h.sequence, hleft, fun y hy => ?_, fun x => ?_⟩
  · rcases mem_enqueue.1 hy with rfl | hy
    · exact hkey
    · exact h.fits y hy
  · rw [QueueDatabase.mem_queued, h.sequence, h.mem]
    constructor
    · rintro (rfl | ⟨⟨y, hy, rfl⟩, -⟩)
      · exact ⟨_, mem_enqueue.2 (.inl rfl), rfl⟩
      · exact ⟨y, mem_enqueue.2 (.inr hy), rfl⟩
    · rintro ⟨y, hy, rfl⟩
      rcases mem_enqueue.1 hy with rfl | hy
      · exact .inl rfl
      · have hne : y.1 ≠ encodeKey now (c.sequence + 1) := fst_ne_encodeKey hy
        exact .inr ⟨⟨y, hy, rfl⟩, fun heq => hne (keyBytes_inj (h.fits y hy) hkey heq)⟩

theorem remove (h : c.Stored b) (hk : Fits k) :
    (c.remove k).Stored (StoredBucket.removed b (keyBytes k)) := by
  refine ⟨h.sequence, h.sequence_lt, fun y hy => h.fits y (SortedMap.mem_erase.1 hy).1,
    fun x => ?_⟩
  rw [StoredBucket.removed, SortedMap.mem_erase, h.mem]
  constructor
  · rintro ⟨⟨y, hy, rfl⟩, hne⟩
    exact ⟨y, SortedMap.mem_erase.2 ⟨hy, fun heq => hne (congrArg keyBytes heq)⟩, rfl⟩
  · rintro ⟨y, hy, rfl⟩
    obtain ⟨hy, hne⟩ := SortedMap.mem_erase.1 hy
    exact ⟨⟨y, hy, rfl⟩, fun heq => hne (keyBytes_inj (h.fits y hy) hk heq)⟩

theorem sweep (h : c.Stored b) (ttl now : Int64) :
    (c.sweep ttl now).Stored (StoredBucket.swept b ttl now) := by
  refine ⟨h.sequence, h.sequence_lt, fun y hy => h.fits y (Bucket.mem_sweep.1 hy).1, fun x => ?_⟩
  have hlive : ∀ y, (StoredBucket.live ttl now (stored y)).isSome = true ↔
      live (ε := ε) ttl now y ≠ none := by
    intro y
    rw [live_stored_eq, Option.isSome_map, Option.isSome_iff_ne_none]
  rw [StoredBucket.mem_swept, h.mem]
  constructor
  · rintro ⟨⟨y, hy, rfl⟩, hx⟩
    exact ⟨y, Bucket.mem_sweep.2 ⟨hy, (hlive y).1 hx⟩, rfl⟩
  · rintro ⟨y, hy, rfl⟩
    obtain ⟨hy, hx⟩ := Bucket.mem_sweep.1 hy
    exact ⟨⟨y, hy, rfl⟩, (hlive y).2 hx⟩

end Bucket.Stored

namespace QueueDatabase

variable {db : QueueDatabase ε} {mq : MessageQueue ε} {r sender : String} {envelope : ε} {n : ℤ}

structure Represents (db : QueueDatabase ε) (mq : MessageQueue ε) : Prop where
  cap : db.maxPerAgent = mq.maxPerAgent
  ttl : db.ttl = mq.ttl
  bucket : ∀ a, (mq.bucket a).Stored (db.bucket a)

theorem Represents.new (maxPerAgent : ℤ) (ttl : Int64) :
    Represents (new maxPerAgent ttl : QueueDatabase ε) (.new maxPerAgent ttl) :=
  ⟨rfl, rfl, fun _ => .empty⟩

theorem Represents.flushBatch (h : Represents db mq) :
    db.flushBatch r n now = .ok ((mq.flushBatch r n.toNat now).map QueueEntry.stored) := by
  rw [flushBatch_eq, (h.bucket r).waiting_eq, MessageQueue.flushBatch_eq, h.ttl, List.map_take]
  rfl

theorem Represents.count (h : Represents db mq) : db.count r = mq.count r := by
  rw [count_eq, (h.bucket r).size_eq]
  rfl

/-- `Enqueue` at the hub's level and in the database succeed together. -/
theorem Represents.enqueue (h : Represents db mq) (hr : r ≠ "")
    (hleft : (mq.bucket r).sequence + 1 < 2 ^ 64) :
    match mq.enqueue r sender envelope now with
    | .ok mq' => ∃ db', db.enqueue r sender envelope now = (.ok (), db') ∧ Represents db' mq'
    | .error .queueFull => db.enqueue r sender envelope now = (.error .queueFull, db) := by
  rw [enqueue_eq, if_neg hr, h.cap, h.count]
  by_cases hfull : mq.maxPerAgent ≤ mq.count r
  · have hmq : mq.enqueue r sender envelope now = .error .queueFull := if_pos hfull
    rw [hmq, if_pos hfull]
  · have hmq : mq.enqueue r sender envelope now = .ok (mq.setBucket r
        ((mq.bucket r).enqueue sender envelope now)) := if_neg hfull
    rw [hmq, if_neg hfull]
    refine ⟨_, rfl, h.cap, h.ttl, fun a => ?_⟩
    by_cases ha : a = r
    · subst ha
      rw [bucket_setBucket_self, MessageQueue.bucket_setBucket_self]
      exact (h.bucket a).enqueue hleft sender envelope now
    · rw [bucket_setBucket_of_ne ha, MessageQueue.bucket_setBucket_of_ne ha]
      exact h.bucket a

theorem Represents.remove (h : Represents db mq) (hk : Fits k) :
    ∃ db', db.remove r (keyBytes k) = (.ok (), db') ∧ Represents db' (mq.remove r k) := by
  obtain ⟨db', heq, hmax, httl, hself, hne⟩ := remove_eq db r (keyBytes k)
  have hcap : (mq.remove r k).maxPerAgent = mq.maxPerAgent := by
    unfold MessageQueue.remove
    split <;> rfl
  refine ⟨db', heq, by rw [hmax, h.cap, hcap], by rw [httl, h.ttl, MessageQueue.ttl_remove],
    fun a => ?_⟩
  by_cases ha : a = r
  · subst ha
    rw [hself, MessageQueue.bucket_remove_self]
    exact (h.bucket a).remove hk
  · rw [hne a ha, MessageQueue.bucket_remove_of_ne ha]
    exact h.bucket a

theorem Represents.sweep (h : Represents db mq) :
    ∃ total db', db.sweep now = (.ok total, db') ∧ Represents db' (mq.sweep now).2 := by
  obtain ⟨db', heq, hmax, httl, hswept⟩ := sweep_eq db now
  refine ⟨_, db', heq, hmax.trans h.cap, httl.trans h.ttl, fun a => ?_⟩
  rw [hswept, MessageQueue.bucket_sweep, h.ttl]
  exact (h.bucket a).sweep mq.ttl now

end QueueDatabase

/-- The calls that the hub makes to change a queue, with keys as it has them. -/
inductive QueueOp (ε : Type)
  | enqueue (recipientAddr senderAddr : String) (envelope : ε) (now : Int64)
  | remove (recipientAddr : String) (key : QueueKey)
  | sweep (now : Int64)

namespace QueueOp

def call : QueueOp ε → QueueCall ε
  | enqueue r sender envelope now => .enqueue r sender envelope now
  | remove r k => .remove r (keyBytes k)
  | sweep now => .sweep now

def apply (mq : MessageQueue ε) : QueueOp ε → MessageQueue ε
  | enqueue r sender envelope now =>
    match mq.enqueue r sender envelope now with
    | .ok mq' => mq'
    | .error _ => mq
  | remove r k => mq.remove r k
  | sweep now => (mq.sweep now).2

/-- The recipient has a name, and the numbers fit into eight bytes. -/
def Fits (mq : MessageQueue ε) : QueueOp ε → Prop
  | enqueue r _ _ _ => r ≠ "" ∧ (mq.bucket r).sequence + 1 < 2 ^ 64
  | remove _ k => Pinch.Fits k
  | sweep _ => True

end QueueOp

namespace QueueDatabase

variable {db : QueueDatabase ε} {mq : MessageQueue ε}

theorem Represents.step {op : QueueOp ε} (h : Represents db mq) (hfits : op.Fits mq) :
    ∃ db', db.step op.call = some db' ∧ Represents db' (op.apply mq) := by
  cases op with
  | enqueue r sender envelope now =>
    have henqueue : match mq.enqueue r sender envelope now with
        | .ok mq' => ∃ db', db.enqueue r sender envelope now = (.ok (), db') ∧ Represents db' mq'
        | .error .queueFull => db.enqueue r sender envelope now = (.error .queueFull, db) :=
      h.enqueue hfits.1 hfits.2
    simp only [QueueOp.call, QueueOp.apply, QueueDatabase.step]
    revert henqueue
    cases mq.enqueue r sender envelope now with
    | ok mq' =>
      rintro ⟨db', heq, hdb'⟩
      exact ⟨db', by rw [heq], hdb'⟩
    | error e =>
      cases e with
      | queueFull => exact fun heq => ⟨db, by rw [heq], h⟩
  | remove r k =>
    obtain ⟨db', heq, hdb'⟩ : ∃ db', db.remove r (keyBytes k) = (.ok (), db') ∧
      Represents db' (mq.remove r k) := h.remove hfits
    exact ⟨db', by simp only [QueueOp.call, QueueDatabase.step, heq], hdb'⟩
  | sweep now =>
    obtain ⟨total, db', heq, hdb'⟩ : ∃ total db', db.sweep now = (.ok total, db') ∧
      Represents db' (mq.sweep now).2 := h.sweep
    exact ⟨db', by simp only [QueueOp.call, QueueDatabase.step, heq], hdb'⟩

/-- The database follows the hub's queue through every run, and answers as it does. -/
theorem represents_of_run {maxPerAgent : ℤ} {ttl : Int64} {l : List (QueueOp ε)}
    (h : Run (fun mq op => some (op.apply mq)) (fun mq op => op.Fits mq) (.new maxPerAgent ttl) l mq) :
    ∃ db, Run step (fun _ _ => True) (new maxPerAgent ttl) (l.map QueueOp.call) db ∧
      Represents db mq ∧ (∀ r, db.count r = mq.count r) ∧
      ∀ r n now, db.flushBatch r n now =
        .ok ((mq.flushBatch r n.toNat now).map QueueEntry.stored) := by
  have hsim : ∃ db, Run step (fun _ _ => True) (new maxPerAgent ttl) (l.map QueueOp.call) db ∧
      Represents db mq := by
    induction h with
    | nil => exact ⟨_, .nil, .new maxPerAgent ttl⟩
    | snoc _ hfits hs ih =>
      obtain ⟨db, hrun, hdb⟩ := ih
      obtain ⟨db', hstep, hdb'⟩ := hdb.step hfits
      obtain rfl := Option.some.inj hs
      refine ⟨db', ?_, hdb'⟩
      rw [List.map_append]
      exact .snoc hrun trivial hstep
  obtain ⟨db, hrun, hdb⟩ := hsim
  exact ⟨db, hrun, hdb, fun r => hdb.count, fun r n now => hdb.flushBatch⟩

end QueueDatabase

end Pinch
