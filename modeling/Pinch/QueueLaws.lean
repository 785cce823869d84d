import Pinch.QueueDatabase
import Pinch.Transition

/-! What any sequence of calls leaves in the queue: the keys, the order, the bound and
the expired entries. -/

namespace Pinch

open Transition

inductive QueueCall (ε : Type)
  | enqueue (recipientAddr senderAddr : String) (envelope : ε) (now : Int64)
  | flushBatch (recipientAddr : String) (batchSize : ℤ) (now : Int64)
  | remove (recipientAddr : String) (key : Bytes)
  | sweep (now : Int64)

variable {ε : Type}

def QueueCall.reading : QueueCall ε → Option Int64
  | .enqueue _ _ _ now | .flushBatch _ _ now | .sweep now => some now
  | .remove _ _ => none

def readings (l : List (QueueCall ε)) : List Int64 := l.filterMap QueueCall.reading

/-- The clock is never negative and never goes back. -/
def ClockForward (l : List (QueueCall ε)) : Prop :=
  (∀ t ∈ readings l, 0 ≤ t) ∧ (readings l).Pairwise (· ≤ ·)

section

variable {l : List (QueueCall ε)} {call : QueueCall ε} {now : Int64}

theorem readings_snoc (l : List (QueueCall ε)) (call : QueueCall ε) :
    readings (l ++ [call]) = readings l ++ call.reading.toList := by
  rw [readings, List.filterMap_append]
  cases hcall : call.reading <;> simp [readings, hcall]

theorem ClockForward.before (h : ClockForward (l ++ [call])) : ClockForward l := by
  rw [ClockForward, readings_snoc, List.pairwise_append] at h
  exact ⟨fun t ht => h.1 t (List.mem_append_left _ ht), h.2.1⟩

theorem ClockForward.le (h : ClockForward (l ++ [call]))
    (hnow : call.reading = some now) : ∀ t ∈ readings l, t ≤ now := by
  rw [ClockForward, readings_snoc, List.pairwise_append, hnow] at h
  exact fun t ht => h.2.2.2 t ht now (List.mem_singleton_self now)

theorem ClockForward.nonneg (h : ClockForward (l ++ [call]))
    (hnow : call.reading = some now) : 0 ≤ now := by
  refine h.1 now ?_
  rw [readings_snoc, hnow]
  exact List.mem_append_right _ (List.mem_singleton_self now)

end

namespace QueueDatabase

variable {db db' : QueueDatabase ε} {call : QueueCall ε} {l : List (QueueCall ε)} {r a : String}
  {maxPerAgent : ℤ} {ttl : Int64}

/-- `FlushBatch` is run here as if its transaction could write. -/
def step (db : QueueDatabase ε) : QueueCall ε → Option (QueueDatabase ε)
  | .enqueue r sender envelope now => some (db.enqueue r sender envelope now).2
  | .flushBatch r n now => some (db.update (flushTx db.ttl r n now)).2
  | .remove r k => some (db.remove r k).2
  | .sweep now => some (db.sweep now).2

def hasRoom (db : QueueDatabase ε) (r : String) : Prop := r ≠ "" ∧ db.count r < db.maxPerAgent

instance : Decidable (db.hasRoom r) := inferInstanceAs (Decidable (_ ∧ _))

/-- What a call makes of the bucket of `a`. -/
def effect (db : QueueDatabase ε) (a : String) : QueueCall ε → StoredBucket ε
  | .enqueue r sender envelope now =>
    if a = r ∧ db.hasRoom r then queued (db.bucket a) sender envelope now else db.bucket a
  | .flushBatch _ _ _ => db.bucket a
  | .remove r k => if a = r then StoredBucket.removed (db.bucket a) k else db.bucket a
  | .sweep now => StoredBucket.swept (db.bucket a) db.ttl now

theorem enqueue_of_hasRoom {sender : String} {envelope : ε} {now : Int64} (h : db.hasRoom r) :
    db.enqueue r sender envelope now =
      (.ok (), db.setBucket r (queued (db.bucket r) sender envelope now)) := by
  rw [enqueue_eq, if_neg h.1, if_neg (by have := h.2; omega)]

theorem enqueue_of_not_hasRoom (sender : String) (envelope : ε) (now : Int64)
    (h : ¬ db.hasRoom r) : ∃ fault, db.enqueue r sender envelope now = (.error fault, db) := by
  rw [enqueue_eq]
  by_cases hr : r = ""
  · exact ⟨_, if_pos hr⟩
  · have hfull : db.maxPerAgent ≤ db.count r := not_lt.1 fun hlt => h ⟨hr, hlt⟩
    exact ⟨_, by rw [if_neg hr, if_pos hfull]⟩

theorem update_flushTx (n : ℤ) (now : Int64) : (db.update (flushTx db.ttl r n now)).2 = db := by
  have hrun : ∃ batch, (flushTx db.ttl r n now).run db.root = .ok batch db.root := by
    unfold flushTx
    cases hsub : db.root.lookup r <;> simp [hsub]
  obtain ⟨batch, hrun⟩ := hrun
  rw [update, Bolt.update_ok hrun]

theorem step_bucket (h : db.step call = some db') :
    db'.maxPerAgent = db.maxPerAgent ∧ db'.ttl = db.ttl ∧ ∀ a, db'.bucket a = db.effect a call := by
  cases call with
  | enqueue r sender envelope now =>
    obtain rfl := Option.some.inj h
    by_cases hroom : db.hasRoom r
    · rw [enqueue_of_hasRoom hroom]
      refine ⟨rfl, rfl, fun a => ?_⟩
      by_cases ha : a = r
      · rw [effect, if_pos ⟨ha, hroom⟩, ha, bucket_setBucket_self]
      · rw [effect, if_neg fun hh => ha hh.1, bucket_setBucket_of_ne ha]
    · obtain ⟨fault, heq⟩ := enqueue_of_not_hasRoom sender envelope now hroom
      rw [heq]
      exact ⟨rfl, rfl, fun a => by rw [effect, if_neg fun hh => hroom hh.2]⟩
  | flushBatch r n now =>
    obtain rfl := Option.some.inj h
    rw [update_flushTx]
    exact ⟨rfl, rfl, fun a => rfl⟩
  | remove r k =>
    obtain ⟨db₁, heq, hmax, httl, hself, hne⟩ := remove_eq db r k
    obtain rfl : db₁ = db' := by simpa [step, heq] using h
    refine ⟨hmax, httl, fun a => ?_⟩
    by_cases ha : a = r
    · rw [effect, if_pos ha, ha, hself]
    · rw [effect, if_neg ha, hne a ha]
  | sweep now =>
    obtain ⟨db₁, heq, hmax, httl, hswept⟩ := sweep_eq db now
    obtain rfl : db₁ = db' := by simpa [step, heq] using h
    exact ⟨hmax, httl, hswept⟩

section Bound

/-- No bucket has grown past the cap, and no bucket without a name has been made. -/
structure Capped (maxPerAgent : ℤ) (db : QueueDatabase ε) : Prop where
  cap : db.maxPerAgent = maxPerAgent
  count_le : ∀ r, db.count r ≤ maxPerAgent
  nameless : db.count "" = 0

theorem Capped.new (hmax : 1 ≤ maxPerAgent) (ttl : Int64) :
    Capped maxPerAgent (new maxPerAgent ttl : QueueDatabase ε) :=
  ⟨rfl, fun r => by simp only [count_eq]; exact Int.le_of_lt hmax, by rw [count_eq]; rfl⟩

/-- Only a call that finds room lets a bucket grow, and then by one entry. -/
theorem size_effect (db : QueueDatabase ε) (a : String) (call : QueueCall ε) :
    (db.effect a call).entries.size ≤ db.count a ∨
      db.hasRoom a ∧ (db.effect a call).entries.size ≤ db.count a + 1 := by
  rw [count_eq]
  cases call with
  | enqueue r sender envelope now =>
    rw [effect]
    split
    · rename_i hroom
      exact .inr ⟨hroom.1 ▸ hroom.2, SortedMap.size_put_le _ _ _⟩
    · exact .inl le_rfl
  | flushBatch r n now => exact .inl le_rfl
  | remove r k =>
    rw [effect]
    split
    · exact .inl (SortedMap.size_erase_le _ k)
    · exact .inl le_rfl
  | sweep now => exact .inl (SortedMap.size_foldl_erase_le _)

theorem Capped.step (h : Capped maxPerAgent db) (hs : db.step call = some db') :
    Capped maxPerAgent db' := by
  obtain ⟨hmax, -, hbucket⟩ := step_bucket hs
  have hcap := h.cap
  refine ⟨hmax.trans hcap, fun r => ?_, ?_⟩
  · have hle := h.count_le r
    rw [count_eq, hbucket]
    rcases size_effect db r call with hsize | ⟨⟨-, hlt⟩, hsize⟩ <;> omega
  · have hzero := h.nameless
    rw [count_eq, hbucket]
    rcases size_effect db "" call with hsize | ⟨⟨hname, -⟩, -⟩
    · omega
    · exact absurd rfl hname

theorem Capped.enqueue_full_iff (h : Capped maxPerAgent db) (hmax : 1 ≤ maxPerAgent)
    (sender : String) (envelope : ε) (now : Int64) :
    (db.enqueue r sender envelope now).1 = .error .queueFull ↔ db.count r = maxPerAgent := by
  have hle := h.count_le r
  have hcap := h.cap
  rw [enqueue_eq]
  by_cases hr : r = ""
  · have hzero : db.count r = 0 := hr ▸ h.nameless
    simp [hr, h.nameless]
    omega
  · rw [if_neg hr]
    by_cases hfull : db.maxPerAgent ≤ db.count r
    · simp [hfull]
      omega
    · simp [hfull]
      omega

theorem queue_bounded (hmax : 1 ≤ maxPerAgent)
    (h : Run step (fun _ _ => True) (new maxPerAgent ttl : QueueDatabase ε) l db) :
    (∀ r, db.count r ≤ maxPerAgent) ∧
    (∀ r sender envelope now,
      ((db.enqueue r sender envelope now).1 = .error .queueFull ↔ db.count r = maxPerAgent) ∧
      ((db.enqueue r sender envelope now).1 = .error .queueFull →
        (db.enqueue r sender envelope now).2 = db)) ∧
    (∀ r n now, db.step (.flushBatch r n now) = some db) ∧
    ∀ r a, a ≠ r →
      (∀ sender envelope now, (db.enqueue r sender envelope now).2.bucket a = db.bucket a) ∧
      ∀ k, (db.remove r k).2.bucket a = db.bucket a := by
  have hcapped : Capped maxPerAgent db :=
    h.invariant (.new hmax ttl) fun _ _ _ hinv _ hs => hinv.step hs
  refine ⟨hcapped.count_le, fun r sender envelope now =>
    ⟨hcapped.enqueue_full_iff hmax sender envelope now, fun hfull => ?_⟩,
    fun r n now => by rw [step, update_flushTx], fun r a ha => ⟨fun sender envelope now => ?_,
      fun k => ?_⟩⟩
  · have hroom : ¬ db.hasRoom r := fun hroom => by simp [enqueue_of_hasRoom hroom] at hfull
    obtain ⟨fault, heq⟩ := enqueue_of_not_hasRoom sender envelope now hroom
    rw [heq]
  · have hs : db.step (.enqueue r sender envelope now) =
        some (db.enqueue r sender envelope now).2 := rfl
    rw [(step_bucket hs).2.2, effect, if_neg fun hh => ha hh.1]
  · have hs : db.step (.remove r k) = some (db.remove r k).2 := rfl
    rw [(step_bucket hs).2.2, effect, if_neg ha]

def oneLetter : QueueDatabase Unit := ((new 1 100).enqueue "bob" "amy" () 5).2

theorem queue_bounded_oneLetter : oneLetter.count "bob" = 1 ∧
    (oneLetter.enqueue "bob" "eve" () 6).1 = .error .queueFull ∧
    (oneLetter.enqueue "bob" "eve" () 6).2 = oneLetter := by
  have hrun : Run step (fun _ _ => True) (new 1 100) [.enqueue "bob" "amy" () 5] oneLetter :=
    .snoc .nil trivial rfl
  obtain ⟨-, hfull, -, -⟩ := queue_bounded (by decide) hrun
  have hcount : oneLetter.count "bob" = 1 := by decide +kernel
  obtain ⟨hiff, hsame⟩ := hfull "bob" "eve" () 6
  have hone := hiff.2 (by rw [hcount]; rfl)
  exact ⟨hcount, hone, hsame hone⟩

end Bound

section Expiry

/-- The keys that are in a bucket of `db` and no longer in `db'`, with their recipients. -/
def gone (db db' : QueueDatabase ε) : List (String × Bytes) :=
  db.root.keys.flatMap fun a =>
    ((StoredBucket.keys (db.bucket a)).filter fun k =>
      k ∉ StoredBucket.keys (db'.bucket a)).map (a, ·)

theorem keys_swept (b : StoredBucket ε) (ttl now : Int64) :
    (StoredBucket.keys b).filter (fun k => k ∉ StoredBucket.keys (StoredBucket.swept b ttl now)) =
      StoredBucket.expiredKeys b ttl now := by
  have hkeys : StoredBucket.keys b = b.entries.entries.map Prod.fst := rfl
  rw [StoredBucket.expiredKeys_eq, hkeys, List.filter_map]
  congr 1
  refine List.filter_congr fun x hx => ?_
  have hmem : x.1 ∈ StoredBucket.keys (StoredBucket.swept b ttl now) ↔
      (StoredBucket.live ttl now x).isSome = true := by
    rw [StoredBucket.keys, List.mem_map]
    constructor
    · rintro ⟨⟨k, v⟩, hy, rfl⟩
      obtain ⟨hy, hlive⟩ := StoredBucket.mem_swept.1 hy
      rwa [show x = (x.1, v) from Prod.ext rfl (SortedMap.eq_of_mem (v := x.2) hx hy)]
    · exact fun hlive => ⟨x, StoredBucket.mem_swept.2 ⟨hx, hlive⟩, rfl⟩
  cases hlive : StoredBucket.live ttl now x <;> simp [hmem, hlive]

/-- An entry is flushed by some batch exactly if it is live. -/
theorem mem_flushBatch_iff {x : Bytes × Option (QueuedMessage ε)} {now : Int64}
    (hx : x ∈ (db.bucket r).entries) :
    (∃ n batch, db.flushBatch r n now = .ok batch ∧ ∃ e ∈ batch, e.key = x.1) ↔
      (StoredBucket.live db.ttl now x).isSome = true := by
  constructor
  · rintro ⟨n, batch, hbatch, e, he, hkey⟩
    rw [flushBatch_eq, Except.ok.injEq] at hbatch
    obtain ⟨y, hy, hlive⟩ := StoredBucket.mem_waiting.1
      (List.mem_of_mem_take (hbatch ▸ he))
    have hfst : y.1 = x.1 := (StoredBucket.live_key hlive).symm.trans hkey
    obtain rfl : y = x :=
      Prod.ext hfst (SortedMap.eq_of_mem (k := x.1) (by rw [← hfst]; exact hy) hx)
    rw [hlive]
    rfl
  · intro hlive
    obtain ⟨e, he⟩ := Option.isSome_iff_exists.1 hlive
    have hmem : e ∈ StoredBucket.waiting (db.bucket r) db.ttl now :=
      StoredBucket.mem_waiting.2 ⟨x, hx, he⟩
    refine ⟨(StoredBucket.waiting (db.bucket r) db.ttl now).length, _, flushBatch_eq, e, ?_,
      StoredBucket.live_key he⟩
    rwa [Int.toNat_natCast, List.take_length]

theorem sweep_iff_never_flushed (db : QueueDatabase ε) (now : Int64) :
    (∀ r x, x ∈ ((db.sweep now).2.bucket r).entries ↔ x ∈ (db.bucket r).entries ∧
      ∃ n batch, db.flushBatch r n now = .ok batch ∧ ∃ e ∈ batch, e.key = x.1) ∧
    (db.sweep now).1 = .ok (gone db (db.sweep now).2).length ∧
    ∀ r n, (db.sweep now).2.flushBatch r n now = db.flushBatch r n now := by
  obtain ⟨db', hsweep, -, httl, hbucket⟩ := sweep_eq db now
  rw [hsweep]
  refine ⟨fun r x => ?_, ?_, fun r n => ?_⟩
  · rw [hbucket, StoredBucket.mem_swept]
    exact and_congr_right fun hx => (mem_flushBatch_iff hx).symm
  · simp only [gone, List.length_flatMap, List.length_map, hbucket, keys_swept]
  · rw [flushBatch_eq, flushBatch_eq, httl, hbucket, StoredBucket.waiting_swept fun _ _ h => h]

end Expiry

section Order

inductive QueueEvent (ε : Type)
  | queued (recipientAddr : String) (key : Bytes) (msg : QueuedMessage ε)
  | removed (recipientAddr : String) (key : Bytes)

def nextKey (db : QueueDatabase ε) (r : String) (now : Int64) : Bytes :=
  keyBytes (encodeKey now ((db.bucket r).sequence + 1))

/-- What a caller learns from a call. -/
def record (db : QueueDatabase ε) : QueueCall ε → Option (QueueEvent ε)
  | .enqueue r sender envelope now =>
    match (db.enqueue r sender envelope now).1 with
    | .ok () => some (.queued r (db.nextKey r now) ⟨now, sender, envelope⟩)
    | .error _ => none
  | .remove r k => some (.removed r k)
  | .flushBatch _ _ _ | .sweep _ => none

/-- The messages for `r` that were enqueued and not removed, oldest first. -/
def outstanding (r : String) (log : List (QueueEvent ε)) : List (Bytes × QueuedMessage ε) :=
  log.foldl (fun pending event =>
    match event with
    | .queued r' k msg => if r' = r then pending ++ [(k, msg)] else pending
    | .removed r' k => if r' = r then pending.filter (fun x => x.1 ≠ k) else pending) []

def unexpired (ttl now : Int64) (pending : List (Bytes × QueuedMessage ε)) :
    List (StoredEntry ε) :=
  (pending.filter fun x => !expired ttl now x.2.enqueuedAt).map fun x =>
    ⟨x.1, x.2.envelope, x.2.senderAddr⟩

/-- The sequence number of the next key fits into eight bytes. -/
def sequenceLeft (db : QueueDatabase ε) : QueueCall ε → Prop
  | .enqueue r _ _ _ => (db.bucket r).sequence + 1 < 2 ^ 64
  | _ => True

instance : Decidable (db.sequenceLeft call) :=
  match call with
  | .enqueue _ _ _ _ => inferInstanceAs (Decidable (_ < _))
  | .flushBatch _ _ _ | .remove _ _ | .sweep _ => isTrue trivial

/-- Every key carries a sequence number that was given out. -/
structure Numbered (db : QueueDatabase ε) : Prop where
  sequence_lt : ∀ a, (db.bucket a).sequence < 2 ^ 64
  key : ∀ a, ∀ x ∈ (db.bucket a).entries, ∃ t n, x.1 = keyBytes (encodeKey t n) ∧
    n ≤ (db.bucket a).sequence

theorem Numbered.new : Numbered (new maxPerAgent ttl : QueueDatabase ε) :=
  ⟨fun _ => Nat.two_pow_pos 64, fun _ _ hx => absurd hx SortedMap.not_mem_empty⟩

theorem Numbered.nextKey_ne (h : Numbered db) (hseq : (db.bucket r).sequence + 1 < 2 ^ 64)
    (now : Int64) : ∀ x ∈ (db.bucket r).entries, x.1 ≠ db.nextKey r now := by
  intro x hx heq
  obtain ⟨t, n, hkey, hle⟩ := h.key r x hx
  have hn := keyBytes_encodeKey_inj (by omega) hseq (hkey.symm.trans heq)
  omega

theorem mem_queued {x : Bytes × Option (QueuedMessage ε)} {b : StoredBucket ε} {sender : String}
    {envelope : ε} {now : Int64} : x ∈ (queued b sender envelope now).entries ↔
      x = (keyBytes (encodeKey now (b.sequence + 1)), some ⟨now, sender, envelope⟩) ∨
        x ∈ b.entries ∧ x.1 ≠ keyBytes (encodeKey now (b.sequence + 1)) :=
  SortedMap.mem_put

/-- An entry after a call is an entry from before it, or the one that was queued. -/
theorem mem_effect {x : Bytes × Option (QueuedMessage ε)} (hx : x ∈ (db.effect a call).entries) :
    x ∈ (db.bucket a).entries ∨ ∃ sender envelope now, call = .enqueue a sender envelope now ∧
      db.hasRoom a ∧ x = (db.nextKey a now, some ⟨now, sender, envelope⟩) := by
  cases call with
  | enqueue r sender envelope now =>
    rw [effect] at hx
    split at hx
    · rename_i hroom
      obtain ⟨rfl, hroom⟩ := hroom
      rcases mem_queued.1 hx with rfl | hx
      · exact .inr ⟨sender, envelope, now, rfl, hroom, rfl⟩
      · exact .inl hx.1
    · exact .inl hx
  | flushBatch r n now => exact .inl hx
  | remove r k =>
    rw [effect] at hx
    split at hx
    · exact .inl (SortedMap.mem_erase.1 hx).1
    · exact .inl hx
  | sweep now => exact .inl (StoredBucket.mem_swept.1 hx).1

theorem sequence_effect (db : QueueDatabase ε) (a : String) (call : QueueCall ε) :
    (db.bucket a).sequence ≤ (db.effect a call).sequence ∧
      (db.sequenceLeft call → (db.bucket a).sequence < 2 ^ 64 →
        (db.effect a call).sequence < 2 ^ 64) := by
  cases call with
  | enqueue r sender envelope now =>
    rw [effect]
    split
    · rename_i hroom
      obtain ⟨rfl, -⟩ := hroom
      exact ⟨Nat.le_succ _, fun hleft _ => hleft⟩
    · exact ⟨le_rfl, fun _ h => h⟩
  | flushBatch r n now => exact ⟨le_rfl, fun _ h => h⟩
  | remove r k =>
    rw [effect]
    split <;> exact ⟨le_rfl, fun _ h => h⟩
  | sweep now => exact ⟨le_rfl, fun _ h => h⟩

theorem sequence_queued (hroom : db.hasRoom a) (sender : String) (envelope : ε) (now : Int64) :
    (db.effect a (.enqueue a sender envelope now)).sequence = (db.bucket a).sequence + 1 := by
  rw [effect, if_pos ⟨rfl, hroom⟩]
  rfl

theorem Numbered.step (h : Numbered db) (hok : db.sequenceLeft call)
    (hs : db.step call = some db') : Numbered db' := by
  obtain ⟨-, -, hbucket⟩ := step_bucket hs
  refine ⟨fun a => ?_, fun a x hx => ?_⟩
  · rw [hbucket]
    exact (sequence_effect db a call).2 hok (h.sequence_lt a)
  · rw [hbucket] at hx ⊢
    rcases mem_effect hx with hold | ⟨sender, envelope, now, rfl, hroom, rfl⟩
    · obtain ⟨t, n, hkey, hle⟩ := h.key a x hold
      exact ⟨t, n, hkey, hle.trans (sequence_effect db a call).1⟩
    · exact ⟨now, (db.bucket a).sequence + 1, rfl, (sequence_queued hroom _ _ _).ge⟩

theorem outstanding_queued (log : List (QueueEvent ε)) (r' : String) (k : Bytes)
    (msg : QueuedMessage ε) : outstanding r (log ++ [.queued r' k msg]) =
      if r' = r then outstanding r log ++ [(k, msg)] else outstanding r log := by
  rw [outstanding, List.foldl_append]
  rfl

theorem outstanding_removed (log : List (QueueEvent ε)) (r' : String) (k : Bytes) :
    outstanding r (log ++ [.removed r' k]) =
      if r' = r then (outstanding r log).filter (fun x => x.1 ≠ k) else outstanding r log := by
  rw [outstanding, List.foldl_append]
  rfl

theorem unexpired_eq (pending : List (Bytes × QueuedMessage ε)) (ttl now : Int64) :
    unexpired ttl now pending =
      (pending.map fun x => (x.1, some x.2)).filterMap (StoredBucket.live ttl now) := by
  induction pending with
  | nil => rfl
  | cons x pending ih =>
    rw [unexpired] at ih ⊢
    cases hexp : expired ttl now x.2.enqueuedAt <;> simp [hexp, StoredBucket.live, ih]

theorem unexpired_filter (pending : List (Bytes × QueuedMessage ε)) (ttl now : Int64) (k : Bytes) :
    unexpired ttl now (pending.filter fun x => x.1 ≠ k) =
      (unexpired ttl now pending).filter fun e => e.key ≠ k := by
  rw [unexpired, unexpired, List.filter_map, List.filter_filter, List.filter_filter]
  simp only [Function.comp_def, Bool.and_comm]

/-- What the buckets hold, in terms of the calls that were made. -/
structure Ledger (l : List (QueueCall ε)) (db : QueueDatabase ε) (log : List (QueueEvent ε)) :
    Prop where
  entry : ∀ a, ∀ x ∈ (db.bucket a).entries, ∃ msg n,
    x = (keyBytes (encodeKey msg.enqueuedAt n), some msg) ∧ n ≤ (db.bucket a).sequence ∧
      msg.enqueuedAt ∈ readings l
  waiting : ∀ a now, (∀ t ∈ readings l, t ≤ now) →
    StoredBucket.waiting (db.bucket a) db.ttl now = unexpired db.ttl now (outstanding a log)

theorem Ledger.new : Ledger [] (new maxPerAgent ttl : QueueDatabase ε) [] :=
  ⟨fun _ _ hx => absurd hx SortedMap.not_mem_empty, fun _ _ _ => rfl⟩

/-- The next key is behind all keys in the bucket when the clock has not gone back. -/
theorem Ledger.lt_nextKey {log : List (QueueEvent ε)} {now : Int64} (h : Ledger l db log)
    (hzero : ∀ t ∈ readings l, 0 ≤ t) (hnow : 0 ≤ now) (hle : ∀ t ∈ readings l, t ≤ now)
    (hseq : (db.bucket a).sequence + 1 < 2 ^ 64) :
    ∀ x ∈ (db.bucket a).entries, x.1 < db.nextKey a now := by
  intro x hx
  obtain ⟨msg, n, rfl, hn, ht⟩ := h.entry a x hx
  rw [nextKey, encodeKey_order (hzero _ ht) hnow (by omega) hseq]
  rcases Int64.lt_or_eq_of_le (hle _ ht) with hlt | heq
  · exact .inl hlt
  · exact .inr ⟨heq, by omega⟩

theorem waiting_queued {b : StoredBucket ε} {sender : String} {envelope : ε} {t now : Int64}
    (h : ∀ x ∈ b.entries, x.1 < keyBytes (encodeKey t (b.sequence + 1))) :
    StoredBucket.waiting (queued b sender envelope t) ttl now = StoredBucket.waiting b ttl now ++
      unexpired ttl now [(keyBytes (encodeKey t (b.sequence + 1)), ⟨t, sender, envelope⟩)] := by
  rw [StoredBucket.waiting, queued, SortedMap.entries_put_of_lt h, List.filterMap_append,
    unexpired_eq]
  rfl

theorem unexpired_append (pending rest : List (Bytes × QueuedMessage ε)) (ttl now : Int64) :
    unexpired ttl now (pending ++ rest) = unexpired ttl now pending ++ unexpired ttl now rest := by
  simp [unexpired]

theorem live_of_later {log : List (QueueEvent ε)} {now later : Int64} (h : Ledger l db log)
    (hzero : ∀ t ∈ readings l, 0 ≤ t) (hle : ∀ t ∈ readings l, t ≤ now) (hlater : now ≤ later) :
    ∀ x ∈ (db.bucket a).entries, StoredBucket.live db.ttl now x = none →
      StoredBucket.live db.ttl later x = none := by
  intro x hx hdead
  obtain ⟨msg, n, rfl, -, ht⟩ := h.entry a x hx
  have hexp : expired db.ttl now msg.enqueuedAt = true := by
    by_contra hfalse
    simp [StoredBucket.live, hfalse] at hdead
  simp [StoredBucket.live, expired_of_le (hzero _ ht) (hle _ ht) hlater hexp]

theorem Ledger.waiting_step {log : List (QueueEvent ε)} {later : Int64} (h : Ledger l db log)
    (hchron : ClockForward (l ++ [call])) (hok : db.sequenceLeft call)
    (hlater : ∀ t ∈ readings (l ++ [call]), t ≤ later) :
    StoredBucket.waiting (db.effect a call) db.ttl later =
      unexpired db.ttl later (outstanding a (log ++ (db.record call).toList)) := by
  have hzero := hchron.before.1
  rw [readings_snoc, List.forall_mem_append] at hlater
  have hold := h.waiting a later hlater.1
  cases call with
  | enqueue r sender envelope now =>
    by_cases hroom : db.hasRoom r
    · have hrecord : db.record (.enqueue r sender envelope now) =
          some (.queued r (db.nextKey r now) ⟨now, sender, envelope⟩) := by
        rw [record, enqueue_of_hasRoom hroom]
      rw [hrecord, Option.toList_some, outstanding_queued]
      by_cases ha : a = r
      · subst ha
        have hkeys := h.lt_nextKey hzero (hchron.nonneg rfl) (hchron.le rfl) hok
        rw [effect, if_pos ⟨rfl, hroom⟩, waiting_queued hkeys, if_pos rfl, unexpired_append, hold]
        rfl
      · rw [effect, if_neg fun hh => ha hh.1, if_neg (Ne.symm ha), hold]
    · obtain ⟨fault, heq⟩ := enqueue_of_not_hasRoom sender envelope now hroom
      rw [record, heq, effect, if_neg fun hh => hroom hh.2]
      simpa using hold
  | flushBatch r n now => simpa [effect, record] using hold
  | remove r k =>
    rw [record, Option.toList_some, outstanding_removed, effect]
    by_cases ha : a = r
    · rw [if_pos ha, if_pos ha.symm, StoredBucket.waiting_removed, unexpired_filter, hold]
    · rw [if_neg ha, if_neg (Ne.symm ha), hold]
  | sweep now =>
    -- what is swept out is expired by then in the ledger as well
    have hdead := live_of_later (a := a) h hzero (hchron.le rfl)
      (hlater.2 now (by simp [QueueCall.reading]))
    rw [effect, StoredBucket.waiting_swept hdead, hold]
    simp [record]

theorem Ledger.step {log : List (QueueEvent ε)} (h : Ledger l db log)
    (hchron : ClockForward (l ++ [call])) (hok : db.sequenceLeft call)
    (hs : db.step call = some db') :
    Ledger (l ++ [call]) db' (log ++ (db.record call).toList) := by
  obtain ⟨-, httl, hbucket⟩ := step_bucket hs
  refine ⟨fun a x hx => ?_, fun a later hlater => ?_⟩
  · rw [hbucket] at hx ⊢
    rw [readings_snoc]
    rcases mem_effect hx with hold | ⟨sender, envelope, now, rfl, hroom, rfl⟩
    · obtain ⟨msg, n, rfl, hn, ht⟩ := h.entry a x hold
      exact ⟨msg, n, rfl, hn.trans (sequence_effect db a call).1, List.mem_append_left _ ht⟩
    · exact ⟨⟨now, sender, envelope⟩, (db.bucket a).sequence + 1, rfl,
        (sequence_queued hroom _ _ _).ge, List.mem_append_right _ (by simp [QueueCall.reading])⟩
  · rw [hbucket, httl]
    exact h.waiting_step hchron hok hlater

theorem ledger_of_run {log : List (QueueEvent ε)}
    (h : Run (logged step record) (fun s call => s.1.sequenceLeft call)
      (new maxPerAgent ttl, []) l (db, log)) :
    Numbered db ∧ db.ttl = ttl ∧ (ClockForward l → Ledger l db log) := by
  generalize hend : (db, log) = s at h
  induction h generalizing db log with
  | nil =>
    obtain ⟨rfl, rfl⟩ := Prod.mk.inj hend
    exact ⟨.new, rfl, fun _ => .new⟩
  | @snoc l t u call h hok hs ih =>
    subst hend
    obtain ⟨hstep, rfl⟩ := logged_eq_some.1 hs
    obtain ⟨hnumbered, httl, hledger⟩ := ih rfl
    exact ⟨hnumbered.step hok hstep, (step_bucket hstep).2.1.trans httl,
      fun hchron => (hledger hchron.before).step hchron hok hstep⟩

/-- No enqueued message replaces another, and a batch is the oldest messages in the order in
which they were enqueued. -/
theorem queue_in_order {log : List (QueueEvent ε)}
    (h : Run (logged step record) (fun s call => s.1.sequenceLeft call)
      (new maxPerAgent ttl, []) l (db, log)) :
    (∀ r sender envelope now, db.sequenceLeft (.enqueue r sender envelope now) →
      (db.enqueue r sender envelope now).1 = .ok () →
      db.nextKey r now ∉ StoredBucket.keys (db.bucket r) ∧
      ∀ x, x ∈ ((db.enqueue r sender envelope now).2.bucket r).entries ↔
        x = (db.nextKey r now, some ⟨now, sender, envelope⟩) ∨ x ∈ (db.bucket r).entries) ∧
    (∀ r n now, ClockForward (l ++ [.flushBatch r n now]) →
      db.flushBatch r n now = .ok ((unexpired ttl now (outstanding r log)).take
        (min n.toNat (unexpired ttl now (outstanding r log)).length))) ∧
    ∀ t t' : Int64, ∀ n n' : ℕ, 0 ≤ t → 0 ≤ t' → n < 2 ^ 64 → n' < 2 ^ 64 →
      (keyBytes (encodeKey t n) < keyBytes (encodeKey t' n') ↔ t < t' ∨ t = t' ∧ n < n') := by
  obtain ⟨hnumbered, httl, hledger⟩ := ledger_of_run h
  refine ⟨fun r sender envelope now hleft hok => ?_, fun r n now hchron => ?_,
    fun t t' n n' => encodeKey_order⟩
  · have hfresh := hnumbered.nextKey_ne hleft now
    have hroom : db.hasRoom r := by
      by_contra hroom
      obtain ⟨fault, heq⟩ := enqueue_of_not_hasRoom sender envelope now hroom
      simp [heq] at hok
    refine ⟨?_, fun x => ?_⟩
    · rintro hmem
      obtain ⟨x, hx, hkey⟩ := List.mem_map.1 hmem
      exact hfresh x hx hkey
    · rw [enqueue_of_hasRoom hroom, bucket_setBucket_self, mem_queued]
      exact or_congr_right (and_iff_left_of_imp (hfresh x))
  · have hwaiting := (hledger hchron.before).waiting r now (hchron.le rfl)
    rw [flushBatch_eq, hwaiting, httl, ← List.take_eq_take_min]

def twoLetters : QueueDatabase ℕ :=
  (((new 5 100).enqueue "bob" "amy" 1 5).2.enqueue "bob" "eve" 2 5).2

theorem queue_in_order_twoLetters :
    twoLetters.nextKey "bob" 5 ∉ StoredBucket.keys (twoLetters.bucket "bob") ∧
    (twoLetters.flushBatch "bob" 9 6).map (fun batch => batch.map StoredEntry.envelope) =
      .ok [1, 2] := by
  have hrun : Run (logged step record) (fun s call => s.1.sequenceLeft call) (new 5 100, [])
      [.enqueue "bob" "amy" 1 5, .enqueue "bob" "eve" 2 5] (twoLetters, _) :=
    .snoc (.snoc .nil (by decide +kernel) rfl) (by decide +kernel) rfl
  obtain ⟨hfresh, hflush, -⟩ := queue_in_order hrun
  refine ⟨(hfresh "bob" "amy" 1 5 (by decide +kernel) (by decide +kernel)).1, ?_⟩
  have hclock : ClockForward ([.enqueue "bob" "amy" 1 5, .enqueue "bob" "eve" 2 5,
      .flushBatch "bob" 9 6] : List (QueueCall ℕ)) := by
    simp [ClockForward, readings, QueueCall.reading]
  rw [hflush "bob" 9 6 hclock]
  decide +kernel

end Order

end QueueDatabase

end Pinch
