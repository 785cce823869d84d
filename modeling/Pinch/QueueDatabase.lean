import Pinch.Bolt
import Pinch.MessageQueue
import Mathlib.Algebra.GroupWithZero.Nat
import Mathlib.Data.List.Sort

/-! The queue as it lies in the database: transactions on byte keys. The buckets may hold
anything; `MessageQueue` is what they hold when only the queue has written them. -/

namespace Pinch

def keyBytes (k : QueueKey) : Bytes := bigEndian 8 (ofLex k).1 ++ bigEndian 8 (ofLex k).2

structure StoredEntry (ε : Type) where
  key : Bytes
  envelope : ε
  senderAddr : String
  deriving DecidableEq

inductive QueueFault
  | bucketNameRequired
  | queueFull
  deriving DecidableEq

abbrev StoredBucket (ε : Type) := Bolt.Bucket (Option (QueuedMessage ε))

abbrev QueueTx (ε : Type) := Bolt.Tx QueueFault (Option (QueuedMessage ε))

structure QueueDatabase (ε : Type) where
  maxPerAgent : ℤ
  ttl : Int64
  root : Bolt.Root (Option (QueuedMessage ε))

variable {ε : Type}

namespace StoredBucket

/-- The body of the cursor loop of `FlushBatch`. -/
def live (ttl now : Int64) : Bytes × Option (QueuedMessage ε) → Option (StoredEntry ε)
  | (_, none) => none
  | (k, some msg) =>
    if expired ttl now msg.enqueuedAt then none else some ⟨k, msg.envelope, msg.senderAddr⟩

/-- The first pass of `Sweep`. -/
def expiredKeys (b : StoredBucket ε) (ttl now : Int64) : List Bytes :=
  b.entries.entries.filterMap fun
    | (k, none) => some k
    | (k, some msg) => if expired ttl now msg.enqueuedAt then some k else none

def swept (b : StoredBucket ε) (ttl now : Int64) : StoredBucket ε :=
  { b with entries := (expiredKeys b ttl now).foldl .erase b.entries }

def removed (b : StoredBucket ε) (key : Bytes) : StoredBucket ε :=
  { b with entries := b.entries.erase key }

def keys (b : StoredBucket ε) : List Bytes := b.entries.entries.map Prod.fst

def waiting (b : StoredBucket ε) (ttl now : Int64) : List (StoredEntry ε) :=
  b.entries.entries.filterMap (live ttl now)

end StoredBucket

namespace QueueDatabase

section Transactions

variable (maxPerAgent : ℤ) (ttl : Int64)

/-- The bucket is created before the cap is checked. -/
def enqueueTx (recipientAddr senderAddr : String) (envelope : ε) (now : Int64) : QueueTx ε Unit := do
  Bolt.createBucketIfNotExists .bucketNameRequired recipientAddr
  if maxPerAgent ≤ (← Bolt.keyN recipientAddr) then throw .queueFull
  let seq ← Bolt.nextSequence recipientAddr
  Bolt.put recipientAddr (keyBytes (encodeKey now seq)) (some ⟨now, senderAddr, envelope⟩)

def flushTx (recipientAddr : String) (batchSize : ℤ) (now : Int64) :
    QueueTx ε (List (StoredEntry ε)) := do
  match (← get).lookup recipientAddr with
  | none => return []
  | some sub => return Bolt.scan (StoredBucket.live ttl now) batchSize.toNat sub.entries.entries

def removeTx (recipientAddr : String) (key : Bytes) : QueueTx ε Unit := do
  match (← get).lookup recipientAddr with
  | none => return ()
  | some _ => Bolt.delete recipientAddr key

def countTx (recipientAddr : String) : QueueTx ε ℕ := do
  match (← get).lookup recipientAddr with
  | none => return 0
  | some _ => Bolt.keyN recipientAddr

/-- The keys are collected first and then deleted one by one. -/
def sweepBucket (now : Int64) (total : ℕ) (addr : String) : QueueTx ε ℕ := do
  match (← get).lookup addr with
  | none => return total
  | some sub =>
    let expired := StoredBucket.expiredKeys sub ttl now
    expired.forM (Bolt.delete addr)
    return total + expired.length

def sweepTx (now : Int64) : QueueTx ε ℕ := do
  (← get).keys.foldlM (sweepBucket ttl now) 0

end Transactions

def new (maxPerAgent : ℤ) (ttl : Int64) : QueueDatabase ε := ⟨maxPerAgent, ttl, ∅⟩

variable (db : QueueDatabase ε)

def bucket (addr : String) : StoredBucket ε := db.root.bucket addr

def update {α : Type} (tx : QueueTx ε α) : Except QueueFault α × QueueDatabase ε :=
  ((Bolt.update db.root tx).1, { db with root := (Bolt.update db.root tx).2 })

def enqueue (recipientAddr senderAddr : String) (envelope : ε) (now : Int64) :
    Except QueueFault Unit × QueueDatabase ε :=
  db.update (enqueueTx db.maxPerAgent recipientAddr senderAddr envelope now)

def flushBatch (recipientAddr : String) (batchSize : ℤ) (now : Int64) :
    Except QueueFault (List (StoredEntry ε)) :=
  Bolt.view db.root (flushTx db.ttl recipientAddr batchSize now)

def remove (recipientAddr : String) (key : Bytes) : Except QueueFault Unit × QueueDatabase ε :=
  db.update (removeTx recipientAddr key)

def count (recipientAddr : String) : ℕ :=
  match Bolt.view db.root (countTx recipientAddr) with
  | .ok n => n
  | .error _ => 0

def sweep (now : Int64) : Except QueueFault ℕ × QueueDatabase ε :=
  db.update (sweepTx db.ttl now)

end QueueDatabase

theorem keyBytes_lt_iff {k k' : QueueKey} (hk : (ofLex k).1 < 2 ^ 64) (hk' : (ofLex k').1 < 2 ^ 64)
    (hs : (ofLex k).2 < 2 ^ 64) (hs' : (ofLex k').2 < 2 ^ 64) :
    keyBytes k < keyBytes k' ↔ k < k' := by
  have hpow : (2 : ℕ) ^ 64 = 256 ^ 8 := by decide
  rw [hpow] at hk hk' hs hs'
  have hinj : bigEndian 8 (ofLex k).1 = bigEndian 8 (ofLex k').1 ↔ (ofLex k).1 = (ofLex k').1 :=
    ⟨bigEndian_inj hk hk', fun h => by rw [h]⟩
  rw [keyBytes, keyBytes, append_lt_append_iff (by simp), bigEndian_lt_iff hk hk',
    bigEndian_lt_iff hs hs', hinj]
  exact (Prod.Lex.lt_iff).symm

theorem encodeKey_fst_lt (t : Int64) (n : ℕ) : (ofLex (encodeKey t n)).1 < 2 ^ 64 :=
  t.toUInt64.toNat_lt

/-- A sequence number is read off the last eight bytes of its key. -/
theorem keyBytes_encodeKey_inj {t t' : Int64} {n n' : ℕ} (hn : n < 2 ^ 64) (hn' : n' < 2 ^ 64)
    (h : keyBytes (encodeKey t n) = keyBytes (encodeKey t' n')) : n = n' := by
  have hpow : (2 : ℕ) ^ 64 = 256 ^ 8 := by decide
  rw [hpow] at hn hn'
  have hlow := (List.append_inj h (by simp)).2
  exact bigEndian_inj hn hn' hlow

/-- The byte order of the keys is the order of time stamp and sequence number. -/
theorem encodeKey_order {t t' : Int64} {n n' : ℕ} (ht : 0 ≤ t) (ht' : 0 ≤ t') (hn : n < 2 ^ 64)
    (hn' : n' < 2 ^ 64) :
    keyBytes (encodeKey t n) < keyBytes (encodeKey t' n') ↔ t < t' ∨ t = t' ∧ n < n' := by
  rw [keyBytes_lt_iff (encodeKey_fst_lt t n) (encodeKey_fst_lt t' n') hn hn', encodeKey, encodeKey,
    Prod.Lex.toLex_lt_toLex]
  have hnat := toNat_toUInt64_of_nonneg ht
  have hnat' := toNat_toUInt64_of_nonneg ht'
  have hlt : t < t' ↔ t.toUInt64.toNat < t'.toUInt64.toNat := by
    rw [Int64.lt_iff_toInt_lt]
    omega
  have heq : t = t' ↔ t.toUInt64.toNat = t'.toUInt64.toNat := by
    rw [← Int64.toInt_inj]
    omega
  rw [hlt, heq]

namespace StoredBucket

variable {b : StoredBucket ε} {ttl now : Int64} {n : ℕ} {x : Bytes × Option (QueuedMessage ε)}
  {e : StoredEntry ε}

theorem live_key (h : live ttl now x = some e) : e.key = x.1 := by
  obtain ⟨k, _ | msg⟩ := x
  · simp [live] at h
  · cases hexp : expired ttl now msg.enqueuedAt with
    | true => simp [live, hexp] at h
    | false =>
      obtain rfl : _ = e := by simpa [live, hexp] using h
      rfl

theorem expiredKeys_eq : expiredKeys b ttl now =
    (b.entries.entries.filter fun x => (live ttl now x).isNone).map Prod.fst := by
  unfold expiredKeys
  induction b.entries.entries with
  | nil => rfl
  | cons x l ih =>
    obtain ⟨k, v⟩ := x
    cases v with
    | none => simp [live, ih]
    | some msg => cases hexp : expired ttl now msg.enqueuedAt <;> simp [live, hexp, ih]

theorem mem_expiredKeys {k : Bytes} : k ∈ expiredKeys b ttl now ↔
    ∃ v, (k, v) ∈ b.entries ∧ live ttl now (k, v) = none := by
  simp [expiredKeys_eq, SortedMap.mem_def]

theorem mem_swept : x ∈ (swept b ttl now).entries ↔
    x ∈ b.entries ∧ (live ttl now x).isSome = true := by
  obtain ⟨k, v⟩ := x
  rw [swept, SortedMap.mem_foldl_erase, mem_expiredKeys, Option.isSome_iff_ne_none]
  refine and_congr_right fun hmem => ⟨fun hkeys hlive => hkeys ⟨v, hmem, hlive⟩, ?_⟩
  rintro hlive ⟨w, hw, hdead⟩
  rw [SortedMap.eq_of_mem hw hmem] at hdead
  exact hlive hdead

theorem mem_waiting : e ∈ waiting b ttl now ↔ ∃ x ∈ b.entries, live ttl now x = some e :=
  List.mem_filterMap

theorem swept_empty : swept (.empty : StoredBucket ε) ttl now = .empty := rfl

/-- Sweeping takes nothing from a later reading at which the swept entries are dead as well. -/
theorem waiting_swept {later : Int64}
    (h : ∀ x ∈ b.entries, live ttl now x = none → live ttl later x = none) :
    waiting (swept b ttl now) ttl later = waiting b ttl later := by
  have hentries : (swept b ttl now).entries.entries =
      b.entries.entries.filter fun x => (live ttl now x).isSome := by
    refine (swept b ttl now).entries.sorted.eq_of_mem_iff (b.entries.sorted.filter _) fun x => ?_
    rw [← SortedMap.mem_def, mem_swept, List.mem_filter, SortedMap.mem_def]
  rw [waiting, waiting, hentries, List.filterMap_filter]
  refine List.filterMap_congr fun x hx => ?_
  cases hlive : live ttl now x with
  | none => rw [h x hx hlive]; rfl
  | some e => rfl

theorem waiting_removed (k : Bytes) :
    waiting (removed b k) ttl now = (waiting b ttl now).filter fun e => e.key ≠ k := by
  rw [waiting, waiting, removed, SortedMap.entries_erase]
  induction b.entries.entries with
  | nil => rfl
  | cons x l ih =>
    cases hlive : live ttl now x with
    | none => by_cases hx : x.1 = k <;> simp_all
    | some e =>
      have hkey := live_key hlive
      by_cases hx : x.1 = k <;> simp_all

end StoredBucket

namespace QueueDatabase

variable {db db' : QueueDatabase ε} {r a sender : String} {envelope : ε} {now : Int64} {n : ℤ}
  {k : Bytes}

def setBucket (db : QueueDatabase ε) (addr : String) (b : StoredBucket ε) : QueueDatabase ε :=
  { db with root := db.root.insert addr b }

/-- The bucket after an `Enqueue` that has room. -/
def queued (b : StoredBucket ε) (sender : String) (envelope : ε) (now : Int64) : StoredBucket ε where
  sequence := b.sequence + 1
  entries := b.entries.put (keyBytes (encodeKey now (b.sequence + 1)))
    (some ⟨now, sender, envelope⟩)

@[simp]
theorem bucket_setBucket_self {b : StoredBucket ε} : (db.setBucket a b).bucket a = b :=
  Bolt.bucket_insert_self

theorem bucket_setBucket_of_ne {b : StoredBucket ε} (h : a ≠ r) :
    (db.setBucket r b).bucket a = db.bucket a :=
  Bolt.bucket_insert_of_ne h

theorem count_eq : db.count r = (db.bucket r).entries.size := by
  unfold count Bolt.view countTx bucket Bolt.Root.bucket
  cases hsub : db.root.lookup r with
  | none => simp [hsub, Bolt.Bucket.empty, SortedMap.size, SortedMap.empty]
  | some sub => simp [-bind_pure_comp, hsub, Bolt.keyN, Bolt.Root.bucket]

theorem flushBatch_eq :
    db.flushBatch r n now = .ok ((StoredBucket.waiting (db.bucket r) db.ttl now).take n.toNat) := by
  unfold flushBatch Bolt.view flushTx bucket Bolt.Root.bucket
  cases hsub : db.root.lookup r with
  | none =>
    simp [hsub, StoredBucket.waiting, Bolt.Bucket.empty, SortedMap.empty]
  | some sub => simp [hsub, Bolt.scan_eq, StoredBucket.waiting]

/-- `Enqueue` in its three outcomes. -/
theorem enqueue_eq : db.enqueue r sender envelope now =
    if r = "" then (.error .bucketNameRequired, db)
    else if db.maxPerAgent ≤ db.count r then (.error .queueFull, db)
    else (.ok (), db.setBucket r (queued (db.bucket r) sender envelope now)) := by
  by_cases hr : r = ""
  · have hrun : (enqueueTx db.maxPerAgent r sender envelope now).run db.root =
        .error .bucketNameRequired db.root := by
      rw [enqueueTx, Bolt.createBucketIfNotExists, if_pos hr]
      rfl
    rw [if_pos hr, enqueue, update, Bolt.update_error hrun]
  · rw [if_neg hr]
    -- the bucket is there after the first step, and it is as it was
    have hcreate : (Bolt.createBucketIfNotExists QueueFault.bucketNameRequired r).run db.root =
        .ok () (if r ∈ db.root then db.root else db.root.insert r .empty) := by
      rw [Bolt.createBucketIfNotExists, if_neg hr]
      rfl
    have hbucket : Bolt.Root.bucket
        (if r ∈ db.root then db.root else db.root.insert r .empty) r = db.bucket r :=
      Bolt.bucket_create
    have hinsert (b : StoredBucket ε) :
        AList.insert r b (if r ∈ db.root then db.root else db.root.insert r .empty) =
          db.root.insert r b := by
      split
      · rfl
      · exact AList.insert_insert _
    by_cases hfull : db.maxPerAgent ≤ db.count r
    · have hrun : (enqueueTx db.maxPerAgent r sender envelope now).run db.root =
          .error .queueFull (if r ∈ db.root then db.root else db.root.insert r .empty) := by
        rw [count_eq] at hfull
        simp [enqueueTx, EStateM.run_bind, hcreate, Bolt.keyN, hbucket, hfull]
      rw [if_pos hfull, enqueue, update, Bolt.update_error hrun]
    · have hrun : (enqueueTx db.maxPerAgent r sender envelope now).run db.root =
          .ok () (db.root.insert r (queued (db.bucket r) sender envelope now)) := by
        rw [count_eq] at hfull
        simp [enqueueTx, EStateM.run_bind, hcreate, Bolt.keyN, hbucket, hfull, Bolt.nextSequence,
          Bolt.put, hinsert, AList.insert_insert, queued]
      rw [if_neg hfull, enqueue, update, Bolt.update_ok hrun]
      rfl

theorem remove_eq (db : QueueDatabase ε) (r : String) (k : Bytes) : ∃ db',
    db.remove r k = (.ok (), db') ∧ db'.maxPerAgent = db.maxPerAgent ∧ db'.ttl = db.ttl ∧
    db'.bucket r = StoredBucket.removed (db.bucket r) k ∧
    ∀ a ≠ r, db'.bucket a = db.bucket a := by
  cases hsub : db.root.lookup r with
  | none =>
    have hrun : (removeTx r k).run db.root = .ok () db.root := by simp [removeTx, hsub]
    refine ⟨db, by rw [remove, update, Bolt.update_ok hrun], rfl, rfl, ?_, fun _ _ => rfl⟩
    rw [bucket, Bolt.bucket_of_not_mem (AList.lookup_eq_none.1 hsub)]
    rfl
  | some sub =>
    have hrun : (removeTx r k).run db.root =
        .ok () (db.root.insert r (StoredBucket.removed (db.bucket r) k)) := by
      simp [removeTx, hsub, Bolt.delete, bucket, StoredBucket.removed]
    refine ⟨db.setBucket r (StoredBucket.removed (db.bucket r) k), ?_, rfl, rfl,
      bucket_setBucket_self, fun a ha => bucket_setBucket_of_ne ha⟩
    rw [remove, update, Bolt.update_ok hrun]
    rfl

theorem sweepBucket_run (ttl now : Int64) (total : ℕ) (addr : String)
    (root : Bolt.Root (Option (QueuedMessage ε))) :
    ∃ root', (sweepBucket ttl now total addr).run root =
        .ok (total + (StoredBucket.expiredKeys (root.bucket addr) ttl now).length) root' ∧
      root'.bucket addr = StoredBucket.swept (root.bucket addr) ttl now ∧
      ∀ a ≠ addr, root'.bucket a = root.bucket a := by
  cases hsub : root.lookup addr with
  | none =>
    have hempty := Bolt.bucket_of_not_mem (AList.lookup_eq_none.1 hsub)
    refine ⟨root, ?_, by rw [hempty, StoredBucket.swept_empty], fun _ _ => rfl⟩
    rw [hempty]
    simp [sweepBucket, hsub, StoredBucket.expiredKeys, Bolt.Bucket.empty, SortedMap.empty]
  | some sub =>
    obtain ⟨root', hrun, hself, hne⟩ := Bolt.run_forM_delete (ε := QueueFault) addr
      (StoredBucket.expiredKeys sub ttl now) root
    rw [Bolt.bucket_of_lookup hsub] at hself ⊢
    refine ⟨root', ?_, hself, hne⟩
    simp [-bind_pure_comp, sweepBucket, hsub, hrun]

theorem sweepBuckets_run (ttl now : Int64) {addrs : List String} (hnodup : addrs.Nodup)
    (total : ℕ) (root : Bolt.Root (Option (QueuedMessage ε))) :
    ∃ root', (addrs.foldlM (sweepBucket ttl now) total).run root =
        .ok (total + (addrs.map fun a =>
          (StoredBucket.expiredKeys (root.bucket a) ttl now).length).sum) root' ∧
      (∀ a ∈ addrs, root'.bucket a = StoredBucket.swept (root.bucket a) ttl now) ∧
      ∀ a ∉ addrs, root'.bucket a = root.bucket a := by
  induction addrs generalizing total root with
  | nil => exact ⟨root, rfl, by simp, fun _ _ => rfl⟩
  | cons addr addrs ih =>
    obtain ⟨hnot, hnodup⟩ := List.nodup_cons.1 hnodup
    obtain ⟨mid, hrun, hself, hne⟩ := sweepBucket_run ttl now total addr root
    obtain ⟨root', hruns, hin, hout⟩ := ih hnodup _ mid
    -- the buckets still to come are as they were
    have hlater : ∀ a ∈ addrs, mid.bucket a = root.bucket a :=
      fun a ha => hne a fun heq => hnot (heq ▸ ha)
    refine ⟨root', ?_, ?_, ?_⟩
    · have hsum : addrs.map (fun a => (StoredBucket.expiredKeys (mid.bucket a) ttl now).length) =
          addrs.map fun a => (StoredBucket.expiredKeys (root.bucket a) ttl now).length :=
        List.map_congr_left fun a ha => by rw [hlater a ha]
      rw [hsum, Nat.add_assoc] at hruns
      rw [List.foldlM_cons, EStateM.run_bind, hrun, List.map_cons, List.sum_cons]
      exact hruns
    · intro a ha
      rcases List.mem_cons.1 ha with rfl | ha
      · rw [hout a hnot, hself]
      · rw [hin a ha, hlater a ha]
    · intro a ha
      rw [List.mem_cons, not_or] at ha
      rw [hout a ha.2, hne a ha.1]

theorem sweep_eq (db : QueueDatabase ε) (now : Int64) : ∃ db', db.sweep now =
      (.ok (db.root.keys.map fun a =>
        (StoredBucket.expiredKeys (db.bucket a) db.ttl now).length).sum, db') ∧
    db'.maxPerAgent = db.maxPerAgent ∧ db'.ttl = db.ttl ∧
    ∀ a, db'.bucket a = StoredBucket.swept (db.bucket a) db.ttl now := by
  obtain ⟨root', hrun, hin, hout⟩ := sweepBuckets_run db.ttl now db.root.keys_nodup 0 db.root
  rw [Nat.zero_add] at hrun
  have hsweep : (sweepTx db.ttl now).run db.root = .ok _ root' := hrun
  refine ⟨{ db with root := root' }, ?_, rfl, rfl, fun a => ?_⟩
  · rw [sweep, update, Bolt.update_ok hsweep]
    rfl
  by_cases ha : a ∈ db.root.keys
  · exact hin a ha
  · have hempty : db.bucket a = .empty := Bolt.bucket_of_not_mem (mt AList.mem_keys.1 ha)
    rw [hempty, StoredBucket.swept_empty, ← hempty]
    exact hout a ha

end QueueDatabase

end Pinch
