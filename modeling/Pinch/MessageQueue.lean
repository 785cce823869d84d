import Pinch.SortedMap
import Mathlib.Data.List.AList
import Mathlib.Data.Prod.Lex

/-! The relay's durable queue. Each recipient has a bucket of its own, whose keys
are a time stamp and a sequence number, and whose values may be corrupt. -/

namespace Pinch

/-- The 16 bytes of a key as their two big-endian halves; byte order compares the
first halves first. The sequence number is not bounded. -/
abbrev QueueKey := ℕ ×ₗ ℕ

def encodeKey (timestampNanos : Int64) (seq : ℕ) : QueueKey :=
  toLex (timestampNanos.toUInt64.toNat, seq)

structure QueuedMessage (ε : Type) where
  enqueuedAt : Int64
  senderAddr : String
  envelope : ε
  deriving DecidableEq

structure QueueEntry (ε : Type) where
  key : QueueKey
  envelope : ε
  senderAddr : String
  deriving DecidableEq

/-- A nested bucket. A value that `json.Unmarshal` refuses is `none`. -/
structure Bucket (ε : Type) where
  sequence : ℕ
  messages : SortedMap QueueKey (Option (QueuedMessage ε))
  bounded : ∀ x ∈ messages, (ofLex x.1).2 ≤ sequence

structure MessageQueue (ε : Type) where
  maxPerAgent : ℤ
  ttl : Int64
  root : AList (fun _ : String => Bucket ε)

inductive QueueError
  | queueFull

def expired (ttl now enqueuedAt : Int64) : Bool := ttl < now - enqueuedAt

variable {ε : Type}

namespace Bucket

def empty : Bucket ε := ⟨0, .empty, by simp⟩

def enqueue (b : Bucket ε) (senderAddr : String) (envelope : ε) (now : Int64) : Bucket ε where
  sequence := b.sequence + 1
  messages := b.messages.put (encodeKey now (b.sequence + 1)) (some ⟨now, senderAddr, envelope⟩)
  bounded := by
    intro x hx
    rcases SortedMap.mem_put.mp hx with rfl | ⟨hx, -⟩
    · exact le_rfl
    · exact (b.bounded x hx).trans (Nat.le_succ _)

def remove (b : Bucket ε) (key : QueueKey) : Bucket ε where
  sequence := b.sequence
  messages := b.messages.erase key
  bounded := fun x hx => b.bounded x (SortedMap.mem_erase.mp hx).1

/-- The cursor loop of `FlushBatch`. -/
def collect (ttl now : Int64) :
    ℕ → List (QueueKey × Option (QueuedMessage ε)) → List (QueueEntry ε)
  | 0, _ => []
  | _ + 1, [] => []
  | n + 1, (_, none) :: rest => collect ttl now (n + 1) rest
  | n + 1, (k, some msg) :: rest =>
    if expired ttl now msg.enqueuedAt then collect ttl now (n + 1) rest
    else ⟨k, msg.envelope, msg.senderAddr⟩ :: collect ttl now n rest

/-- The first pass of `Sweep`. -/
def expiredKeys (b : Bucket ε) (ttl now : Int64) : List QueueKey :=
  b.messages.entries.filterMap fun
    | (k, none) => some k
    | (k, some msg) => if expired ttl now msg.enqueuedAt then some k else none

def sweep (b : Bucket ε) (ttl now : Int64) : Bucket ε where
  sequence := b.sequence
  messages := (b.expiredKeys ttl now).foldl .erase b.messages
  bounded := fun x hx => b.bounded x (SortedMap.mem_foldl_erase.mp hx).1

end Bucket

namespace MessageQueue

def new (maxPerAgent : ℤ) (ttl : Int64) : MessageQueue ε := ⟨maxPerAgent, ttl, ∅⟩

def bucket (mq : MessageQueue ε) (addr : String) : Bucket ε := (mq.root.lookup addr).getD .empty

def setBucket (mq : MessageQueue ε) (addr : String) (b : Bucket ε) : MessageQueue ε :=
  { mq with root := mq.root.insert addr b }

def count (mq : MessageQueue ε) (recipientAddr : String) : ℕ :=
  (mq.bucket recipientAddr).messages.size

def enqueue (mq : MessageQueue ε) (recipientAddr senderAddr : String) (envelope : ε)
    (now : Int64) : Except QueueError (MessageQueue ε) :=
  if mq.maxPerAgent ≤ mq.count recipientAddr then .error .queueFull
  else .ok (mq.setBucket recipientAddr
    ((mq.bucket recipientAddr).enqueue senderAddr envelope now))

def flushBatch (mq : MessageQueue ε) (recipientAddr : String) (batchSize : ℕ) (now : Int64) :
    List (QueueEntry ε) :=
  Bucket.collect mq.ttl now batchSize (mq.bucket recipientAddr).messages.entries

def remove (mq : MessageQueue ε) (recipientAddr : String) (key : QueueKey) : MessageQueue ε :=
  match mq.root.lookup recipientAddr with
  | none => mq
  | some sub => mq.setBucket recipientAddr (sub.remove key)

def sweep (mq : MessageQueue ε) (now : Int64) : ℕ × MessageQueue ε :=
  (mq.root.foldl (fun total _ sub => total + (sub.expiredKeys mq.ttl now).length) 0,
    { mq with root := ⟨mq.root.entries.map (.map id fun _ sub => sub.sweep mq.ttl now),
        mq.root.nodupKeys.map₂ _ _⟩ })

end MessageQueue

theorem toNat_toUInt64_of_nonneg {t : Int64} (ht : 0 ≤ t) : (t.toUInt64.toNat : ℤ) = t.toInt := by
  have hnat : t.toUInt64.toNat = t.toBitVec.toNat := rfl
  have hint := BitVec.toInt_eq_toNat_cond t.toBitVec
  rw [Int64.le_iff_toInt_le, Int64.toInt_zero] at ht
  rw [Int64.toInt_toBitVec] at hint
  have hlt := t.toBitVec.isLt
  split at hint <;> omega

theorem encodeKey_lt {t t' : Int64} {n n' : ℕ} (ht : 0 ≤ t) (htt : t ≤ t') (hn : n < n') :
    encodeKey t n < encodeKey t' n' := by
  have hle := Int64.le_iff_toInt_le.mp htt
  have hz := Int64.le_iff_toInt_le.mp ht
  have hnat := toNat_toUInt64_of_nonneg ht
  have hnat' := toNat_toUInt64_of_nonneg (t := t') (by rw [Int64.le_iff_toInt_le]; omega)
  rw [encodeKey, encodeKey, Prod.Lex.toLex_lt_toLex]
  rcases Nat.lt_or_ge t.toUInt64.toNat t'.toUInt64.toNat with hlt | hge
  · exact .inl hlt
  · exact .inr ⟨by simp only; omega, hn⟩

theorem expired_of_le {ttl now now' e : Int64} (he : 0 ≤ e) (hnow : e ≤ now) (hle : now ≤ now')
    (h : expired ttl now e = true) : expired ttl now' e = true := by
  rw [Int64.le_iff_toInt_le] at he hnow hle
  simp only [expired, decide_eq_true_eq, Int64.lt_iff_toInt_lt, Int64.toInt_sub] at h ⊢
  have hzero : Int64.toInt 0 = 0 := Int64.toInt_zero
  have hbound := Int64.toInt_lt now'
  rw [Int.bmod_eq_of_le (by omega) (by omega)] at h ⊢
  omega

namespace Bucket

variable {b : Bucket ε} {ttl now : Int64} {n : ℕ} {x : QueueKey × Option (QueuedMessage ε)}
  {e e' : QueueEntry ε} {l : List (QueueKey × Option (QueuedMessage ε))}

def live (ttl now : Int64) : QueueKey × Option (QueuedMessage ε) → Option (QueueEntry ε)
  | (_, none) => none
  | (k, some msg) =>
    if expired ttl now msg.enqueuedAt then none else some ⟨k, msg.envelope, msg.senderAddr⟩

theorem live_eq_some : live ttl now x = some e ↔
    ∃ msg, x = (e.key, some msg) ∧ expired ttl now msg.enqueuedAt = false ∧
      e = ⟨e.key, msg.envelope, msg.senderAddr⟩ := by
  obtain ⟨k, v⟩ := x
  cases v with
  | none => simp [live]
  | some msg =>
    cases hexp : expired ttl now msg.enqueuedAt with
    | true => simp [live, hexp]
    | false =>
      simp only [live, hexp, Bool.false_eq_true, if_false, Option.some.injEq, Prod.mk.injEq]
      constructor
      · rintro rfl
        exact ⟨msg, ⟨rfl, rfl⟩, hexp, rfl⟩
      · rintro ⟨_, ⟨rfl, rfl⟩, -, he⟩
        exact he.symm

theorem collect_eq (l : List (QueueKey × Option (QueuedMessage ε))) :
    collect ttl now n l = (l.filterMap (live ttl now)).take n := by
  induction l generalizing n with
  | nil => cases n <;> simp [collect]
  | cons x l ih =>
    obtain ⟨k, v⟩ := x
    cases n with
    | zero => simp [collect]
    | succ n =>
      cases v with
      | none => simp [collect, live, ih, List.filterMap_cons]
      | some msg =>
        by_cases h : expired ttl now msg.enqueuedAt = true <;>
          simp [collect, live, ih, h]

theorem sorted_filterMap_live (b : Bucket ε) (ttl now : Int64) :
    (b.messages.entries.filterMap (live ttl now)).Pairwise (fun e e' => e.key < e'.key) := by
  refine List.pairwise_filterMap.mpr (b.messages.sorted.imp ?_)
  intro x y hlt e he e' he'
  obtain ⟨msg, rfl, -⟩ := live_eq_some.mp he
  obtain ⟨msg', rfl, -⟩ := live_eq_some.mp he'
  exact hlt

theorem mem_expiredKeys {k : QueueKey} : k ∈ b.expiredKeys ttl now ↔
    ∃ v, (k, v) ∈ b.messages ∧ live ttl now (k, v) = none := by
  simp only [expiredKeys, List.mem_filterMap]
  constructor
  · rintro ⟨⟨k', v⟩, hmem, hk⟩
    cases v with
    | none =>
      obtain rfl := Option.some.inj hk
      exact ⟨none, hmem, rfl⟩
    | some msg =>
      cases hexp : expired ttl now msg.enqueuedAt with
      | false => simp [hexp] at hk
      | true =>
        obtain rfl : k' = k := by simpa [hexp] using hk
        exact ⟨some msg, hmem, by simp [live, hexp]⟩
  · rintro ⟨v, hmem, hlive⟩
    refine ⟨(k, v), hmem, ?_⟩
    cases v with
    | none => rfl
    | some msg => cases hexp : expired ttl now msg.enqueuedAt <;> simp_all [live]

theorem mem_sweep : x ∈ (b.sweep ttl now).messages ↔ x ∈ b.messages ∧ live ttl now x ≠ none := by
  obtain ⟨k, v⟩ := x
  simp only [sweep, SortedMap.mem_foldl_erase, mem_expiredKeys, not_exists, not_and]
  constructor
  · rintro ⟨hmem, hkeys⟩
    exact ⟨hmem, hkeys v hmem⟩
  · rintro ⟨hmem, hlive⟩
    refine ⟨hmem, fun w hw => ?_⟩
    rwa [SortedMap.eq_of_mem hw hmem]

theorem fst_ne_encodeKey (hx : x ∈ b.messages) : x.1 ≠ encodeKey now (b.sequence + 1) := by
  intro heq
  have hle := b.bounded x hx
  rw [heq] at hle
  exact absurd hle (Nat.not_succ_le_self _)

theorem mem_enqueue {sender : String} {envelope : ε} :
    x ∈ (b.enqueue sender envelope now).messages ↔
      x = (encodeKey now (b.sequence + 1), some ⟨now, sender, envelope⟩) ∨ x ∈ b.messages := by
  rw [enqueue, SortedMap.mem_put, and_iff_left_of_imp fst_ne_encodeKey]

end Bucket

namespace MessageQueue

variable {mq mq' : MessageQueue ε} {r a sender : String} {envelope : ε} {now : Int64} {n : ℕ}
  {e e' : QueueEntry ε} {x : QueueKey × Option (QueuedMessage ε)} {k : QueueKey}

@[simp]
theorem bucket_new {maxPerAgent : ℤ} {ttl : Int64} :
    (new maxPerAgent ttl : MessageQueue ε).bucket a = .empty := rfl

@[simp]
theorem bucket_setBucket_self {b : Bucket ε} : (mq.setBucket a b).bucket a = b := by
  simp [bucket, setBucket]

theorem bucket_setBucket_of_ne {b : Bucket ε} (h : a ≠ r) :
    (mq.setBucket r b).bucket a = mq.bucket a := by
  simp [bucket, setBucket, AList.lookup_insert_ne h]

theorem enqueue_eq_ok (h : mq.enqueue r sender envelope now = .ok mq') :
    mq' = mq.setBucket r ((mq.bucket r).enqueue sender envelope now) := by
  unfold enqueue at h
  split at h
  · exact absurd h (by simp)
  · exact (Except.ok.inj h).symm

theorem ttl_enqueue (h : mq.enqueue r sender envelope now = .ok mq') : mq'.ttl = mq.ttl := by
  rw [enqueue_eq_ok h, setBucket]

theorem sequence_enqueue (h : mq.enqueue r sender envelope now = .ok mq') :
    (mq.bucket a).sequence ≤ (mq'.bucket a).sequence := by
  rw [enqueue_eq_ok h]
  by_cases ha : a = r
  · subst ha
    simp [Bucket.enqueue]
  · rw [bucket_setBucket_of_ne ha]

theorem sequence_enqueue_self (h : mq.enqueue r sender envelope now = .ok mq') :
    (mq'.bucket r).sequence = (mq.bucket r).sequence + 1 := by
  rw [enqueue_eq_ok h, bucket_setBucket_self, Bucket.enqueue]

theorem mem_enqueue (h : mq.enqueue r sender envelope now = .ok mq') :
    x ∈ (mq'.bucket a).messages ↔ x ∈ (mq.bucket a).messages ∨
      (a = r ∧ x = (encodeKey now ((mq.bucket r).sequence + 1), some ⟨now, sender, envelope⟩)) := by
  rw [enqueue_eq_ok h]
  by_cases ha : a = r
  · subst ha
    rw [bucket_setBucket_self, Bucket.mem_enqueue]
    tauto
  · rw [bucket_setBucket_of_ne ha]
    tauto

@[simp]
theorem ttl_remove : (mq.remove r k).ttl = mq.ttl := by
  unfold remove
  split <;> rfl

theorem bucket_remove_self : (mq.remove r k).bucket r = (mq.bucket r).remove k := by
  unfold remove
  cases hsub : mq.root.lookup r with
  | none => simp only [bucket, hsub, Option.getD_none]; rfl
  | some sub => simp [bucket, hsub, setBucket]

theorem bucket_remove_of_ne (h : a ≠ r) : (mq.remove r k).bucket a = mq.bucket a := by
  unfold remove
  cases mq.root.lookup r with
  | none => rfl
  | some sub => exact bucket_setBucket_of_ne h

@[simp]
theorem sequence_remove : ((mq.remove r k).bucket a).sequence = (mq.bucket a).sequence := by
  by_cases ha : a = r
  · rw [ha, bucket_remove_self, Bucket.remove]
  · rw [bucket_remove_of_ne ha]

@[simp]
theorem mem_remove : x ∈ ((mq.remove r k).bucket a).messages ↔
    x ∈ (mq.bucket a).messages ∧ (a = r → x.1 ≠ k) := by
  by_cases ha : a = r
  · simp [ha, bucket_remove_self, Bucket.remove]
  · simp [ha, bucket_remove_of_ne ha]

theorem bucket_sweep : (mq.sweep now).2.bucket a = (mq.bucket a).sweep mq.ttl now := by
  simp only [bucket, sweep, AList.lookup]
  rw [List.dlookup_map₂]
  cases mq.root.entries.dlookup a with
  | some sub => rfl
  | none => rfl

@[simp]
theorem ttl_sweep : (mq.sweep now).2.ttl = mq.ttl := rfl

@[simp]
theorem sequence_sweep : ((mq.sweep now).2.bucket a).sequence = (mq.bucket a).sequence := by
  rw [bucket_sweep, Bucket.sweep]

theorem mem_sweep : x ∈ ((mq.sweep now).2.bucket a).messages ↔
    x ∈ (mq.bucket a).messages ∧ Bucket.live mq.ttl now x ≠ none := by
  rw [bucket_sweep, Bucket.mem_sweep]

def waiting (mq : MessageQueue ε) (addr : String) (now : Int64) : List (QueueEntry ε) :=
  (mq.bucket addr).messages.entries.filterMap (Bucket.live mq.ttl now)

theorem mem_waiting : e ∈ mq.waiting r now ↔
    ∃ msg, (e.key, some msg) ∈ (mq.bucket r).messages ∧ expired mq.ttl now msg.enqueuedAt = false ∧
      e = ⟨e.key, msg.envelope, msg.senderAddr⟩ := by
  refine List.mem_filterMap.trans ⟨?_, ?_⟩
  · rintro ⟨x, hx, hlive⟩
    obtain ⟨msg, rfl, hrest⟩ := Bucket.live_eq_some.mp hlive
    exact ⟨msg, hx, hrest⟩
  · rintro ⟨msg, hx, hrest⟩
    exact ⟨_, hx, Bucket.live_eq_some.mpr ⟨msg, rfl, hrest⟩⟩

theorem waiting_sorted : (mq.waiting r now).Pairwise (fun e e' => e.key < e'.key) :=
  Bucket.sorted_filterMap_live _ _ _

theorem flushBatch_eq : mq.flushBatch r n now = (mq.waiting r now).take n := Bucket.collect_eq _

theorem mem_waiting_of_mem_flushBatch (h : e ∈ mq.flushBatch r n now) : e ∈ mq.waiting r now := by
  rw [flushBatch_eq] at h
  exact List.mem_of_mem_take h

theorem mem_of_mem_flushBatch (h : e ∈ mq.flushBatch r n now) :
    ∃ msg, (e.key, some msg) ∈ (mq.bucket r).messages ∧ expired mq.ttl now msg.enqueuedAt = false ∧
      e = ⟨e.key, msg.envelope, msg.senderAddr⟩ :=
  mem_waiting.mp (mem_waiting_of_mem_flushBatch h)

theorem flushBatch_sorted : (mq.flushBatch r n now).Pairwise (fun e e' => e.key < e'.key) := by
  rw [flushBatch_eq]
  exact waiting_sorted.sublist (List.take_sublist _ _)

/-- A batch leaves out no message older than one it holds. -/
theorem mem_flushBatch_of_lt (h : e' ∈ mq.waiting r now) (he : e ∈ mq.flushBatch r n now)
    (hlt : e'.key < e.key) : e' ∈ mq.flushBatch r n now := by
  have hsorted : (mq.waiting r now).Pairwise (fun e e' => e.key < e'.key) := waiting_sorted
  rw [flushBatch_eq] at he ⊢
  rw [← List.take_append_drop n (mq.waiting r now), List.pairwise_append] at hsorted
  rw [← List.take_append_drop n (mq.waiting r now), List.mem_append] at h
  refine h.resolve_right fun hdrop => ?_
  exact absurd (hsorted.2.2 e he e' hdrop) (not_lt_of_gt hlt)

theorem expired_of_flushBatch_eq_nil {msg : QueuedMessage ε} (hn : 0 < n)
    (h : mq.flushBatch r n now = []) (hx : (k, some msg) ∈ (mq.bucket r).messages) :
    expired mq.ttl now msg.enqueuedAt = true := by
  by_contra hexp
  have hmem : ⟨k, msg.envelope, msg.senderAddr⟩ ∈ mq.waiting r now :=
    mem_waiting.mpr ⟨msg, hx, by simpa using hexp, rfl⟩
  rw [flushBatch_eq, List.take_eq_nil_iff] at h
  rcases h with rfl | hnil
  · exact absurd hn (lt_irrefl 0)
  · simp [hnil] at hmem

end MessageQueue

end Pinch
