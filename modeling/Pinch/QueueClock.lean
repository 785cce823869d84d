import Pinch.FlushBatch

/-! The hub's clock. When its readings never go back, every queued message is dated
by a reading, and one that has expired stays expired. -/

namespace Pinch

def HubLabel.reading : HubLabel → Option Int64
  | .routeStep _ now _ | .flushStep _ now _ | .sweep now => some now
  | _ => none

namespace Hub

variable {s t : Hub} {label : HubLabel} {a : String} {k : QueueKey} {m : QueuedMessage Parcel}

def clockForward (s : Hub) (label : HubLabel) : Bool :=
  label.reading.all fun now => s.clock ≤ now

/-- Every queued message carries its own date in its key, and none is from the future. -/
structure Dated (s : Hub) : Prop where
  clock : 0 ≤ s.clock
  entry : ∀ a, ∀ x ∈ (s.mq.bucket a).messages, ∃ m n, x = (encodeKey m.enqueuedAt n, some m) ∧
    0 ≤ m.enqueuedAt ∧ m.enqueuedAt ≤ s.clock

theorem Dated.start (maxPerAgent : ℤ) (ttl : Int64) (blockStore : BlockStore) :
    Dated (start (.new maxPerAgent ttl) blockStore) :=
  ⟨Int64.le_refl 0, by simp [Hub.start, Bucket.empty]⟩

theorem Dated.of_mem (h : Dated s) (hm : (k, some m) ∈ (s.mq.bucket a).messages) :
    0 ≤ m.enqueuedAt ∧ m.enqueuedAt ≤ s.clock := by
  obtain ⟨m', n, heq, hdate⟩ := h.entry a _ hm
  obtain rfl : m = m' := by simpa using congrArg Prod.snd heq
  exact hdate

namespace Step

theorem ttl (hs : Step s label t) : t.mq.ttl = s.mq.ttl := by
  cases hs with
  | enqueued hroute hmq => exact MessageQueue.ttl_enqueue hmq
  | flushRemoved hflush =>
    rename_i ok _ _
    cases ok <;> simp
  | _ => simp

theorem clock_le (hs : Step s label t) (hok : s.clockForward label = true) : s.clock ≤ t.clock := by
  cases hs with
  | enqueued hroute hmq | drained hflush hnil | batched hflush | swept =>
    simpa [clockForward, HubLabel.reading] using hok
  | _ => simp

theorem dated (hs : Step s label t) (hok : s.clockForward label = true) (h : Dated s) :
    Dated t := by
  have hle := hs.clock_le hok
  have hclock := Int64.le_trans h.clock hle
  refine ⟨hclock, ?_⟩
  have hold : ∀ a, ∀ x ∈ (s.mq.bucket a).messages, ∃ m n, x = (encodeKey m.enqueuedAt n, some m) ∧
      0 ≤ m.enqueuedAt ∧ m.enqueuedAt ≤ t.clock := by
    intro a x hx
    obtain ⟨m, n, heq, hzero, hdate⟩ := h.entry a x hx
    exact ⟨m, n, heq, hzero, Int64.le_trans hdate hle⟩
  intro a x hx
  cases hs with
  | enqueued hroute hmq =>
    rename_i c now parcel r mq
    rcases (MessageQueue.mem_enqueue hmq).mp hx with hx | ⟨-, rfl⟩
    · exact hold a x hx
    · exact ⟨⟨now, (s.heap c).address, parcel⟩, (s.mq.bucket r).sequence + 1, rfl, hclock,
        Int64.le_refl now⟩
  | flushRemoved hflush =>
    rename_i ok _ _
    cases ok with
    | true => exact hold a x (MessageQueue.mem_remove.mp hx).1
    | false => exact hold a x hx
  | swept => exact hold a x (MessageQueue.mem_sweep.mp hx).1
  | _ => exact hold a x (by simpa using hx)

theorem stays_expired (hs : Step s label t) (hok : s.clockForward label = true) (h : Dated s)
    (hm : (k, some m) ∈ (s.mq.bucket a).messages)
    (hexp : expired s.mq.ttl s.clock m.enqueuedAt = true) :
    expired t.mq.ttl t.clock m.enqueuedAt = true := by
  obtain ⟨hzero, hdate⟩ := h.of_mem hm
  rw [hs.ttl]
  exact expired_of_le hzero hdate (hs.clock_le hok) hexp

end Step

end Hub

end Pinch
