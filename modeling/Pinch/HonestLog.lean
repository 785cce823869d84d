import Pinch.AuditVerify
import Pinch.IsoOrder

/-! Logs of one writer whose clock never goes back verify. -/

namespace Pinch

open HashChain AuditVerify ActivityFeed

/-- The log is one chain and the row that `record` reads is its end. -/
structure ActivityTable.Linked (sha256 : Bytes → Bytes) (t : ActivityTable) : Prop where
  chained : Chained (auditFormat sha256) "" (chain t)
  prevHash_eq : t.prevHash = headHash t

section Insert

variable {sha256 : Bytes → Bytes} {t t' : ActivityTable} {row : ActivityRow}

theorem rows_insert (h : t.insert row = .ok t') : t'.rows = t.rows ++ [row] := by
  unfold ActivityTable.insert at h
  split at h
  · cases h
  · cases h
    rfl

theorem orderAsc_concat {rows : List ActivityRow}
    (hrows : rows.Pairwise fun r s => r.place ≠ s.place)
    (hplace : ∀ r ∈ rows, r.place < row.place) :
    orderAsc (rows ++ [row]) = orderAsc rows ++ [row] := by
  refine orderAsc_eq ((orderAsc_perm rows).symm.append_right _) ?_
  refine List.pairwise_append.2 ⟨byPlace_orderAsc hrows, List.pairwise_singleton _ _, ?_⟩
  intro r hr s hs
  rw [List.mem_singleton.1 hs]
  exact hplace r (mem_orderAsc.1 hr)

theorem chain_insert (h : t.insert row = .ok t') (hplace : ∀ r ∈ t.rows, r.place < row.place)
    (hne : row.entryHash ≠ "") : chain t' = chain t ++ [row] := by
  have hrows : hashedRows t' = hashedRows t ++ [row] := by
    simp [hashedRows, rows_insert h, ActivityRow.hashed, hne]
  rw [chain, hrows]
  exact orderAsc_concat (hashedRows_place_ne t) fun r hr => hplace r (List.mem_of_mem_filter hr)

/-- A row that links to the last one and sorts after every row continues the chain. -/
theorem ActivityTable.Linked.insert (hl : t.Linked sha256) (h : t.insert row = .ok t')
    (hlink : row.prevHash = t.prevHash)
    (hhash : row.entryHash = computeEntryHash sha256 row.fields)
    (hne : row.entryHash ≠ "") (hplace : ∀ r ∈ t.rows, r.place < row.place) :
    t'.Linked sha256 := by
  have hchain := chain_insert h hplace hne
  refine ⟨?_, ?_⟩
  · rw [hchain]
    refine chained_concat.2 ⟨hl.chained, ?_, hhash⟩
    rw [tip_chain, ← hl.prevHash_eq]
    exact hlink
  · rw [ActivityTable.prevHash_eq, headHash, hchain, rows_insert h,
      orderAsc_concat t.place_ne hplace]
    simp

end Insert

section Record

variable {sha256 : Bytes → Bytes} {t t' : ActivityTable} {legacy : ActivityTable}

theorem record_ok {id : String} {now : Int} {event : NewActivity} {r : ActivityRow}
    (h : record sha256 id now event t = .ok (r, t')) :
    t.insert (newRow sha256 id (isoString now) event t.prevHash) = .ok t' := by
  cases hi : t.insert (newRow sha256 id (isoString now) event t.prevHash) with
  | error e => simp [record, hi] at h
  | ok u => simp_all [record]

/-- What holds of the table and the calls to come, at the start and after every call. -/
theorem recordAll_invariant {P : ActivityTable → List RecordCall → Prop} {calls : List RecordCall}
    (h : P t calls)
    (hok : ∀ t c calls t', P t (c :: calls) →
      t.insert (newRow sha256 c.id (isoString c.now) c.event t.prevHash) = .ok t' → P t' calls)
    (herror : ∀ t c calls, P t (c :: calls) → P t calls) : P (recordAll sha256 t calls) [] := by
  induction calls generalizing t with
  | nil => exact h
  | cons c calls ih =>
    rw [recordAll]
    split
    · rename_i hr
      exact ih (hok _ _ _ _ h (record_ok hr))
    · exact ih (herror _ _ _ h)

theorem recordAll_hashed (hne : ∀ b, sha256 b ≠ []) {calls : List RecordCall}
    (h : ∀ r ∈ t.rows, r.entryHash ≠ "") :
    ∀ r ∈ (recordAll sha256 t calls).rows, r.entryHash ≠ "" := by
  refine recordAll_invariant (P := fun t _ => ∀ r ∈ t.rows, r.entryHash ≠ "") h ?_
    fun _ _ _ h => h
  intro t c calls t' h hins r hr
  rw [rows_insert hins, List.mem_append] at hr
  rcases hr with hr | hr
  · exact h r hr
  · rw [List.mem_singleton.1 hr, newRow_recompute]
    exact hexEncode_ne_empty (hne _)

end Record

section Clock

/-- The later of two calls reads a later clock, or the same and has a larger identifier. -/
def ActivityFeed.RecordCall.Before (c d : RecordCall) : Prop :=
  c.now < d.now ∨ c.now = d.now ∧ c.id < d.id

def ActivityFeed.RecordCall.place (c : RecordCall) : String ×ₗ String :=
  toLex (isoString c.now, c.id)

instance (c d : RecordCall) : Decidable (c.Before d) :=
  inferInstanceAs (Decidable (_ ∨ _ ∧ _))

structure Timely (calls : List RecordCall) : Prop where
  years : ∀ c ∈ calls, FourDigitYear c.now
  ordered : calls.Pairwise RecordCall.Before

variable {sha256 : Bytes → Bytes} {t legacy : ActivityTable} {c d : RecordCall}
  {calls : List RecordCall}

theorem Timely.tail (h : Timely (c :: calls)) : Timely calls :=
  ⟨fun d hd => h.years d (List.mem_cons_of_mem _ hd), (List.pairwise_cons.1 h.ordered).2⟩

theorem Timely.place_lt (h : Timely (c :: calls)) (hd : d ∈ calls) : c.place < d.place := by
  have hc := h.years c List.mem_cons_self
  have hd' := h.years d (List.mem_cons_of_mem _ hd)
  rw [RecordCall.place, RecordCall.place, Prod.Lex.toLex_lt_toLex]
  rcases (List.pairwise_cons.1 h.ordered).1 d hd with hlt | ⟨heq, hid⟩
  · exact .inl (isoString_lt hlt hc hd')
  · exact .inr ⟨congrArg isoString heq, hid⟩

/-- The calls to come sort after every row of a linked log. -/
structure Ahead (sha256 : Bytes → Bytes) (t : ActivityTable) (calls : List RecordCall) : Prop where
  linked : t.Linked sha256
  timely : Timely calls
  place_lt : ∀ r ∈ t.rows, ∀ c ∈ calls, r.place < c.place

theorem Ahead.linked_recordAll (hne : ∀ b, sha256 b ≠ []) (h : Ahead sha256 t calls) :
    (recordAll sha256 t calls).Linked sha256 := by
  refine (recordAll_invariant (P := Ahead sha256) h ?_ ?_).linked
  · intro t c calls t' h hins
    refine ⟨?_, h.timely.tail, ?_⟩
    · exact h.linked.insert hins rfl rfl (hexEncode_ne_empty (hne _))
        fun r hr => h.place_lt r hr c List.mem_cons_self
    · intro r hr d hd
      rw [rows_insert hins, List.mem_append] at hr
      rcases hr with hr | hr
      · exact h.place_lt r hr d (List.mem_cons_of_mem _ hd)
      · rw [List.mem_singleton.1 hr]
        exact h.timely.place_lt hd
  · intro t c calls h
    exact ⟨h.linked, h.timely.tail, fun r hr d hd => h.place_lt r hr d (List.mem_cons_of_mem _ hd)⟩

/-- Rows from before the chain have no hash and are older than every call. -/
def Legacy (legacy : ActivityTable) (calls : List RecordCall) : Prop :=
  ∀ r ∈ legacy.rows, r.entryHash = "" ∧ ∀ c ∈ calls, r.createdAt < isoString c.now

instance (legacy : ActivityTable) (calls : List RecordCall) : Decidable (Legacy legacy calls) :=
  inferInstanceAs (Decidable (∀ r ∈ legacy.rows, _ ∧ ∀ c ∈ calls, _))

theorem linked_of_unhashed (h : ∀ r ∈ t.rows, r.entryHash = "") : t.Linked sha256 := by
  have hchain : chain t = [] := by
    refine List.eq_nil_iff_forall_not_mem.2 fun r hr => ?_
    exact (mem_chain.1 hr).2 (h r (mem_chain.1 hr).1)
  refine ⟨by rw [hchain]; trivial, ?_⟩
  rw [ActivityTable.prevHash_eq, headHash, hchain]
  cases hlast : (orderAsc t.rows).getLast? with
  | none => rfl
  | some r =>
    have hr := List.mem_of_getLast? hlast
    simp [h r (mem_orderAsc.1 hr)]

theorem Legacy.ahead (h : Legacy legacy calls) (ht : Timely calls) : Ahead sha256 legacy calls :=
  ⟨linked_of_unhashed fun r hr => (h r hr).1, ht, fun r hr c hc =>
    Prod.Lex.toLex_lt_toLex.2 (.inl ((h r hr).2 c hc))⟩

/-- How many entries the audit reads. -/
def verifiedEntries (t : ActivityTable) (args : AuditVerifyArgs) : Nat :=
  match args.tail with
  | none => (hashedRows t).length
  | some n => min n (hashedRows t).length

theorem length_entries (t : ActivityTable) (args : AuditVerifyArgs) :
    (entries t args).length = verifiedEntries t args := by
  cases h : args.tail with
  | none => simp [entries_full h, verifiedEntries, h, length_hashedRows]
  | some n =>
    simp only [entries_tail h, verifiedEntries, h, length_hashedRows, List.length_drop]
    omega

theorem chained_entries (h : Chained (auditFormat sha256) "" (chain t)) (args : AuditVerifyArgs) :
    Chained (auditFormat sha256) (start t args) (entries t args) := by
  cases htail : args.tail with
  | none => simpa [start, entries_full htail, htail] using h
  | some n =>
    rw [start, entries_tail htail, htail]
    exact h.drop _ _

/-- A log written in order, after rows older than the chain, verifies as a whole and
from any of its entries on. -/
theorem honest_log_verifies (hne : ∀ b, sha256 b ≠ []) (hlegacy : Legacy legacy calls)
    (htimely : Timely calls) (args : AuditVerifyArgs) (hrange : args.InRange) :
    ∃ genesisId latestId, run sha256 (recordAll sha256 legacy calls) args =
      .valid (hashedRows (recordAll sha256 legacy calls)).length
        (verifiedEntries (recordAll sha256 legacy calls) args) genesisId latestId := by
  have hlinked := (hlegacy.ahead htimely).linked_recordAll hne
  have hrun := run_of_chained hrange (chained_entries hlinked.chained args)
  rw [length_entries, ← length_hashedRows] at hrun
  exact ⟨_, _, hrun⟩

/-- A row from before the chain. -/
def legacyLog : ActivityTable :=
  ⟨[{ id := "z", connectionAddress := "a", eventType := "message_received",
      createdAt := "1969-12-31T23:59:59.999Z" }], List.nodup_singleton _⟩

/-- Two entries in one millisecond. -/
def twoCalls : List RecordCall :=
  [⟨"1", 0, { connectionAddress := "a", eventType := "message_sent" }⟩,
    ⟨"2", 0, { connectionAddress := "a", eventType := "message_received" }⟩]

theorem twoCalls_timely : Timely twoCalls :=
  ⟨by decide +kernel, by decide +kernel⟩

theorem honest_log_verifies_tail : ∃ genesisId latestId,
    run logHash (recordAll logHash legacyLog twoCalls) ⟨some 1, by decide⟩ =
      .valid 2 1 genesisId latestId := by
  have hlen : (hashedRows (recordAll logHash legacyLog twoCalls)).length = 2 := by
    decide +kernel
  have h := honest_log_verifies logHash_ideal.nonempty
    (show Legacy legacyLog twoCalls by decide +kernel) twoCalls_timely ⟨some 1, by decide⟩
    (by simp [AuditVerifyArgs.InRange])
  simpa only [verifiedEntries, hlen, show min 1 2 = 1 from rfl] using h

/-- The query for the last entries throws. -/
theorem large_tail_fails : Legacy legacyLog twoCalls ∧ Timely twoCalls ∧
    run logHash (recordAll logHash legacyLog twoCalls) ⟨some (2 ^ 63), by decide⟩ =
      .failed "datatype mismatch" := by
  refine ⟨by decide +kernel, twoCalls_timely, ?_⟩
  have hlen : (hashedRows (recordAll logHash legacyLog twoCalls)).length = 2 := by
    decide +kernel
  simp [run, hlen]

end Clock

end Pinch
