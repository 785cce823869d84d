import Pinch.HonestLog

/-! One row of a log changed by hand. What the audit sees of it depends on whether the
row is the last one, and never on the columns that are not hashed. -/

namespace Pinch

open HashChain AuditVerify ActivityFeed

/-- `t'` is `t` with the row `r` changed into `r'`. -/
structure Alters (t t' : ActivityTable) (r r' : ActivityRow) : Prop where
  mem : r ∈ t.rows
  ne : r' ≠ r
  rows_eq : t'.rows = t.rows.map fun s => if s = r then r' else s

def KeepsPlace (t : ActivityTable) (r r' : ActivityRow) : Prop :=
  ∀ s ∈ t.rows, s ≠ r → (s.place < r'.place ↔ s.place < r.place)

def IsLast (t : ActivityTable) (r : ActivityRow) : Prop :=
  ∀ s ∈ t.rows, s.place ≤ r.place

/-- The changes that leave a chain: the last row can lose its hash or be written anew,
and any row can be changed outside the text that is hashed. -/
inductive Unseen (sha256 : Bytes → Bytes) (t : ActivityTable) (r r' : ActivityRow) : Prop
  | dropped (hlast : IsLast t r) (hentry : r'.entryHash = "")
  | rewritten (hlast : IsLast t r) (hplace : KeepsPlace t r r') (hprev : r'.prevHash = r.prevHash)
      (hentry : r'.entryHash = computeEntryHash sha256 r'.fields)
  | sameText (hplace : KeepsPlace t r r') (hprev : r'.prevHash = r.prevHash)
      (hentry : r'.entryHash = r.entryHash) (hdata : r'.fields.data = r.fields.data)

variable {sha256 : Bytes → Bytes} {t t' : ActivityTable} {r r' : ActivityRow}
  {l m a b : List ActivityRow}

theorem ByPlace.eq_of_perm (hl : ByPlace l) (hm : ByPlace m) (h : l.Perm m) : l = m :=
  List.Perm.eq_of_pairwise (fun _ _ _ _ hab hba => absurd hab hba.asymm) hl hm h

theorem ByPlace.notMem (h : ByPlace (l ++ r :: m)) : r ∉ l ++ m := by
  obtain ⟨-, hm, hl⟩ := List.pairwise_append.1 h
  intro hr
  rcases List.mem_append.1 hr with hr | hr
  · exact lt_irrefl _ (hl r hr r List.mem_cons_self)
  · exact lt_irrefl _ ((List.pairwise_cons.1 hm).1 r hr)

theorem ByPlace.middle (h : ByPlace (l ++ r :: m)) : ByPlace (l ++ m) :=
  h.sublist ((List.sublist_cons_self r m).append_left l)

/-- Where a row can stand among the others without leaving the order. -/
theorem byPlace_replace_iff (hl : ByPlace (l ++ r :: m)) (hab : ByPlace (a ++ r' :: b))
    (hsplit : a ++ b = l ++ m) : a.length = l.length ↔
      (∀ s ∈ l, s.place < r'.place) ∧ ∀ s ∈ m, r'.place < s.place := by
  constructor
  · intro hlen
    obtain ⟨rfl, rfl⟩ := List.append_inj hsplit hlen
    obtain ⟨-, hb, ha⟩ := List.pairwise_append.1 hab
    exact ⟨fun s hs => ha s hs r' List.mem_cons_self, (List.pairwise_cons.1 hb).1⟩
  · rintro ⟨hbefore, hafter⟩
    have hplace : ByPlace (l ++ r' :: m) := by
      obtain ⟨hl, hm, hlm⟩ := List.pairwise_append.1 hl
      refine List.pairwise_append.2
        ⟨hl, List.pairwise_cons.2 ⟨hafter, (List.pairwise_cons.1 hm).2⟩, ?_⟩
      intro s hs u hu
      rcases List.mem_cons.1 hu with rfl | hu
      · exact hbefore s hs
      · exact hlm s hs u (List.mem_cons_of_mem _ hu)
    have hperm : (a ++ r' :: b).Perm (l ++ r' :: m) := by
      refine List.perm_middle.trans ?_
      rw [hsplit]
      exact List.perm_middle.symm
    have heq := hab.eq_of_perm hplace hperm
    have hnot := hplace.notMem
    rw [List.mem_append, not_or] at hnot
    rw [(List.append_cons_inj_of_notMem hnot.1 hnot.2).1 heq.symm |>.1]

theorem mem_rows_iff (hall : ∀ s ∈ t.rows, s.entryHash ≠ "") {s : ActivityRow} :
    s ∈ t.rows ↔ s ∈ chain t :=
  ⟨fun hs => mem_chain.2 ⟨hs, hall s hs⟩, fun hs => (mem_chain.1 hs).1⟩

section

variable (hall : ∀ s ∈ t.rows, s.entryHash ≠ "") (hchain : chain t = l ++ r :: m)

include hall hchain

theorem Alters.rows_perm (h : Alters t t' r r') : t'.rows.Perm (r' :: (l ++ m)) := by
  have hrows : t.rows.Perm (l ++ r :: m) := by
    have hhashed : hashedRows t = t.rows :=
      List.filter_eq_self.2 fun s hs => by simpa [ActivityRow.hashed] using hall s hs
    rw [← hchain, chain, hhashed]
    exact (orderAsc_perm _).symm
  have hnot : r ∉ l ++ m := (hchain ▸ byPlace_chain t).notMem
  have hmap := hrows.map fun s => if s = r then r' else s
  have hid : (l ++ m).map (fun s => if s = r then r' else s) = l ++ m := by
    refine (List.map_congr_left fun s hs => ?_).trans (List.map_id _)
    exact if_neg fun hsr : s = r => hnot (hsr ▸ hs)
  rw [h.rows_eq]
  refine (hmap.trans (List.perm_middle.map _)).trans ?_
  rw [List.map_cons, if_pos rfl, hid]

theorem Alters.hashedRows_perm (h : Alters t t' r r') :
    (hashedRows t').Perm (if r'.hashed then r' :: (l ++ m) else l ++ m) := by
  have hrest : (l ++ m).filter (·.hashed) = l ++ m := by
    refine List.filter_eq_self.2 fun s hs => ?_
    have hs' : s ∈ chain t := by
      rw [hchain]
      exact ((List.sublist_cons_self r m).append_left l).subset hs
    simpa [ActivityRow.hashed] using (mem_chain.1 hs').2
  have hperm := (h.rows_perm hall hchain).filter (·.hashed)
  rwa [List.filter_cons, hrest] at hperm

theorem Alters.chain_dropped (h : Alters t t' r r') (hentry : r'.entryHash = "") :
    chain t' = l ++ m := by
  have hperm := h.hashedRows_perm hall hchain
  rw [if_neg (by simp [ActivityRow.hashed, hentry])] at hperm
  exact orderAsc_eq hperm (hchain ▸ byPlace_chain t).middle

theorem Alters.chain_replaced (h : Alters t t' r r') (hentry : r'.entryHash ≠ "") :
    ∃ a b, chain t' = a ++ r' :: b ∧ a ++ b = l ++ m := by
  have hperm := h.hashedRows_perm hall hchain
  rw [if_pos (by simp [ActivityRow.hashed, hentry])] at hperm
  have hchain' : (chain t').Perm (r' :: (l ++ m)) := (orderAsc_perm _).trans hperm
  obtain ⟨a, b, hab⟩ := List.append_of_mem (hchain'.mem_iff.2 List.mem_cons_self)
  refine ⟨a, b, hab, ?_⟩
  rw [hab] at hchain'
  exact (hab ▸ byPlace_chain t').middle.eq_of_perm (hchain ▸ byPlace_chain t).middle
    ((List.perm_cons _).1 (List.perm_middle.symm.trans hchain'))

theorem isLast_iff : IsLast t r ↔ m = [] := by
  obtain ⟨-, hm, hl⟩ := List.pairwise_append.1 (hchain ▸ byPlace_chain t)
  constructor
  · intro hlast
    refine List.eq_nil_iff_forall_not_mem.2 fun s hs => ?_
    have hle := hlast s ((mem_rows_iff hall).2 (by rw [hchain]; simp [hs]))
    exact (lt_irrefl _ (hle.trans_lt ((List.pairwise_cons.1 hm).1 s hs))).elim
  · rintro rfl s hs
    rw [mem_rows_iff hall, hchain, List.mem_append, List.mem_singleton] at hs
    rcases hs with hs | rfl
    · exact (hl s hs r List.mem_cons_self).le
    · exact le_rfl

theorem keepsPlace_iff (hab : ByPlace (a ++ r' :: b)) (hsplit : a ++ b = l ++ m) :
    KeepsPlace t r r' ↔ a.length = l.length := by
  have hplace := hchain ▸ byPlace_chain t
  have hnot := hplace.notMem
  obtain ⟨-, hm, hl⟩ := List.pairwise_append.1 hplace
  obtain ⟨-, hb, ha⟩ := List.pairwise_append.1 hab
  rw [byPlace_replace_iff hplace hab hsplit]
  constructor
  · intro hkeep
    refine ⟨fun s hs => ?_, fun s hs => ?_⟩
    · have hmem : s ∈ t.rows := (mem_rows_iff hall).2 (by rw [hchain]; simp [hs])
      have hne : s ≠ r := fun hsr => hnot (by simp [← hsr, hs])
      exact (hkeep s hmem hne).2 (hl s hs r List.mem_cons_self)
    · have hmem : s ∈ t.rows := (mem_rows_iff hall).2 (by rw [hchain]; simp [hs])
      have hne : s ≠ r := fun hsr => hnot (by simp [← hsr, hs])
      have hlt := (List.pairwise_cons.1 hm).1 s hs
      have hs' : s ∈ a ++ b := by simp [hsplit, hs]
      rcases List.mem_append.1 hs' with hs' | hs'
      · exact absurd ((hkeep s hmem hne).1 (ha s hs' r' List.mem_cons_self)) hlt.asymm
      · exact (List.pairwise_cons.1 hb).1 s hs'
  · rintro ⟨hbefore, hafter⟩ s hs hne
    rw [mem_rows_iff hall, hchain, List.mem_append, List.mem_cons] at hs
    rcases hs with hs | hs | hs
    · exact iff_of_true (hbefore s hs) (hl s hs r List.mem_cons_self)
    · exact absurd hs hne
    · exact iff_of_false (hafter s hs).asymm ((List.pairwise_cons.1 hm).1 s hs).asymm

end

/-- The audit of a changed log, for any log that is one chain of hashed rows. -/
theorem run_altered_isValid_iff (hideal : IdealHash sha256)
    (hall : ∀ s ∈ t.rows, s.entryHash ≠ "") (hchained : Chained (auditFormat sha256) "" (chain t))
    (h : Alters t t' r r') :
    (run sha256 t' fullMode).isValid = true ↔ Unseen sha256 t r r' := by
  have hr : r ∈ chain t := (mem_rows_iff hall).1 h.mem
  have hrecompute : r.entryHash = computeEntryHash sha256 r.fields := hchained.recompute_eq hr
  have hfresh := fresh_chain sha256 t
  have hbind := linkBinding_of_chained hideal.injective hchained hchained
  obtain ⟨l, m, hchain⟩ := List.append_of_mem hr
  rw [run_fullMode_isValid_iff]
  by_cases hentry : r'.entryHash = ""
  · rw [h.chain_dropped hall hchain hentry, chained_erase_iff (hchain ▸ hchained) (hchain ▸ hfresh)
      (hchain ▸ hbind), ← isLast_iff hall hchain]
    refine ⟨fun hlast => .dropped hlast hentry, fun hunseen => ?_⟩
    cases hunseen with
    | dropped hlast _ => exact hlast
    | rewritten hlast _ _ _ => exact hlast
    | sameText _ _ hsame _ => exact absurd (hsame.symm.trans hentry) (hall r h.mem)
  · obtain ⟨a, b, hab, hsplit⟩ := h.chain_replaced hall hchain hentry
    rw [hab, chained_replace_iff (hchain ▸ hchained) (hchain ▸ hfresh) (hchain ▸ hbind) hentry
      (fun hc => linkBinding_of_chained hideal.injective hc hc) hsplit,
      ← keepsPlace_iff hall hchain (hab ▸ byPlace_chain t') hsplit, ← isLast_iff hall hchain]
    constructor
    · rintro ⟨hkeep, hprev, hhash, hsame | hlast⟩
      · refine .sameText hkeep hprev hsame (data_eq_of_hash_eq hideal.injective ?_)
        exact hhash.symm.trans (hsame.trans hrecompute)
      · exact .rewritten hlast hkeep hprev hhash
    · intro hunseen
      cases hunseen with
      | dropped _ hempty => exact absurd hempty hentry
      | rewritten hlast hkeep hprev hhash => exact ⟨hkeep, hprev, hhash, .inr hlast⟩
      | sameText hkeep hprev hsame hdata =>
        refine ⟨hkeep, hprev, ?_, .inl hsame⟩
        have hhash := (computeEntryHash_eq_iff hideal.injective).2 hdata
        exact hsame.trans (hrecompute.trans hhash.symm)

theorem run_recordAll_altered {calls : List RecordCall} (hideal : IdealHash sha256)
    (htimely : Timely calls) (h : Alters (recordAll sha256 .empty calls) t' r r') :
    (run sha256 t' fullMode).isValid = true ↔
      Unseen sha256 (recordAll sha256 .empty calls) r r' := by
  have hlegacy : Legacy .empty calls := fun r hr => absurd hr List.not_mem_nil
  have hlinked := (hlegacy.ahead htimely).linked_recordAll hideal.nonempty
  have hall : ∀ s ∈ (recordAll sha256 .empty calls).rows, s.entryHash ≠ "" :=
    recordAll_hashed hideal.nonempty fun r hr => absurd hr List.not_mem_nil
  exact run_altered_isValid_iff hideal hall hlinked.chained h

/-- A change to one row of a log written in order is reported, unless it is one of those
that leave a chain. -/
theorem tampering_detected_iff {calls : List RecordCall} (hideal : IdealHash sha256)
    (htimely : Timely calls) (h : Alters (recordAll sha256 .empty calls) t' r r') :
    (run sha256 t' fullMode).isValid = false ↔
      ¬ Unseen sha256 (recordAll sha256 .empty calls) r r' := by
  rw [← run_recordAll_altered hideal htimely h, Bool.not_eq_true]

def firstRow : ActivityRow :=
  newRow logHash "1" (isoString 0) { connectionAddress := "a", eventType := "message_sent" } ""

def secondRow : ActivityRow :=
  newRow logHash "2" (isoString 0) { connectionAddress := "a", eventType := "message_received" }
    firstRow.entryHash

theorem rows_twoCalls : (recordAll logHash .empty twoCalls).rows = [firstRow, secondRow] := by
  rfl

/-- The log of two entries with its first row changed. -/
def alteredLog (row : ActivityRow) (h : row.id = "1") : ActivityTable :=
  ⟨[row, secondRow], by
    rw [List.map_cons, h]
    decide +kernel⟩

theorem alters_alteredLog {row : ActivityRow} (h : row.id = "1") (hne : row ≠ firstRow) :
    Alters (recordAll logHash .empty twoCalls) (alteredLog row h) firstRow row := by
  have hids : secondRow ≠ firstRow := fun he => absurd (congrArg ActivityRow.id he) (by decide)
  refine ⟨by simp [rows_twoCalls], hne, ?_⟩
  simp [rows_twoCalls, alteredLog, hids]

theorem tampering_detected_iff_address :
    (run logHash (alteredLog { firstRow with connectionAddress := "b" } rfl) fullMode).isValid =
      false := by
  refine (tampering_detected_iff logHash_ideal twoCalls_timely
    (alters_alteredLog rfl fun h => ?_)).2 fun h => ?_
  · exact absurd (congrArg ActivityRow.connectionAddress h) (by decide)
  · have hlast : ¬ IsLast (recordAll logHash .empty twoCalls) firstRow := by
      intro hlast
      exact absurd (hlast secondRow (by simp [rows_twoCalls])) (by decide +kernel)
    cases h with
    | dropped h _ => exact hlast h
    | rewritten h _ _ _ => exact hlast h
    | sameText _ _ _ hdata => exact absurd hdata (by decide +kernel)

def forgedDetails : ActivityRow :=
  { firstRow with details := some "forged" }

/-- The details of an entry can be changed without a trace. -/
theorem details_not_hashed :
    IdealHash logHash ∧
      Alters (recordAll logHash .empty twoCalls) (alteredLog forgedDetails rfl) firstRow
        forgedDetails ∧
      (run logHash (alteredLog forgedDetails rfl) fullMode).isValid = true := by
  have halters : Alters (recordAll logHash .empty twoCalls) (alteredLog forgedDetails rfl)
      firstRow forgedDetails :=
    alters_alteredLog rfl fun h => absurd (congrArg ActivityRow.details h) (by decide)
  have hunseen : Unseen logHash (recordAll logHash .empty twoCalls) firstRow forgedDetails :=
    .sameText (fun _ _ _ => Iff.rfl) rfl rfl rfl
  exact ⟨logHash_ideal, halters,
    (run_recordAll_altered logHash_ideal twoCalls_timely halters).2 hunseen⟩

end Pinch
