import Pinch.AuditVerify
import Pinch.Listing

/-! Exporting the audit log. An export holds the rows of a period in the order of the log; whatever
the period, they are one piece of the log, and verify as such. -/

namespace Pinch

open HashChain Listing

structure AuditExportArgs where
  output : String
  since : Option String := none
  until' : Option String := none
  deriving DecidableEq

structure AuditExportFile where
  exportedAt : String
  totalEntries : ℕ
  entries : List ActivityRow

namespace AuditExport

/-- The loop of `parseArgs`, which skips what it does not know. -/
def parseLoop (output since until' : Option String) :
    List String → Except String (Option String × Option String × Option String)
  | [] => .ok (output, since, until')
  | arg :: rest =>
    if arg = "--output" then
      match rest with
      | [] => .error "--output requires a file path"
      | path :: rest => parseLoop (some path) since until' rest
    else if arg = "--since" then
      match rest with
      | [] => .ok (output, none, until')
      | text :: rest => parseLoop output (some text) until' rest
    else if arg = "--until" then
      match rest with
      | [] => .ok (output, since, none)
      | text :: rest => parseLoop output since (some text) rest
    else parseLoop output since until' rest

def parseArgs (args : List String) : Except String AuditExportArgs := do
  let (output, since, until') ← parseLoop none none none args
  match output.filter (· ≠ "") with
  | some output => return ⟨output, since, until'⟩
  | none => throw "--output is required"

/-- `created_at >= @since`; an empty text is no bound. -/
def notBefore (since : Option String) (r : ActivityRow) : Bool :=
  (since.filter (· ≠ "")).all (· ≤ r.createdAt)

/-- `created_at <= @until`. -/
def notAfter (until' : Option String) (r : ActivityRow) : Bool :=
  (until'.filter (· ≠ "")).all (r.createdAt ≤ ·)

def entries (t : ActivityTable) (since until' : Option String) : List ActivityRow :=
  orderAsc (t.rows.filter fun r => notBefore since r && notAfter until' r)

/-- The path that is written to, and what is written. -/
def run (args : List String) (now : Int) (t : ActivityTable) :
    Except String (String × AuditExportFile) := do
  let parsed ← parseArgs args
  let entries := entries t parsed.since parsed.until'
  return (parsed.output, ⟨isoString now, entries.length, entries⟩)

variable {sha256 : Bytes → Bytes} {t : ActivityTable} {since until' : Option String}

theorem orderAsc_filter (t : ActivityTable) (p : ActivityRow → Bool) :
    orderAsc (t.rows.filter p) = (orderAsc t.rows).filter p :=
  orderAsc_eq ((orderAsc_perm t.rows).symm.filter p) ((byPlace_orderAsc t.place_ne).filter p)

theorem chain_eq_filter (t : ActivityTable) :
    AuditVerify.chain t = (orderAsc t.rows).filter (·.hashed) :=
  orderAsc_filter t _

theorem createdAt_orderAsc (t : ActivityTable) :
    (orderAsc t.rows).Pairwise fun r s => r.createdAt ≤ s.createdAt := by
  refine (byPlace_orderAsc t.place_ne).imp fun h => ?_
  rcases Prod.Lex.toLex_lt_toLex.1 h with hlt | ⟨heq, -⟩
  · exact hlt.le
  · exact heq.le

theorem notBefore_mono {r s : ActivityRow} (h : r.createdAt ≤ s.createdAt)
    (hr : notBefore since r = true) : notBefore since s = true := by
  simp only [notBefore, Option.all_eq_true, decide_eq_true_eq] at hr ⊢
  exact fun text htext => (hr text htext).trans h

theorem notAfter_anti {r s : ActivityRow} (h : r.createdAt ≤ s.createdAt)
    (hs : notAfter until' s = true) : notAfter until' r = true := by
  simp only [notAfter, Option.all_eq_true, decide_eq_true_eq] at hs ⊢
  exact fun text htext => h.trans (hs text htext)

/-- The rows of a period are one piece of the log. -/
theorem entries_segment (t : ActivityTable) (since until' : Option String) :
    orderAsc t.rows = (orderAsc t.rows).filter (!notBefore since ·) ++ entries t since until' ++
      (orderAsc t.rows).filter (fun r => notBefore since r && !notAfter until' r) := by
  rw [entries, orderAsc_filter]
  exact range_segment ((createdAt_orderAsc t).imp notBefore_mono)
    ((createdAt_orderAsc t).imp notAfter_anti)

theorem walk_from_eq_none_iff {total i : ℕ} {before l : List ActivityRow} :
    AuditVerify.walk sha256 true total i before.getLast? l = none ↔
      Chained (auditFormat sha256) (tip (auditFormat sha256) "" before) l := by
  rcases List.eq_nil_or_concat' before with rfl | ⟨before, last, rfl⟩
  · rw [List.getLast?_nil, AuditVerify.walk_eq_none_iff]
    rfl
  · simpa using AuditVerify.walk_some_eq_none_iff

/-- An export of any period is one piece of the log. If the log verifies, the loop of the audit
tool accepts the export by itself, and as the continuation of the rows before it. -/
theorem export_verifies (sha256 : Bytes → Bytes) {args : List String} {now : Int} {path : String}
    {file : AuditExportFile} (h : run args now t = .ok (path, file)) :
    ∃ before after, orderAsc t.rows = before ++ file.entries ++ after ∧
      ((AuditVerify.run sha256 t AuditVerify.fullMode).isValid = true →
        AuditVerify.walk sha256 false file.totalEntries 0 none
            (file.entries.filter (·.hashed)) = none ∧
        AuditVerify.walk sha256 true file.totalEntries (before.filter (·.hashed)).length
            (before.filter (·.hashed)).getLast? (file.entries.filter (·.hashed)) = none) := by
  unfold run at h
  cases hparse : parseArgs args with
  | error e => rw [hparse] at h; cases h
  | ok parsed =>
    rw [hparse] at h
    obtain ⟨rfl, rfl⟩ := Prod.mk.inj (Except.ok.inj h)
    refine ⟨_, _, entries_segment t parsed.since parsed.until', fun hvalid => ?_⟩
    have hchained := AuditVerify.run_fullMode_isValid_iff.1 hvalid
    rw [chain_eq_filter, entries_segment t parsed.since parsed.until', List.filter_append,
      List.filter_append, chained_append, chained_append] at hchained
    obtain ⟨⟨-, hsegment⟩, -⟩ := hchained
    refine ⟨AuditVerify.walk_eq_none_iff.2 ?_, walk_from_eq_none_iff.2 hsegment⟩
    exact hsegment.drop 0 ""

def datedRow (id createdAt prevHash : String) : ActivityRow :=
  ActivityFeed.newRow logHash id createdAt
    { connectionAddress := "a", eventType := "message_sent" } prevHash

/-- Two entries, of different times. -/
def datedLog : ActivityTable :=
  ⟨[datedRow "1" "5" "", datedRow "2" "7" (datedRow "1" "5" "").entryHash], by decide +kernel⟩

theorem datedLog_valid :
    (AuditVerify.run logHash datedLog AuditVerify.fullMode).isValid = true := by
  decide +kernel

theorem export_verifies_second : ∃ file,
    run ["--output", "log.json", "--since", "6"] 0 datedLog = .ok ("log.json", file) ∧
      file.entries.map (·.id) = ["2"] ∧
      AuditVerify.walk logHash false file.totalEntries 0 none
        (file.entries.filter (·.hashed)) = none := by
  refine ⟨_, rfl, by decide +kernel, ?_⟩
  obtain ⟨before, after, -, hverifies⟩ := export_verifies logHash
    (show run ["--output", "log.json", "--since", "6"] 0 datedLog = .ok (_, _) from rfl)
  exact (hverifies datedLog_valid).1

/-- The periods that a list of gaps leaves: until the first gap begins, from its end on until the
next one begins, and so on. -/
def periods (since : Option String) :
    List (String × String) → List (Option String × Option String)
  | [] => [(since, none)]
  | (u, v) :: gaps => (since, some u) :: periods (some v) gaps

/-- No row is dated within the gap. -/
structure Gap (t : ActivityTable) (gap : String × String) : Prop where
  begins : gap.1 ≠ ""
  lt : gap.1 < gap.2
  free : ∀ r ∈ t.rows, r.createdAt ≤ gap.1 ∨ gap.2 ≤ r.createdAt

theorem Gap.ends {gap : String × String} (h : Gap t gap) : gap.2 ≠ "" := by
  intro hempty
  have hlt := h.lt
  rw [hempty, String.lt_iff_toList_lt] at hlt
  exact List.not_lt_nil _ hlt

theorem notBefore_some {u : String} (h : u ≠ "") (r : ActivityRow) :
    notBefore (some u) r = decide (u ≤ r.createdAt) := by
  simp [notBefore, h]

theorem notAfter_some {u : String} (h : u ≠ "") (r : ActivityRow) :
    notAfter (some u) r = decide (r.createdAt ≤ u) := by
  simp [notAfter, h]

/-- From `since` on, the exports of the periods are the rest of the log. -/
theorem flatMap_periods {gaps : List (String × String)} (hgaps : ∀ g ∈ gaps, Gap t g)
    (hordered : gaps.Pairwise fun g g' => g.2 ≤ g'.1)
    (since : Option String) (hsince : ∀ g ∈ gaps, ∀ text ∈ since, text ≤ g.1) :
    (periods since gaps).flatMap (fun p => entries t p.1 p.2) =
      (orderAsc t.rows).filter (notBefore since) := by
  induction gaps generalizing since with
  | nil => simp [periods, entries, orderAsc_filter, notAfter]
  | cons gap gaps ih =>
    obtain ⟨u, v⟩ := gap
    have hgap := hgaps (u, v) (by simp)
    obtain ⟨hfirst, hrest⟩ := List.pairwise_cons.1 hordered
    have hlater := ih (fun g hg => hgaps g (by simp [hg])) hrest (some v)
      fun g hg text htext => Option.some.inj htext ▸ hfirst g hg
    have hsplit := filter_not_append_filter (p := fun r => !notAfter (some u) r)
      (l := (orderAsc t.rows).filter (notBefore since)) <| by
        refine ((createdAt_orderAsc t).sublist List.filter_sublist).imp fun hle hr => ?_
        cases hs : notAfter (some u) _ with
        | false => rfl
        | true => simp [notAfter_anti hle hs] at hr
    rw [periods, List.flatMap_cons, hlater, ← hsplit, entries, orderAsc_filter, List.filter_filter,
      List.filter_filter]
    congr 1
    · refine List.filter_congr fun r _ => ?_
      rw [Bool.not_not, Bool.and_comm]
    · refine List.filter_congr fun r hr => ?_
      rw [notBefore_some hgap.ends, notAfter_some hgap.begins]
      rcases hgap.free r (mem_orderAsc.1 hr) with hle | hge
      · have hbefore : ¬ v ≤ r.createdAt := not_le.2 (hle.trans_lt hgap.lt)
        simp [hle, hbefore]
      · have hafter : ¬ r.createdAt ≤ u := not_le.2 (hgap.lt.trans_le hge)
        have hfrom : notBefore since r = true := by
          simp only [notBefore, Option.all_eq_true, decide_eq_true_eq]
          intro text htext
          have hle := hsince (u, v) (by simp) text (Option.filter_eq_some_iff.1 htext).1
          exact (hle.trans hgap.lt.le).trans hge
        simp [hge, hafter, hfrom]

/-- Exports of consecutive periods, put one after another, are the whole log: each row once and in
order. They verify as one exactly if the log does. -/
theorem exports_join (sha256 : Bytes → Bytes) {gaps : List (String × String)}
    (hgaps : ∀ g ∈ gaps, Gap t g)
    (hordered : gaps.Pairwise fun g g' => g.2 ≤ g'.1) :
    (periods none gaps).flatMap (fun p => entries t p.1 p.2) = entries t none none ∧
    ((AuditVerify.run sha256 t AuditVerify.fullMode).isValid = true ↔
      AuditVerify.walk sha256 true t.rows.length 0 none (((periods none gaps).flatMap
        (fun p => entries t p.1 p.2)).filter (·.hashed)) = none) := by
  have hall := flatMap_periods hgaps hordered none (by simp)
  have hwhole : entries t none none = (orderAsc t.rows).filter (notBefore none) := by
    simp [entries, orderAsc_filter, notAfter]
  refine ⟨hall.trans hwhole.symm, ?_⟩
  have hnone : (orderAsc t.rows).filter (notBefore none) = orderAsc t.rows := by simp [notBefore]
  rw [hall, hnone, ← chain_eq_filter, AuditVerify.walk_eq_none_iff,
    AuditVerify.run_fullMode_isValid_iff]
  rfl

theorem exports_join_datedLog :
    entries datedLog none (some "5") ++ (entries datedLog (some "7") none ++ []) =
      entries datedLog none none := by
  have hgap : Gap datedLog ("5", "7") := ⟨by decide, by decide +kernel, by decide +kernel⟩
  exact (exports_join logHash (List.forall_mem_singleton.2 hgap) (List.pairwise_singleton _ _)).1

end AuditExport

end Pinch
