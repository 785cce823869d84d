import Pinch.ActivityFeed

/-! The audit tool. It walks the hashed rows, or the last few of them, and reports the
first row whose hash or link is wrong. -/

namespace Pinch

open HashChain

/-- The number is the double that `parseInt` gives; what is too large for a double counts as any
other number that `LIMIT` does not take. -/
structure AuditVerifyArgs where
  tail : Option Nat := none
  tail_pos : ∀ n ∈ tail, 0 < n := by simp

/-- The number can be bound to `LIMIT`. -/
def AuditVerifyArgs.InRange (args : AuditVerifyArgs) : Prop :=
  ∀ n ∈ args.tail, n < 2 ^ 63

inductive AuditReport
  | valid (totalEntries verifiedEntries : Nat) (genesisId latestId : Option String)
  | broken (totalEntries : Nat) (firstBrokenAt : String) (brokenIndex : Nat)
      (expectedHash actualHash : String)
  /-- The query throws, and the tool reports no result. -/
  | failed (error : String)
  deriving DecidableEq

def AuditReport.isValid : AuditReport → Bool
  | valid .. => true
  | broken .. | failed _ => false

namespace AuditVerify

variable (sha256 : Bytes → Bytes)

def hashedRows (t : ActivityTable) : List ActivityRow :=
  t.rows.filter (·.hashed)

def entries (t : ActivityTable) (args : AuditVerifyArgs) : List ActivityRow :=
  match args.tail with
  | some n => ((orderDesc (hashedRows t)).take n).reverse
  | none => orderAsc (hashedRows t)

/-- The loop from index `i` on, with the entry before it; only the walk over the whole
log asks its first entry to be a genesis entry. -/
def walk (full : Bool) (totalEntries : Nat) :
    Nat → Option ActivityRow → List ActivityRow → Option AuditReport
  | _, _, [] => none
  | i, prevEntry, entry :: rest =>
    let expectedHash := computeEntryHash sha256 entry.fields
    if expectedHash ≠ entry.entryHash then
      some (.broken totalEntries entry.id i expectedHash entry.entryHash)
    else
      match prevEntry with
      | none =>
        if full ∧ entry.prevHash ≠ "" then
          some (.broken totalEntries entry.id i "" entry.prevHash)
        else walk full totalEntries (i + 1) (some entry) rest
      | some prevEntry =>
        if entry.prevHash ≠ prevEntry.entryHash then
          some (.broken totalEntries entry.id i prevEntry.entryHash entry.prevHash)
        else walk full totalEntries (i + 1) (some entry) rest

/-- SQLite binds a double to `LIMIT` only if it is a 64-bit integer. -/
def run (t : ActivityTable) (args : AuditVerifyArgs) : AuditReport :=
  let totalEntries := (hashedRows t).length
  if totalEntries = 0 then .valid 0 0 none none
  else if args.tail.any (fun n => 2 ^ 63 ≤ n) then .failed "datatype mismatch"
  else
    let entries := entries t args
    match walk sha256 args.tail.isNone totalEntries 0 none entries with
    | some report => report
    | none => .valid totalEntries entries.length (entries.head?.map (·.id))
        (entries.getLast?.map (·.id))

variable {sha256} {t : ActivityTable} {args : AuditVerifyArgs} {full : Bool} {total i : Nat}
  {l : List ActivityRow}

theorem walk_broken {prevEntry : Option ActivityRow} {report : AuditReport}
    (h : walk sha256 full total i prevEntry l = some report) : report.isValid = false := by
  induction l generalizing i prevEntry with
  | nil => simp [walk] at h
  | cons entry rest ih =>
    simp only [walk] at h
    split at h
    · obtain rfl := Option.some.inj h
      rfl
    · split at h
      all_goals
        split at h
        · obtain rfl := Option.some.inj h
          rfl
        · exact ih h

theorem walk_some_eq_none_iff {p : ActivityRow} :
    walk sha256 full total i (some p) l = none ↔ Chained (auditFormat sha256) p.entryHash l := by
  induction l generalizing i p with
  | nil => simp [walk, Chained]
  | cons entry rest ih =>
    by_cases hhash : entry.entryHash = computeEntryHash sha256 entry.fields
    · by_cases hlink : entry.prevHash = p.entryHash
      · simp [walk, Chained, ← hhash, hlink, ih]
      · simp [walk, Chained, ← hhash, hlink]
    · simp [walk, Chained, hhash, Ne.symm hhash]

/-- What the walk accepts: a chain, from the empty hash where the whole log is read. -/
theorem walk_eq_none_iff : walk sha256 full total i none l = none ↔
    Chained (auditFormat sha256) (if full then "" else (l.head?.map (·.prevHash)).getD "") l := by
  cases l with
  | nil => simp [walk, Chained]
  | cons entry rest =>
    by_cases hhash : entry.entryHash = computeEntryHash sha256 entry.fields
    · cases full with
      | false => simp [walk, Chained, ← hhash, walk_some_eq_none_iff]
      | true =>
        by_cases hlink : entry.prevHash = ""
        · simp [walk, Chained, ← hhash, hlink, walk_some_eq_none_iff]
        · simp [walk, Chained, ← hhash, hlink]
    · simp [walk, Chained, hhash, Ne.symm hhash]

theorem hashedRows_place_ne (t : ActivityTable) :
    (hashedRows t).Pairwise fun r s => r.place ≠ s.place :=
  t.place_ne.filter _

/-- The hashed rows in the order in which they are chained. -/
def chain (t : ActivityTable) : List ActivityRow :=
  orderAsc (hashedRows t)

theorem byPlace_chain (t : ActivityTable) : ByPlace (chain t) :=
  byPlace_orderAsc (hashedRows_place_ne t)

theorem mem_chain {r : ActivityRow} : r ∈ chain t ↔ r ∈ t.rows ∧ r.entryHash ≠ "" := by
  simp [chain, hashedRows, ActivityRow.hashed]

theorem length_hashedRows (t : ActivityTable) : (hashedRows t).length = (chain t).length :=
  (orderAsc_perm _).length_eq.symm

theorem entries_full (h : args.tail = none) : entries t args = chain t := by
  simp [entries, h, chain]

theorem entries_tail {n : Nat} (h : args.tail = some n) :
    entries t args = (chain t).drop ((chain t).length - n) := by
  simp [entries, h, orderDesc_eq (hashedRows_place_ne t), List.take_reverse, chain]

/-- What the first entry that is read has to link to; in a tail it may link to anything. -/
def start (t : ActivityTable) (args : AuditVerifyArgs) : String :=
  if args.tail.isNone then "" else ((entries t args).head?.map (·.prevHash)).getD ""

theorem entries_of_empty (h : chain t = []) (args : AuditVerifyArgs) : entries t args = [] := by
  cases ht : args.tail with
  | none => rw [entries_full ht, h]
  | some n => rw [entries_tail ht, h, List.drop_nil]

theorem any_of_inRange (h : args.InRange) : args.tail.any (fun n => 2 ^ 63 ≤ n) = false := by
  cases htail : args.tail with
  | none => rfl
  | some n => simpa using h n htail

theorem run_of_chained (hrange : args.InRange)
    (h : Chained (auditFormat sha256) (start t args) (entries t args)) :
    run sha256 t args = .valid (chain t).length (entries t args).length
      ((entries t args).head?.map (·.id)) ((entries t args).getLast?.map (·.id)) := by
  simp only [run, length_hashedRows]
  split
  · rename_i hlen
    have hnil := List.length_eq_zero_iff.1 hlen
    simp [entries_of_empty hnil, hnil]
  · rw [any_of_inRange hrange, walk_eq_none_iff.2 h]
    rfl

theorem run_isValid_iff (hrange : args.InRange) : (run sha256 t args).isValid = true ↔
    Chained (auditFormat sha256) (start t args) (entries t args) := by
  constructor
  · intro h
    cases hw : walk sha256 args.tail.isNone (chain t).length 0 none (entries t args) with
    | none => exact walk_eq_none_iff.1 hw
    | some report =>
      have hne : (chain t).length ≠ 0 := by
        intro hlen
        simp [entries_of_empty (List.length_eq_zero_iff.1 hlen), walk] at hw
      have hrun : run sha256 t args = report := by
        simp only [run, length_hashedRows, hne, any_of_inRange hrange, Bool.false_eq_true, if_false,
          hw]
      rw [hrun, walk_broken hw] at h
      cases h
  · intro h
    rw [run_of_chained hrange h]
    rfl

def fullMode : AuditVerifyArgs := {}

theorem inRange_fullMode : fullMode.InRange := by
  intro n hn
  cases hn

theorem run_fullMode_isValid_iff : (run sha256 t fullMode).isValid = true ↔
    Chained (auditFormat sha256) "" (chain t) := by
  rw [run_isValid_iff inRange_fullMode, start, entries_full rfl]
  rfl

theorem fresh_chain (sha256 : Bytes → Bytes) (t : ActivityTable) :
    Fresh (auditFormat sha256) "" (chain t) :=
  fun _ hr => (mem_chain.1 hr).2

/-- The entry hash that ends the log, empty when no row is hashed. -/
def headHash (t : ActivityTable) : String :=
  ((chain t).getLast?.map (·.entryHash)).getD ""

theorem tip_chain (sha256 : Bytes → Bytes) (t : ActivityTable) :
    tip (auditFormat sha256) "" (chain t) = headHash t := by
  rw [headHash]
  rcases List.eq_nil_or_concat' (chain t) with h | ⟨l, r, h⟩
  · simp [h]
  · simp [h]

end AuditVerify

open AuditVerify

def ActivityRow.committed (r : ActivityRow) : EntryFields × String :=
  (r.fields, r.entryHash)

section

variable {sha256 : Bytes → Bytes} {p : String} {l m : List ActivityRow}

theorem bar_notMem_link (h : Chained (auditFormat sha256) p l) (hp : '|' ∉ p.toList) :
    ∀ r ∈ l, '|' ∉ r.prevHash.toList := by
  induction l generalizing p with
  | nil => simp
  | cons e l ih =>
    obtain ⟨hlink, hdigest, hrest⟩ := h
    have hfree : '|' ∉ e.entryHash.toList := by
      have he : e.entryHash = computeEntryHash sha256 e.fields := hdigest
      exact he ▸ bar_notMem_computeEntryHash
    intro r hr
    rcases List.mem_cons.1 hr with rfl | hr
    · have hr : r.prevHash = p := hlink
      rwa [hr]
    · exact ih hrest hfree r hr

/-- In a chain the hashes tell the links apart, whatever the other columns hold. -/
theorem linkBinding_of_chained (hinj : Function.Injective sha256)
    (h : Chained (auditFormat sha256) "" l) (h' : Chained (auditFormat sha256) "" m) :
    LinkBinding (auditFormat sha256) l m := by
  intro r hr r' hr' he
  have hbar := bar_notMem_link h (by simp) r hr
  have hbar' := bar_notMem_link h' (by simp) r' hr'
  have hdata : r.fields.data = r'.fields.data := data_eq_of_hash_eq hinj he
  exact ⟨rfl, prevHash_eq_of_data_eq hbar hbar' hdata⟩

end

/-- Two logs that verify and end in the same hash agree, row by row, on the hashed
columns and the hashes, where NULL counts as the empty text. -/
theorem headHash_commits {sha256 : Bytes → Bytes} {t t' : ActivityTable}
    (hinj : Function.Injective sha256) (hvalid : (run sha256 t fullMode).isValid = true)
    (hvalid' : (run sha256 t' fullMode).isValid = true)
    (hbar : ∀ r ∈ chain t, r.fields.BarFree) (hbar' : ∀ r ∈ chain t', r.fields.BarFree)
    (hhead : headHash t = headHash t') :
    (chain t).map (·.committed) = (chain t').map (·.committed) := by
  have h := run_fullMode_isValid_iff.1 hvalid
  have h' := run_fullMode_isValid_iff.1 hvalid'
  have hfields : ∀ r ∈ chain t, ∀ r' ∈ chain t',
      computeEntryHash sha256 r.fields = computeEntryHash sha256 r'.fields →
      r.fields = r'.fields :=
    fun r hr r' hr' he => eq_of_data_eq (hbar r hr) (hbar' r' hr') (data_eq_of_hash_eq hinj he)
  refine h.map_key_eq h' (fresh_chain _ _) (fresh_chain _ _) ?_ (by simpa only [tip_chain])
  intro r hr r' hr' he
  have hf := hfields r hr r' hr' he
  have hdigest : r.entryHash = r'.entryHash := by
    rw [← auditFormat_digest sha256 r, h.recompute_eq hr, he, ← h'.recompute_eq hr']
    rfl
  exact ⟨Prod.ext hf hdigest, congrArg EntryFields.prevHash hf⟩

/-- The texts of the entries of the logs below, and their SHA-256 digests. -/
def logDigests : List (String × Bytes) :=
  [("1|1970-01-01T00:00:00.000Z||message_sent|a||",
      [175, 57, 3, 76, 144, 219, 145, 183, 208, 111, 199, 45, 86, 168, 188, 91,
       15, 77, 191, 2, 166, 53, 1, 186, 248, 129, 66, 64, 17, 203, 235, 168]),
    ("2|1970-01-01T00:00:00.000Z||message_sent|a||",
      [187, 237, 13, 66, 181, 100, 128, 15, 189, 43, 195, 87, 238, 235, 40, 66,
       135, 31, 150, 141, 205, 252, 7, 24, 43, 156, 3, 115, 148, 157, 47, 47]),
    ("2|1970-01-01T00:00:00.000Z||message_sent|a||" ++
      "af39034c90db91b7d06fc72d56a8bc5b0f4dbf02a63501baf881424011cbeba8",
      [109, 202, 128, 6, 239, 175, 59, 7, 64, 71, 142, 146, 103, 246, 149, 203,
       22, 33, 87, 42, 89, 179, 188, 123, 214, 247, 126, 218, 20, 189, 29, 210]),
    ("2|1970-01-01T00:00:00.000Z||message_received|a||" ++
      "af39034c90db91b7d06fc72d56a8bc5b0f4dbf02a63501baf881424011cbeba8",
      [193, 112, 67, 61, 164, 144, 245, 21, 145, 56, 243, 41, 200, 16, 34, 86,
       11, 94, 129, 214, 238, 202, 199, 253, 1, 240, 47, 229, 88, 163, 31, 234]),
    ("1|1970-01-01T00:00:00.000Z||message_sent|b||",
      [74, 95, 74, 149, 111, 220, 167, 31, 26, 175, 93, 60, 64, 230, 72, 212,
       118, 94, 182, 108, 163, 247, 233, 231, 179, 50, 38, 253, 46, 176, 8, 174]),
    ("1|1970-01-01T00:00:00.000Z||message_received|bob@h|x|m|",
      [25, 196, 253, 10, 99, 23, 209, 244, 175, 89, 235, 55, 81, 137, 135, 139,
       155, 64, 137, 123, 253, 1, 224, 213, 116, 126, 127, 155, 132, 228, 16, 204]),
    ("1|5||message_sent|a||",
      [69, 135, 18, 94, 166, 40, 50, 123, 204, 91, 149, 30, 63, 109, 15, 99,
       237, 213, 82, 98, 79, 137, 126, 240, 237, 229, 173, 74, 55, 236, 213, 191]),
    ("2|7||message_sent|a||" ++
      "4587125ea628327bcc5b951e3f6d0f63edd552624f897ef0ede5ad4a37ecd5bf",
      [125, 177, 143, 88, 247, 216, 233, 107, 47, 56, 159, 166, 93, 203, 126, 172,
       15, 89, 200, 115, 66, 161, 234, 160, 152, 223, 50, 117, 144, 231, 146, 240])]

/-- SHA-256 on those texts. Every other input gets a value of its own that is too long for a
digest. -/
def logHash (data : Bytes) : Bytes :=
  ((logDigests.find? fun d => textEncode d.1 = data).map (·.2)).getD (List.replicate 33 0 ++ data)

theorem logHash_cases (data : Bytes) :
    (∃ d ∈ logDigests, textEncode d.1 = data ∧ logHash data = d.2) ∨
      logHash data = List.replicate 33 0 ++ data := by
  unfold logHash
  cases hfind : logDigests.find? fun d => textEncode d.1 = data with
  | none => exact .inr rfl
  | some d =>
    exact .inl ⟨d, List.mem_of_find?_eq_some hfind, by simpa using List.find?_some hfind, rfl⟩

theorem logHash_ideal : IdealHash logHash := by
  have hlength : ∀ d ∈ logDigests, d.2.length = 32 := by decide
  have hlong : ∀ d ∈ logDigests, ∀ data : Bytes, d.2 ≠ List.replicate 33 0 ++ data := by
    intro d hd data h
    have hcount := congrArg List.length h
    simp [hlength d hd] at hcount
  constructor
  · intro a b h
    rcases logHash_cases a with ⟨d, hd, ha, hda⟩ | ha <;>
      rcases logHash_cases b with ⟨e, he, hb, heb⟩ | hb
    · have hde : d.2 = e.2 := hda.symm.trans (h.trans heb)
      have hnodup : (logDigests.map (·.2)).Nodup := by decide +kernel
      rw [← ha, ← hb, List.inj_on_of_nodup_map hnodup hd he hde]
    · exact absurd (hda.symm.trans (h.trans hb)) (hlong d hd b)
    · exact absurd (heb.symm.trans (h.symm.trans ha)) (hlong e he a)
    · exact List.append_cancel_left (ha.symm.trans (h.trans hb))
  · intro b hb
    rcases logHash_cases b with ⟨d, hd, -, hdb⟩ | hb'
    · have hempty := hlength d hd
      rw [← hdb, hb] at hempty
      cases hempty
    · rw [hb'] at hb
      simp at hb

/-- An entry by an actor that may be left out. -/
def actorRow (actor : Option String) : ActivityRow :=
  ActivityFeed.newRow logHash "1" (isoString 0)
    { connectionAddress := "a", eventType := "message_sent", actorPubkey := actor } ""

def actorLog (actor : Option String) : ActivityTable :=
  ⟨[actorRow actor], List.nodup_singleton _⟩

theorem chain_actorLog (actor : Option String) : chain (actorLog actor) = [actorRow actor] := by
  have hne : (actorRow actor).entryHash ≠ "" := logHash_ideal.ne_empty _
  simp [chain, hashedRows, actorLog, ActivityRow.hashed, hne, orderAsc]

theorem run_actorLog (actor : Option String) :
    (run logHash (actorLog actor) fullMode).isValid = true := by
  rw [run_fullMode_isValid_iff, chain_actorLog]
  exact ⟨rfl, rfl, trivial⟩

theorem headHash_commits_actorLog :
    (chain (actorLog none)).map (·.committed) = (chain (actorLog (some ""))).map (·.committed) := by
  refine headHash_commits logHash_ideal.injective (run_actorLog _) (run_actorLog _) ?_ ?_ ?_
  · rw [chain_actorLog]
    decide +kernel
  · rw [chain_actorLog]
    decide +kernel
  · rw [headHash, headHash, chain_actorLog, chain_actorLog]
    rfl

/-- An actor left out and an empty one are different columns with one hash. -/
theorem nullActor_same_headHash :
    Function.Injective logHash ∧ (run logHash (actorLog none) fullMode).isValid = true ∧
      (run logHash (actorLog (some "")) fullMode).isValid = true ∧
      (∀ r ∈ chain (actorLog none), r.fields.BarFree) ∧
      (∀ r ∈ chain (actorLog (some "")), r.fields.BarFree) ∧
      (chain (actorLog none)).getLast?.map (·.entryHash) =
        (chain (actorLog (some ""))).getLast?.map (·.entryHash) ∧
      (chain (actorLog none)).map (·.actorPubkey) ≠
        (chain (actorLog (some ""))).map (·.actorPubkey) := by
  rw [chain_actorLog, chain_actorLog]
  refine ⟨logHash_ideal.injective, run_actorLog _, run_actorLog _, by decide +kernel,
    by decide +kernel, rfl, ?_⟩
  simp [actorRow, ActivityFeed.newRow]

end Pinch
