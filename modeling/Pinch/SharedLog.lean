import Pinch.HonestLog
import Pinch.Transition

/-! Several processes that record into one database. A call takes its identifier and
timestamp, reads the last row and inserts its own row in separate steps. -/

namespace Pinch

open HashChain AuditVerify ActivityFeed Transition

structure OpenCall where
  id : String
  createdAt : String
  event : NewActivity
  prevHash : Option String := none

structure SharedLog where
  table : ActivityTable
  calls : Nat → Option OpenCall

inductive SharedLabel
  | call (process : Nat) (id : String) (now : Int) (event : NewActivity)
  | readLast (process : Nat)
  | insert (process : Nat)

namespace SharedLog

/-- No process is in a call. -/
def idle (t : ActivityTable) : SharedLog :=
  ⟨t, fun _ => none⟩

/-- The row of an open call; a failing insert leaves the table as it is. -/
def afterInsert (sha256 : Bytes → Bytes) (t : ActivityTable) (c : OpenCall) (prevHash : String) :
    ActivityTable :=
  match t.insert (newRow sha256 c.id c.createdAt c.event prevHash) with
  | .ok t' => t'
  | .error _ => t

def step (sha256 : Bytes → Bytes) (s : SharedLog) : SharedLabel → Option SharedLog
  | .call p id now event =>
    match s.calls p with
    | none =>
      some { s with
        calls := Function.update s.calls p (some ⟨id, isoString now, event, none⟩) }
    | some _ => none
  | .readLast p =>
    match s.calls p with
    | some ⟨id, createdAt, event, none⟩ =>
      some { s with
        calls := Function.update s.calls p (some ⟨id, createdAt, event, some s.table.prevHash⟩) }
    | _ => none
  | .insert p =>
    match s.calls p with
    | some ⟨id, createdAt, event, some prevHash⟩ =>
      some ⟨afterInsert sha256 s.table ⟨id, createdAt, event, some prevHash⟩ prevHash,
        Function.update s.calls p none⟩
    | _ => none

/-- The row that an insert adds links to what is still the last row, and sorts after it. -/
def InTurn (s : SharedLog) : SharedLabel → Prop
  | .insert p => ∀ c ∈ s.calls p, c.prevHash = some s.table.prevHash ∧
      ∀ r ∈ s.table.rows, r.place < toLex (c.createdAt, c.id)
  | _ => True

instance (s : SharedLog) (x : SharedLabel) : Decidable (s.InTurn x) :=
  match x with
  | .insert p => inferInstanceAs (Decidable (∀ c ∈ s.calls p, _ ∧ ∀ r ∈ s.table.rows, _))
  | .call .. => inferInstanceAs (Decidable True)
  | .readLast _ => inferInstanceAs (Decidable True)

end SharedLog

variable {sha256 : Bytes → Bytes} {t : ActivityTable} {s s' : SharedLog} {x : SharedLabel}

theorem links_nodup_of_valid (hinj : Function.Injective sha256)
    (h : (run sha256 t fullMode).isValid = true) : ((chain t).map (·.prevHash)).Nodup := by
  have hchained := run_fullMode_isValid_iff.1 h
  exact (hchained.links_nodup (fresh_chain sha256 t)
    (linkBinding_of_chained hinj hchained hchained)).1

theorem linked_afterInsert (hne : ∀ b, sha256 b ≠ []) (h : t.Linked sha256) (c : OpenCall)
    (hplace : ∀ r ∈ t.rows, r.place < toLex (c.createdAt, c.id)) :
    (SharedLog.afterInsert sha256 t c t.prevHash).Linked sha256 := by
  unfold SharedLog.afterInsert
  split
  · rename_i hins
    exact h.insert hins rfl rfl (hexEncode_ne_empty (hne _)) hplace
  · exact h

theorem SharedLog.linked_step (hne : ∀ b, sha256 b ≠ []) (h : s.table.Linked sha256)
    (hok : s.InTurn x) (hs : s.step sha256 x = some s') : s'.table.Linked sha256 := by
  cases x with
  | call p id now event =>
    simp only [step] at hs
    split at hs
    · obtain rfl := Option.some.inj hs
      exact h
    · cases hs
  | readLast p =>
    simp only [step] at hs
    split at hs
    · obtain rfl := Option.some.inj hs
      exact h
    · cases hs
  | insert p =>
    simp only [step] at hs
    split at hs
    · rename_i id createdAt event prevHash hc
      obtain ⟨hprev, hplace⟩ := hok _ hc
      obtain rfl := Option.some.inj hprev
      obtain rfl := Option.some.inj hs
      exact linked_afterInsert hne h _ hplace
    · cases hs

/-- As long as every insert comes in turn, the log stays one chain without a fork. -/
theorem chain_never_forks {labels : List SharedLabel} (hideal : IdealHash sha256)
    (hstart : ∀ r ∈ t.rows, r.entryHash = "")
    (hrun : Run (SharedLog.step sha256) SharedLog.InTurn (.idle t) labels s) :
    ((chain s.table).map (·.prevHash)).Nodup ∧ (run sha256 s.table fullMode).isValid = true := by
  have hlinked : s.table.Linked sha256 :=
    hrun.invariant (P := fun s => s.table.Linked sha256) (linked_of_unhashed hstart)
      fun _ _ _ h hok hs => SharedLog.linked_step hideal.nonempty h hok hs
  have hvalid := run_fullMode_isValid_iff.2 hlinked.chained
  exact ⟨links_nodup_of_valid hideal.injective hvalid, hvalid⟩

def sentEvent : NewActivity :=
  { connectionAddress := "a", eventType := "message_sent" }

/-- Two calls one after the other. -/
def oneByOne : List SharedLabel :=
  [.call 0 "1" 0 sentEvent, .readLast 0, .insert 0, .call 1 "2" 0 sentEvent, .readLast 1, .insert 1]

/-- Two calls that both read the table before either inserts. -/
def overlapping : List SharedLabel :=
  [.call 0 "1" 0 sentEvent, .call 1 "2" 0 sentEvent, .readLast 0, .readLast 1, .insert 0, .insert 1]

theorem chain_never_forks_oneByOne :
    ∃ s, Run (SharedLog.step logHash) SharedLog.InTurn (.idle .empty) oneByOne s ∧
      ((chain s.table).map (·.prevHash)).Nodup ∧ (run logHash s.table fullMode).isValid = true := by
  have hsome : (exec (SharedLog.step logHash) SharedLog.InTurn (.idle .empty) oneByOne).isSome := by
    decide +kernel
  have hrun := Run.of_exec (Option.some_get hsome).symm
  exact ⟨_, hrun, chain_never_forks logHash_ideal (fun _ hr => absurd hr List.not_mem_nil) hrun⟩

/-- Two rows that both claim to be the first. -/
def forkedRows : List ActivityRow :=
  [newRow logHash "1" (isoString 0) sentEvent "", newRow logHash "2" (isoString 0) sentEvent ""]

theorem not_nodup_of_forkedRows (h : t.rows = forkedRows) :
    ¬ ((chain t).map (·.prevHash)).Nodup := by
  have hne : ∀ r ∈ forkedRows, r.hashed = true := by
    simp [forkedRows, ActivityRow.hashed, newRow_recompute, logHash_ideal.ne_empty]
  have hrows : (chain t).Perm forkedRows := by
    refine (orderAsc_perm _).trans ?_
    rw [hashedRows, h, List.filter_eq_self.2 hne]
  rw [(hrows.map _).nodup_iff]
  simp [forkedRows, newRow]

/-- Two overlapping calls link to the same row, and the log no longer verifies. -/
theorem overlapping_calls_fork :
    ∃ s, Run (SharedLog.step logHash) (fun _ _ => True) (.idle .empty) overlapping s ∧
      ¬ ((chain s.table).map (·.prevHash)).Nodup ∧
      (run logHash s.table fullMode).isValid = false := by
  have hexec : (exec (SharedLog.step logHash) (fun _ _ => True) (.idle .empty)
      overlapping).map (·.table.rows) = some forkedRows := by
    rfl
  obtain ⟨s, hs, hrows⟩ := Option.map_eq_some_iff.1 hexec
  have hfork := not_nodup_of_forkedRows hrows
  refine ⟨s, Run.of_exec hs, hfork, Bool.eq_false_iff.2 fun hvalid => hfork ?_⟩
  exact links_nodup_of_valid logHash_ideal.injective hvalid

end Pinch
