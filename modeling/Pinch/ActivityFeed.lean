import Mathlib.Data.List.Sort
import Mathlib.Data.Prod.Lex
import Mathlib.Data.String.Basic
import Pinch.EntryHash
import Pinch.HashChain
import Pinch.IsoDate

/-! The activity log. A row of `activity_events` carries the hash of the row before it,
in the order of `created_at` and then `id`; `record` reads the last row and adds one. -/

namespace Pinch

open HashChain

structure ActivityRow where
  id : String
  connectionAddress : String
  eventType : String
  messageId : Option String := none
  badge : Option String := none
  details : Option String := none
  createdAt : String
  actorPubkey : Option String := none
  actionType : Option String := none
  messageHash : Option String := none
  prevHash : String := ""
  entryHash : String := ""
  deriving DecidableEq

namespace ActivityRow

/-- The hashed columns, with NULL read as the empty text. -/
def fields (r : ActivityRow) : EntryFields where
  id := r.id
  timestamp := r.createdAt
  actorPubkey := r.actorPubkey.getD ""
  actionType := r.actionType.getD ""
  connectionAddress := r.connectionAddress
  messageHash := r.messageHash.getD ""
  prevHash := r.prevHash

/-- `WHERE entry_hash != ''`: rows older than the chain have no hash. -/
def hashed (r : ActivityRow) : Bool :=
  r.entryHash ≠ ""

/-- Texts are compared by their UTF-8 bytes, which is the order of their characters. -/
def place (r : ActivityRow) : String ×ₗ String :=
  toLex (r.createdAt, r.id)

instance : DecidableRel fun r s : ActivityRow => r.place ≤ s.place :=
  fun r s => inferInstanceAs (Decidable (r.place ≤ s.place))

end ActivityRow

/-- `ORDER BY created_at ASC, id ASC`. -/
def orderAsc (rows : List ActivityRow) : List ActivityRow :=
  rows.insertionSort fun r s => r.place ≤ s.place

/-- `ORDER BY created_at DESC, id DESC`. -/
def orderDesc (rows : List ActivityRow) : List ActivityRow :=
  rows.insertionSort fun r s => s.place ≤ r.place

structure ActivityTable where
  rows : List ActivityRow
  ids_nodup : (rows.map (·.id)).Nodup

structure NewActivity where
  connectionAddress : String
  eventType : String
  messageId : Option String := none
  badge : Option String := none
  details : Option String := none
  actorPubkey : Option String := none
  actionType : Option String := none
  messageHash : Option String := none
  deriving DecidableEq

namespace ActivityTable

def empty : ActivityTable := ⟨[], List.nodup_nil⟩

/-- `lastRow?.entry_hash || ""`. -/
def prevHash (t : ActivityTable) : String :=
  ((orderDesc t.rows).head?.map (·.entryHash)).getD ""

def insert (t : ActivityTable) (row : ActivityRow) : Except String ActivityTable :=
  if h : row.id ∈ t.rows.map (·.id) then
    .error "UNIQUE constraint failed: activity_events.id"
  else
    .ok ⟨t.rows ++ [row], by
      rw [List.map_append, List.map_singleton, List.nodup_append_comm]
      exact List.nodup_cons.2 ⟨h, t.ids_nodup⟩⟩

end ActivityTable

namespace ActivityFeed

variable (sha256 : Bytes → Bytes)

/-- The row that `record` inserts once it has read `prevHash`. -/
def newRow (id createdAt : String) (event : NewActivity) (prevHash : String) : ActivityRow where
  id := id
  connectionAddress := event.connectionAddress
  eventType := event.eventType
  messageId := event.messageId
  badge := event.badge
  details := event.details
  createdAt := createdAt
  actorPubkey := event.actorPubkey
  actionType := some (event.actionType.getD event.eventType)
  messageHash := event.messageHash
  prevHash := prevHash
  entryHash := computeEntryHash sha256
    { id := id
      timestamp := createdAt
      actorPubkey := event.actorPubkey.getD ""
      actionType := event.actionType.getD event.eventType
      connectionAddress := event.connectionAddress
      messageHash := event.messageHash.getD ""
      prevHash := prevHash }

/-- The identifier and the clock reading of the call are parameters. The returned event
is the row, except that an action type left out stays out. -/
def record (id : String) (now : Int) (event : NewActivity) (t : ActivityTable) :
    Except String (ActivityRow × ActivityTable) := do
  let row := newRow sha256 id (isoString now) event t.prevHash
  let t' ← t.insert row
  return ({ row with actionType := event.actionType }, t')

structure RecordCall where
  id : String
  now : Int
  event : NewActivity
  deriving DecidableEq

/-- One call after another; a call that throws leaves the table as it is. -/
def recordAll : ActivityTable → List RecordCall → ActivityTable
  | t, [] => t
  | t, c :: calls =>
    match record sha256 c.id c.now c.event t with
    | .ok (_, t') => recordAll t' calls
    | .error _ => recordAll t calls

end ActivityFeed

/-- The columns that the audit log is chained by. -/
def auditFormat (sha256 : Bytes → Bytes) : Format ActivityRow String where
  link r := r.prevHash
  digest r := r.entryHash
  recompute r := computeEntryHash sha256 r.fields

@[simp] theorem auditFormat_link (sha256 : Bytes → Bytes) (r : ActivityRow) :
    (auditFormat sha256).link r = r.prevHash := rfl

@[simp] theorem auditFormat_digest (sha256 : Bytes → Bytes) (r : ActivityRow) :
    (auditFormat sha256).digest r = r.entryHash := rfl

@[simp] theorem auditFormat_recompute (sha256 : Bytes → Bytes) (r : ActivityRow) :
    (auditFormat sha256).recompute r = computeEntryHash sha256 r.fields := rfl

theorem newRow_recompute (sha256 : Bytes → Bytes) (id createdAt : String) (event : NewActivity)
    (prevHash : String) :
    (ActivityFeed.newRow sha256 id createdAt event prevHash).entryHash =
      computeEntryHash sha256 (ActivityFeed.newRow sha256 id createdAt event prevHash).fields :=
  rfl

section Order

variable {rows rows' : List ActivityRow} {r : ActivityRow}

def ByPlace : List ActivityRow → Prop :=
  List.Pairwise fun r s => r.place < s.place

theorem orderAsc_perm (rows : List ActivityRow) : (orderAsc rows).Perm rows :=
  List.perm_insertionSort _ _

@[simp] theorem mem_orderAsc : r ∈ orderAsc rows ↔ r ∈ rows :=
  (orderAsc_perm rows).mem_iff

theorem byPlace_orderAsc (h : rows.Pairwise fun r s => r.place ≠ s.place) :
    ByPlace (orderAsc rows) := by
  have hle : (orderAsc rows).Pairwise fun r s => r.place ≤ s.place :=
    List.pairwise_insertionSort _ _
  have hne : (orderAsc rows).Pairwise fun r s => r.place ≠ s.place :=
    ((orderAsc_perm rows).pairwise_iff fun h => h.symm).2 h
  exact (hle.and hne).imp fun h => lt_of_le_of_ne h.1 h.2

/-- A list in order is the sorted form of its rows. -/
theorem orderAsc_eq (h : rows.Perm rows') (hs : ByPlace rows') : orderAsc rows = rows' := by
  have hne : rows.Pairwise fun r s => r.place ≠ s.place :=
    (h.pairwise_iff fun h => h.symm).2 (hs.imp ne_of_lt)
  refine List.Perm.eq_of_pairwise ?_ (byPlace_orderAsc hne) hs ((orderAsc_perm rows).trans h)
  exact fun _ _ _ _ hab hba => absurd hab hba.asymm

theorem orderDesc_eq (h : rows.Pairwise fun r s => r.place ≠ s.place) :
    orderDesc rows = (orderAsc rows).reverse := by
  have hperm : (orderDesc rows).Perm rows := List.perm_insertionSort _ _
  have hle : (orderDesc rows).Pairwise fun r s => s.place ≤ r.place :=
    List.pairwise_insertionSort _ _
  have hne : (orderDesc rows).Pairwise fun r s => r.place ≠ s.place :=
    (hperm.pairwise_iff fun h => h.symm).2 h
  have hdesc : ByPlace (orderDesc rows).reverse :=
    List.pairwise_reverse.2 ((hle.and hne).imp fun h => lt_of_le_of_ne h.1 h.2.symm)
  rw [orderAsc_eq (hperm.symm.trans (List.reverse_perm _).symm) hdesc, List.reverse_reverse]

end Order

section Table

variable {t : ActivityTable}

theorem ActivityTable.place_ne (t : ActivityTable) :
    t.rows.Pairwise fun r s => r.place ≠ s.place := by
  refine (List.pairwise_map.1 t.ids_nodup).imp fun hid hplace => hid ?_
  exact congrArg (fun p => (ofLex p).2) hplace

theorem ActivityTable.prevHash_eq (t : ActivityTable) :
    t.prevHash = ((orderAsc t.rows).getLast?.map (·.entryHash)).getD "" := by
  rw [ActivityTable.prevHash, orderDesc_eq t.place_ne, List.head?_reverse]

end Table

end Pinch
