import Pinch.IsoOrder
import Pinch.Latest
import Pinch.MessageStore

/-! The lists of messages that wait for a human or for the policy. Each is a query for the newest
thousand rows of a state, turned around. -/

namespace Pinch

def Direction.name : Direction → String
  | .inbound => "inbound"
  | .outbound => "outbound"

structure HistoryOptions where
  connectionAddress : Option String := none
  threadId : Option String := none
  direction : Option String := none
  state : Option String := none
  limit : Option ℤ := none
  offset : Option ℤ := none
  deriving DecidableEq

/-- A condition of the query. A filter that is absent or empty adds none. -/
def columnMatches (filter : Option String) (column : Option String) : Bool :=
  match filter with
  | none => true
  | some text => text = "" || column = some text

def HistoryOptions.selects (opts : HistoryOptions) (r : MessageRecord) : Bool :=
  columnMatches opts.connectionAddress (some r.connectionAddress) &&
    columnMatches opts.threadId r.threadId &&
    columnMatches opts.direction (some r.direction.name) &&
    columnMatches opts.state (some r.state)

/-- `LIMIT`: a negative number is no limit. -/
def limited (limit : ℤ) (rows : List MessageRecord) : List MessageRecord :=
  if limit < 0 then rows else rows.take limit.toNat

/-- Rows with equal times come in any order. -/
abbrev HistoryOrder := Newest MessageRecord.createdAt

namespace MessageStore

def getHistory (s : MessageStore) (order : HistoryOrder) (opts : HistoryOptions) :
    List MessageRecord :=
  let rows := order.run (s.rows.filter opts.selects)
  limited (opts.limit.getD 50) (rows.drop (opts.offset.getD 0).toNat)

/-- The rows of a state. -/
def inState (s : MessageStore) (state : String) : List MessageRecord :=
  s.rows.filter (·.state = state)

end MessageStore

/-- `getHistory({ state, limit: 1000 }).reverse()`. -/
def pendingIn (state : String) (order : HistoryOrder) (s : MessageStore) : List MessageRecord :=
  (s.getHistory order { state := some state, limit := some 1000 }).reverse

def getPendingForReview : HistoryOrder → MessageStore → List MessageRecord :=
  pendingIn "escalated_to_human"

def getPendingPolicyEval : HistoryOrder → MessageStore → List MessageRecord :=
  pendingIn "pending_policy_eval"

/-- The rows of a state, each once, the oldest first. Times of the years 0000 to 9999 sort as the
instants they stand for. -/
structure ListsAll (s : MessageStore) (state : String) (list : List MessageRecord) : Prop where
  mem_iff : ∀ r, r ∈ list ↔ r ∈ s.rows ∧ r.state = state
  nodup : list.Nodup
  oldest_first : list.Pairwise fun r r' => r.createdAt ≤ r'.createdAt
  oldest_instant_first : list.Pairwise fun r r' => ∀ t t', FourDigitYear t → FourDigitYear t' →
    r.createdAt = isoString t → r'.createdAt = isoString t' → t ≤ t'
  head_oldest : ∀ r ∈ list.head?, ∀ r' ∈ s.rows, r'.state = state → r.createdAt ≤ r'.createdAt

section

variable {s : MessageStore} {order : HistoryOrder} {state : String} {r : MessageRecord}

theorem MessageStore.mem_inState : r ∈ s.inState state ↔ r ∈ s.rows ∧ r.state = state := by
  simp [MessageStore.inState]

theorem MessageStore.inState_nodup (s : MessageStore) (state : String) :
    (s.inState state).Nodup :=
  (List.Nodup.of_map _ s.ids_nodup).filter _

theorem pendingIn_eq (hstate : state ≠ "") :
    pendingIn state order s = order.latest 1000 (s.inState state) := by
  have hselects : s.rows.filter (HistoryOptions.selects
      { state := some state, limit := some 1000 }) = s.inState state := by
    apply List.filter_congr
    intro r _
    simp [HistoryOptions.selects, columnMatches, hstate]
  rw [pendingIn, MessageStore.getHistory, hselects]
  rfl

theorem pairwise_instant {list : List MessageRecord}
    (h : list.Pairwise fun r r' => r.createdAt ≤ r'.createdAt) :
    list.Pairwise fun r r' => ∀ t t', FourDigitYear t → FourDigitYear t' →
      r.createdAt = isoString t → r'.createdAt = isoString t' → t ≤ t' := by
  refine h.imp ?_
  intro r r' hle t t' hyear hyear' ht ht'
  by_contra hlt
  rw [ht, ht'] at hle
  exact absurd (isoString_lt (not_le.1 hlt) hyear' hyear) (not_lt.2 hle)

theorem listsAll_iff (hstate : state ≠ "") :
    ListsAll s state (pendingIn state order s) ↔ (s.inState state).length ≤ 1000 := by
  rw [pendingIn_eq hstate]
  constructor
  · intro h
    have hperm : (order.latest 1000 (s.inState state)).Perm (s.inState state) := by
      rw [List.perm_ext_iff_of_nodup h.nodup (s.inState_nodup state)]
      intro r
      rw [h.mem_iff, MessageStore.mem_inState]
    rw [← hperm.length_eq]
    exact Newest.length_latest_le
  · intro h
    have hperm : (order.latest 1000 (s.inState state)).Perm (s.inState state) :=
      Newest.latest_perm h
    have hmem : ∀ r, r ∈ order.latest 1000 (s.inState state) ↔ r ∈ s.rows ∧ r.state = state := by
      intro r
      rw [hperm.mem_iff, MessageStore.mem_inState]
    have hasc : (order.latest 1000 (s.inState state)).Pairwise
        fun r r' => r.createdAt ≤ r'.createdAt := Newest.latest_asc
    refine ⟨hmem, Newest.nodup_latest (s.inState_nodup state), hasc, pairwise_instant hasc, ?_⟩
    intro r hr r' hrow hstate'
    have hr' := (hmem r').2 ⟨hrow, hstate'⟩
    cases hlist : order.latest 1000 (s.inState state) with
    | nil => simp [hlist] at hr
    | cons first rest =>
      rw [hlist] at hr hr' hasc
      obtain rfl : first = r := by simpa using hr
      rcases List.mem_cons.1 hr' with rfl | hrest
      · exact le_rfl
      · exact (List.pairwise_cons.1 hasc).1 r' hrest

end

/-- Each list is complete exactly as long as no more than a thousand messages wait. -/
theorem review_list_complete_iff (s : MessageStore) (order : HistoryOrder) :
    (ListsAll s "escalated_to_human" (getPendingForReview order s) ↔
      (s.inState "escalated_to_human").length ≤ 1000) ∧
    (ListsAll s "pending_policy_eval" (getPendingPolicyEval order s) ↔
      (s.inState "pending_policy_eval").length ≤ 1000) :=
  ⟨listsAll_iff (by decide), listsAll_iff (by decide)⟩

/-- A waiting message. The first one came in before all others. -/
def waitingMessage (n : ℕ) : MessageRecord where
  id := String.ofList (List.replicate n 'm')
  connectionAddress := "bob"
  direction := .inbound
  body := ""
  threadId := none
  replyTo := none
  priority := .normal
  sequence := 0
  state := "escalated_to_human"
  attribution := none
  createdAt := if n = 0 then "2026-01-01T00:00:00.000Z" else "2026-01-02T00:00:00.000Z"
  updatedAt := "2026-01-02T00:00:00.000Z"

/-- A store with a number of waiting messages. -/
def crowd (count : ℕ) : MessageStore where
  rows := (List.range count).map waitingMessage
  ids_nodup := by
    rw [List.map_map]
    refine List.nodup_range.map fun m n h => ?_
    have hlength := congrArg (fun id : String => id.toList.length) h
    simpa [waitingMessage] using hlength

section

variable {count : ℕ} {r : MessageRecord}

theorem mem_crowd : r ∈ (crowd count).rows ↔ ∃ n < count, waitingMessage n = r := by
  simp [crowd]

theorem waitingMessage_zero_oldest (h : r ∈ (crowd count).rows) (hne : r ≠ waitingMessage 0) :
    (waitingMessage 0).createdAt < r.createdAt := by
  obtain ⟨n, -, rfl⟩ := mem_crowd.1 h
  have hn : n ≠ 0 := by
    rintro rfl
    exact hne rfl
  simp only [waitingMessage, hn, if_true, if_false]
  decide

theorem inState_crowd (count : ℕ) :
    (crowd count).inState "escalated_to_human" = (crowd count).rows := by
  rw [MessageStore.inState, List.filter_eq_self]
  intro r hr
  obtain ⟨n, -, rfl⟩ := mem_crowd.1 hr
  rfl

theorem oldest_notMem {order : HistoryOrder} (h : 1000 < count) :
    waitingMessage 0 ∉ getPendingForReview order (crowd count) := by
  have hnodup := (crowd count).inState_nodup "escalated_to_human"
  rw [getPendingForReview, pendingIn_eq (by decide)]
  rw [inState_crowd] at hnodup ⊢
  refine Newest.notMem_latest hnodup ?_ fun r hr => waitingMessage_zero_oldest hr
  simpa [crowd] using h

end

/-- With one message more than the limit, the one that has waited longest is missing. -/
theorem oldest_message_missing :
    waitingMessage 0 ∈ (crowd 1001).rows ∧ (waitingMessage 0).state = "escalated_to_human" ∧
      (∀ r ∈ (crowd 1001).rows, r ≠ waitingMessage 0 →
        (waitingMessage 0).createdAt < r.createdAt) ∧
      ∀ order, waitingMessage 0 ∉ getPendingForReview order (crowd 1001) :=
  ⟨mem_crowd.2 ⟨0, by decide, rfl⟩, rfl, fun _ => waitingMessage_zero_oldest,
    fun _ => oldest_notMem (by decide)⟩

end Pinch
