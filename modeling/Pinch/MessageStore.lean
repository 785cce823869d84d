import Pinch.IsoDate
import Mathlib.Data.List.Nodup

/-! The message table. A row's state is a text, since delivery confirmations write
the text they carry. -/

namespace Pinch

inductive Direction
  | inbound
  | outbound
  deriving DecidableEq

inductive Priority
  | low
  | normal
  | urgent
  deriving DecidableEq

inductive Attribution
  | agent
  | human
  deriving DecidableEq

structure MessageRecord where
  id : String
  connectionAddress : String
  direction : Direction
  body : String
  threadId : Option String
  replyTo : Option String
  priority : Priority
  sequence : Nat
  state : String
  failureReason : Option String := none
  attribution : Option Attribution
  createdAt : String
  updatedAt : String
  deriving DecidableEq

/-- Rows in insertion order; `id` is the primary key. -/
structure MessageStore where
  rows : List MessageRecord
  ids_nodup : (rows.map (·.id)).Nodup

namespace MessageStore

def empty : MessageStore := ⟨[], List.nodup_nil⟩

def getMessage (s : MessageStore) (id : String) : Option MessageRecord :=
  s.rows.find? (·.id = id)

theorem nodup_snoc {rows : List MessageRecord} {msg : MessageRecord}
    (h : (rows.map (·.id)).Nodup) (hid : msg.id ∉ rows.map (·.id)) :
    ((rows ++ [msg]).map (·.id)).Nodup := by
  rw [List.map_append, List.map_singleton, List.nodup_append]
  refine ⟨h, List.nodup_singleton _, ?_⟩
  rintro a ha b hb rfl
  obtain rfl := List.mem_singleton.mp hb
  exact hid ha

def saveMessage (s : MessageStore) (msg : MessageRecord) : Except String MessageStore :=
  if h : msg.id ∈ s.rows.map (·.id) then .error "UNIQUE constraint failed: messages.id"
  else .ok ⟨s.rows ++ [msg], nodup_snoc s.ids_nodup h⟩

def written (now : Int) (id state : String) (failureReason : Option String) (r : MessageRecord) :
    MessageRecord :=
  if r.id = id then
    { r with state := state, failureReason := failureReason, updatedAt := isoString now }
  else r

@[simp] theorem written_id (now : Int) (id state : String) (failureReason : Option String)
    (r : MessageRecord) : (written now id state failureReason r).id = r.id := by
  unfold written
  split_ifs <;> rfl

@[simp] theorem written_direction (now : Int) (id state : String) (failureReason : Option String)
    (r : MessageRecord) : (written now id state failureReason r).direction = r.direction := by
  unfold written
  split_ifs <;> rfl

@[simp] theorem written_connectionAddress (now : Int) (id state : String)
    (failureReason : Option String) (r : MessageRecord) :
    (written now id state failureReason r).connectionAddress = r.connectionAddress := by
  unfold written
  split_ifs <;> rfl

def updateState (s : MessageStore) (now : Int) (id state : String)
    (failureReason : Option String) : MessageStore where
  rows := s.rows.map (written now id state failureReason)
  ids_nodup := by
    simpa only [List.map_map, Function.comp_def, written_id] using s.ids_nodup

theorem getMessage_id {s : MessageStore} {id : String} {r : MessageRecord}
    (h : s.getMessage id = some r) : r.id = id := by
  simpa using List.find?_some h

theorem getMessage_updateState (s : MessageStore) (now : Int) (id state : String)
    (failureReason : Option String) (j : String) :
    (s.updateState now id state failureReason).getMessage j =
      (s.getMessage j).map (written now id state failureReason) := by
  unfold getMessage updateState
  rw [List.find?_map]
  simp only [Function.comp_def, written_id]

theorem getMessage_updateState_ne (s : MessageStore) (now : Int) {id j : String} (state : String)
    (failureReason : Option String) (h : j ≠ id) :
    (s.updateState now id state failureReason).getMessage j = s.getMessage j := by
  rw [getMessage_updateState]
  cases hj : s.getMessage j with
  | none => rfl
  | some r =>
    have hr : r.id ≠ id := getMessage_id hj ▸ h
    simp [written, hr]

theorem getMessage_saveMessage {s t : MessageStore} {msg : MessageRecord}
    (h : s.saveMessage msg = .ok t) :
    s.getMessage msg.id = none ∧
      ∀ j, t.getMessage j = if j = msg.id then some msg else s.getMessage j := by
  unfold saveMessage at h
  split_ifs at h with hid
  obtain rfl := Except.ok.inj h
  have hnone : s.getMessage msg.id = none := by
    rw [getMessage, List.find?_eq_none]
    intro r hr
    simp only [decide_eq_true_eq]
    exact fun heq => hid (heq ▸ List.mem_map_of_mem hr)
  refine ⟨hnone, fun j => ?_⟩
  simp only [getMessage, List.find?_append] at hnone ⊢
  by_cases hj : j = msg.id
  · subst hj
    simp [hnone]
  · simp [hj, Ne.symm hj]

end MessageStore

end Pinch
