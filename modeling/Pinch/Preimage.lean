import Pinch.AuditVerify
import Pinch.Separator

/-! What the text behind an entry's hash says about the entry. The seven columns are joined
with bars, and the verifier reads each of them back from the table: an entry is the only one
with its text exactly when none of its columns holds a bar. -/

namespace Pinch

open AuditVerify Separator

variable {e e' : EntryFields}

theorem EntryFields.ext_texts (h : e.texts = e'.texts) : e = e' := by
  cases e
  cases e'
  simpa [EntryFields.texts] using h

theorem exists_texts_eq {ls : List (List Char)} (h : ls.length = 7) :
    ∃ e : EntryFields, e.texts.map String.toList = ls := by
  match ls, h with
  | [a, b, c, d, f, g, i], _ =>
    exact ⟨⟨.ofList a, .ofList b, .ofList c, .ofList d, .ofList f, .ofList g, .ofList i⟩,
      by simp [EntryFields.texts]⟩

theorem texts_length (e : EntryFields) : (e.texts.map String.toList).length = 7 := rfl

theorem data_eq_iff : e.data = e'.data ↔
    ['|'].intercalate (e.texts.map String.toList) =
      ['|'].intercalate (e'.texts.map String.toList) := by
  have htext : ∀ d : EntryFields,
      d.data.toList = ['|'].intercalate (d.texts.map String.toList) := by
    intro d
    exact String.toList_intercalate
  rw [← htext, ← htext, String.toList_inj]

theorem barFree_iff : e.BarFree ↔ ∀ l ∈ e.texts.map String.toList, '|' ∉ l := by
  simp [EntryFields.BarFree]

/-- An entry is the only one with its text if and only if no column of it holds a bar. -/
theorem preimage_unambiguous_iff (e : EntryFields) :
    (∀ e' : EntryFields, e'.data = e.data → e' = e) ↔ e.BarFree := by
  rw [barFree_iff, ← intercalate_unique_iff (by rw [texts_length]; decide)]
  constructor
  · intro h ls hlength hjoin
    obtain ⟨e', rfl⟩ := exists_texts_eq (hlength.trans (texts_length e))
    rw [h e' (data_eq_iff.2 hjoin)]
  · intro h e' hdata
    have htexts := h (e'.texts.map String.toList) rfl (data_eq_iff.1 hdata)
    have hinj : Function.Injective String.toList := fun _ _ => String.toList_inj.1
    exact EntryFields.ext_texts (List.map_injective_iff.2 hinj htexts)

/-- The entry for a message from a peer whose address ends with a bar and some text. -/
def barredEvent : NewActivity where
  connectionAddress := "bob@h|x"
  eventType := "message_received"
  messageHash := some "m"

def barredRow : ActivityRow :=
  ActivityFeed.newRow logHash "1" (isoString 0) barredEvent ""

/-- The same entry with the end of the address moved into the message's hash. -/
def shiftedRow : ActivityRow :=
  { barredRow with
    connectionAddress := "bob@h"
    messageHash := some "x|m" }

def oneRowLog (row : ActivityRow) : ActivityTable :=
  ⟨[row], List.nodup_singleton _⟩

theorem run_oneRowLog {row : ActivityRow} (hprev : row.prevHash = "")
    (hentry : row.entryHash = computeEntryHash logHash row.fields) :
    (run logHash (oneRowLog row) fullMode).isValid = true := by
  have hne : row.entryHash ≠ "" := by
    rw [hentry]
    exact logHash_ideal.ne_empty _
  have hchain : chain (oneRowLog row) = [row] := by
    simp [chain, hashedRows, oneRowLog, ActivityRow.hashed, hne, orderAsc]
  rw [run_fullMode_isValid_iff, hchain]
  exact ⟨hprev, hentry, trivial⟩

/-- The verifier accepts the recorded log and the one with the shifted bar alike. -/
theorem bar_moves_between_columns :
    barredRow.fields.data = shiftedRow.fields.data ∧
      barredRow.fields.connectionAddress ≠ shiftedRow.fields.connectionAddress ∧
      barredRow.fields.messageHash ≠ shiftedRow.fields.messageHash ∧
      (ActivityFeed.recordAll logHash .empty [⟨"1", 0, barredEvent⟩]).rows = [barredRow] ∧
      (run logHash (oneRowLog barredRow) fullMode).isValid = true ∧
      (run logHash (oneRowLog shiftedRow) fullMode).isValid = true := by
  have hdata : barredRow.fields.data = shiftedRow.fields.data := by decide +kernel
  have hhash : shiftedRow.entryHash = computeEntryHash logHash shiftedRow.fields := by
    rw [computeEntryHash, ← hdata]
    rfl
  exact ⟨hdata, by decide +kernel, by decide +kernel, rfl, run_oneRowLog rfl rfl,
    run_oneRowLog rfl hhash⟩

end Pinch
