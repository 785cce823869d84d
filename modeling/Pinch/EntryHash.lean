import Mathlib.Data.List.Basic
import Pinch.Separator
import Pinch.Utf

/-! The hash of an audit log entry, and what an ideal digest determines of the entry. -/

namespace Pinch

def hexPair (b : UInt8) : List Char :=
  [(b.toNat / 16).digitChar, (b.toNat % 16).digitChar]

/-- `digest("hex")`. -/
def hexEncode (bytes : Bytes) : String :=
  String.ofList (bytes.flatMap hexPair)

structure EntryFields where
  id : String
  timestamp : String
  actorPubkey : String
  actionType : String
  connectionAddress : String
  messageHash : String
  prevHash : String
  deriving DecidableEq

def EntryFields.texts (entry : EntryFields) : List String :=
  [entry.id, entry.timestamp, entry.actorPubkey, entry.actionType, entry.connectionAddress,
    entry.messageHash, entry.prevHash]

def EntryFields.data (entry : EntryFields) : String :=
  "|".intercalate entry.texts

def computeEntryHash (sha256 : Bytes → Bytes) (entry : EntryFields) : String :=
  hexEncode (sha256 (textEncode entry.data))

/-- A hash without collisions and with a digest that is never empty. -/
structure IdealHash (sha256 : Bytes → Bytes) : Prop where
  injective : Function.Injective sha256
  nonempty : ∀ b, sha256 b ≠ []

theorem digitChar_inj : ∀ m < 16, ∀ n < 16, m.digitChar = n.digitChar → m = n := by
  decide

theorem hexPair_injective : Function.Injective hexPair := by
  intro b c h
  simp only [hexPair, List.cons.injEq, and_true] at h
  have hb := b.toNat_lt
  have hc := c.toNat_lt
  have hdiv := digitChar_inj _ (by omega) _ (by omega) h.1
  have hmod := digitChar_inj _ (by omega) _ (by omega) h.2
  exact UInt8.toNat_inj.1 (by omega)

theorem hexEncode_injective : Function.Injective hexEncode := by
  intro a b h
  replace h : a.flatMap hexPair = b.flatMap hexPair := String.ofList_injective h
  induction a generalizing b with
  | nil =>
    cases b with
    | nil => rfl
    | cons y b => simp [hexPair] at h
  | cons x a ih =>
    cases b with
    | nil => simp [hexPair] at h
    | cons y b =>
      rw [List.flatMap_cons, List.flatMap_cons] at h
      obtain ⟨hxy, hrest⟩ := List.append_inj h rfl
      rw [hexPair_injective hxy, ih hrest]

theorem bar_notMem_hexEncode (bytes : Bytes) : '|' ∉ (hexEncode bytes).toList := by
  simp [hexEncode, hexPair]

theorem hexEncode_ne_empty {bytes : Bytes} (h : bytes ≠ []) : hexEncode bytes ≠ "" := by
  intro he
  exact h (hexEncode_injective (he.trans rfl))

section

variable {sha256 : Bytes → Bytes} {e e' : EntryFields}

theorem bar_notMem_computeEntryHash : '|' ∉ (computeEntryHash sha256 e).toList :=
  bar_notMem_hexEncode _

theorem IdealHash.ne_empty (h : IdealHash sha256) (e : EntryFields) :
    computeEntryHash sha256 e ≠ "" :=
  hexEncode_ne_empty (h.nonempty _)

theorem data_eq_of_hash_eq (h : Function.Injective sha256)
    (he : computeEntryHash sha256 e = computeEntryHash sha256 e') : e.data = e'.data :=
  textEncode_injective (h (hexEncode_injective he))

theorem computeEntryHash_eq_iff (h : Function.Injective sha256) :
    computeEntryHash sha256 e = computeEntryHash sha256 e' ↔ e.data = e'.data :=
  ⟨data_eq_of_hash_eq h, fun he => by rw [computeEntryHash, he, computeEntryHash]⟩

def EntryFields.BarFree (e : EntryFields) : Prop :=
  ∀ s ∈ e.texts, '|' ∉ s.toList

instance (e : EntryFields) : Decidable e.BarFree :=
  inferInstanceAs (Decidable (∀ s ∈ e.texts, '|' ∉ s.toList))

theorem eq_of_data_eq (h : e.BarFree) (h' : e'.BarFree) (he : e.data = e'.data) : e = e' := by
  have hsplit : ∀ d : EntryFields, d.BarFree →
      d.data.toList.splitOn '|' = d.texts.map String.toList := by
    intro d hd
    rw [EntryFields.data, String.toList_intercalate]
    exact List.splitOn_intercalate '|' (by simpa [EntryFields.BarFree] using hd)
      (by simp [EntryFields.texts])
  have htexts : e.texts.map String.toList = e'.texts.map String.toList := by
    rw [← hsplit e h, ← hsplit e' h', he]
  cases e
  cases e'
  simpa [EntryFields.texts, String.toList_inj] using htexts

theorem prevHash_eq_of_data_eq (h : '|' ∉ e.prevHash.toList) (h' : '|' ∉ e'.prevHash.toList)
    (he : e.data = e'.data) : e.prevHash = e'.prevHash := by
  have hlast : ∀ d : EntryFields, ∃ l, d.data.toList = l ++ '|' :: d.prevHash.toList := by
    intro d
    refine ⟨d.id.toList ++ '|' :: (d.timestamp.toList ++ '|' :: (d.actorPubkey.toList ++ '|' ::
      (d.actionType.toList ++ '|' :: (d.connectionAddress.toList ++ '|' ::
        d.messageHash.toList)))), ?_⟩
    simp [EntryFields.data, EntryFields.texts]
  obtain ⟨l, hl⟩ := hlast e
  obtain ⟨m, hm⟩ := hlast e'
  rw [he, hm] at hl
  exact String.toList_inj.1 (Separator.split_last_unique h h' hl.symm).2

end

end Pinch
