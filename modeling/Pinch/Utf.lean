import Mathlib.Data.List.Basic

/-! Text as the agent's runtime sees it: lengths in UTF-16 code units, and the
UTF-8 conversions of `TextEncoder` and `TextDecoder`. -/

namespace Pinch

abbrev Bytes := List UInt8

/-- `String.prototype.length`: characters outside the basic plane count twice. -/
def utf16Length (s : String) : Nat :=
  s.toList.foldl (fun n c => n + if 0xFFFF < c.toNat then 2 else 1) 0

def textEncode (s : String) : Bytes :=
  s.toList.flatMap String.utf8EncodeChar

theorem textEncode_append (s t : String) : textEncode (s ++ t) = textEncode s ++ textEncode t := by
  simp [textEncode]

/-- What the decoder remembers inside a multi-byte sequence: continuation bytes
still to come, the admissible range of the next one, and the bits so far. -/
structure DecoderState where
  needed : Nat := 0
  lower : Nat := 0x80
  upper : Nat := 0xBF
  codePoint : Nat := 0
  deriving DecidableEq

def replacementChar : Char := Char.ofNat 0xFFFD

def decodeLead (b : Nat) : List Char × DecoderState :=
  if b < 0x80 then ([Char.ofNat b], {})
  else if 0xC2 ≤ b ∧ b ≤ 0xDF then ([], { needed := 1, codePoint := b - 0xC0 })
  else if 0xE0 ≤ b ∧ b ≤ 0xEF then
    ([], { needed := 2, codePoint := b - 0xE0,
           lower := if b = 0xE0 then 0xA0 else 0x80, upper := if b = 0xED then 0x9F else 0xBF })
  else if 0xF0 ≤ b ∧ b ≤ 0xF4 then
    ([], { needed := 3, codePoint := b - 0xF0,
           lower := if b = 0xF0 then 0x90 else 0x80, upper := if b = 0xF4 then 0x8F else 0xBF })
  else ([replacementChar], {})

/-- A byte outside the admissible range ends the sequence with U+FFFD and is
read again as a lead byte. -/
def decodeByte (st : DecoderState) (b : Nat) : List Char × DecoderState :=
  if st.needed = 0 then decodeLead b
  else if b < st.lower ∨ st.upper < b then
    let r := decodeLead b
    (replacementChar :: r.1, r.2)
  else
    let cp := st.codePoint * 64 + (b - 0x80)
    if st.needed = 1 then ([Char.ofNat cp], {})
    else ([], { needed := st.needed - 1, codePoint := cp })

def decodeBytes (st : DecoderState) : Bytes → List Char
  | [] => if st.needed = 0 then [] else [replacementChar]
  | b :: bs =>
    let r := decodeByte st b.toNat
    r.1 ++ decodeBytes r.2 bs

def stripBom : Bytes → Bytes
  | 0xEF :: 0xBB :: 0xBF :: bs => bs
  | bs => bs

/-- `new TextDecoder().decode`: lossy, and a leading byte order mark is dropped. -/
def textDecode (bs : Bytes) : String :=
  String.ofList (decodeBytes {} (stripBom bs))

section RoundTrip

theorem decodeBytes_cons {st st' : DecoderState} {cs : List Char} {n : Nat} (hn : n < 256)
    (h : decodeByte st n = (cs, st')) (bs : Bytes) :
    decodeBytes st (UInt8.ofNat n :: bs) = cs ++ decodeBytes st' bs := by
  have hb : (UInt8.ofNat n).toNat = n := by
    rw [UInt8.toNat_ofNat', Nat.mod_eq_of_lt hn]
  rw [decodeBytes, hb, h]

theorem decodeByte_next {st : DecoderState} {b : Nat} (h : 2 ≤ st.needed) (hl : st.lower ≤ b)
    (hu : b ≤ st.upper) : decodeByte st b =
      ([], { needed := st.needed - 1, codePoint := st.codePoint * 64 + (b - 0x80) }) := by
  unfold decodeByte
  rw [if_neg (by omega), if_neg (by omega)]
  exact if_neg (by omega)

theorem decodeByte_last {st : DecoderState} {b : Nat} (h : st.needed = 1) (hl : st.lower ≤ b)
    (hu : b ≤ st.upper) :
    decodeByte st b = ([Char.ofNat (st.codePoint * 64 + (b - 0x80))], {}) := by
  unfold decodeByte
  rw [if_neg (by omega), if_neg (by omega)]
  exact if_pos h

theorem decodeByte_two {b : Nat} (hl : 0xC2 ≤ b) (hu : b ≤ 0xDF) :
    decodeByte {} b = ([], { needed := 1, codePoint := b - 0xC0 }) := by
  unfold decodeByte decodeLead
  rw [if_pos rfl, if_neg (by omega), if_pos ⟨hl, hu⟩]

theorem decodeByte_three {b : Nat} (hl : 0xE0 ≤ b) (hu : b ≤ 0xEF) : decodeByte {} b =
    ([], { needed := 2, codePoint := b - 0xE0,
           lower := if b = 0xE0 then 0xA0 else 0x80, upper := if b = 0xED then 0x9F else 0xBF }) := by
  unfold decodeByte decodeLead
  rw [if_pos rfl, if_neg (by omega), if_neg (by omega), if_pos ⟨hl, hu⟩]

theorem decodeByte_four {b : Nat} (hl : 0xF0 ≤ b) (hu : b ≤ 0xF4) : decodeByte {} b =
    ([], { needed := 3, codePoint := b - 0xF0,
           lower := if b = 0xF0 then 0x90 else 0x80, upper := if b = 0xF4 then 0x8F else 0xBF }) := by
  unfold decodeByte decodeLead
  rw [if_pos rfl, if_neg (by omega), if_neg (by omega), if_neg (by omega), if_pos ⟨hl, hu⟩]

theorem toNat_valid (c : Char) : c.toNat < 0xD800 ∨ 0xDFFF < c.toNat ∧ c.toNat < 0x110000 :=
  c.valid

theorem decodeBytes_two {v : Nat} (hl : 0x7F < v) (hu : v ≤ 0x7FF) (bs : Bytes) :
    decodeBytes {} (UInt8.ofNat (v / 64 % 32 + 192) :: UInt8.ofNat (v % 64 + 128) :: bs) =
      Char.ofNat v :: decodeBytes {} bs := by
  have hlead := decodeByte_two (b := v / 64 % 32 + 192) (by omega) (by omega)
  rw [decodeBytes_cons (by omega) hlead,
    decodeBytes_cons (by omega) (decodeByte_last rfl (by simp) (by simp; omega))]
  have hv : (v / 64 % 32 + 192 - 192) * 64 + (v % 64 + 128 - 128) = v := by omega
  simp only [hv, List.nil_append, List.singleton_append]

theorem decodeBytes_three {v : Nat} (hl : 0x7FF < v) (hu : v ≤ 0xFFFF)
    (hv : v < 0xD800 ∨ 0xDFFF < v) (bs : Bytes) :
    decodeBytes {} (UInt8.ofNat (v / 4096 % 16 + 224) :: UInt8.ofNat (v / 64 % 64 + 128) ::
      UInt8.ofNat (v % 64 + 128) :: bs) = Char.ofNat v :: decodeBytes {} bs := by
  have hlead := decodeByte_three (b := v / 4096 % 16 + 224) (by omega) (by omega)
  have hlower : (if v / 4096 % 16 + 224 = 0xE0 then 0xA0 else 0x80) ≤ v / 64 % 64 + 128 := by
    split <;> omega
  have hupper : v / 64 % 64 + 128 ≤ if v / 4096 % 16 + 224 = 0xED then 0x9F else 0xBF := by
    split <;> omega
  generalize (if v / 4096 % 16 + 224 = 0xE0 then 0xA0 else 0x80) = lower at hlead hlower
  generalize (if v / 4096 % 16 + 224 = 0xED then 0x9F else 0xBF) = upper at hlead hupper
  have hnext := @decodeByte_next ⟨2, lower, upper, v / 4096 % 16 + 224 - 0xE0⟩ (v / 64 % 64 + 128)
    (Nat.le_refl 2) hlower hupper
  rw [decodeBytes_cons (by omega) hlead, decodeBytes_cons (by omega) hnext,
    decodeBytes_cons (by omega) (decodeByte_last rfl (by simp) (by simp; omega))]
  have hv : ((v / 4096 % 16 + 224 - 224) * 64 + (v / 64 % 64 + 128 - 128)) * 64 +
      (v % 64 + 128 - 128) = v := by omega
  simp only [hv, List.nil_append, List.singleton_append]

theorem decodeBytes_four {v : Nat} (hl : 0xFFFF < v) (hu : v < 0x110000) (bs : Bytes) :
    decodeBytes {} (UInt8.ofNat (v / 262144 % 8 + 240) :: UInt8.ofNat (v / 4096 % 64 + 128) ::
      UInt8.ofNat (v / 64 % 64 + 128) :: UInt8.ofNat (v % 64 + 128) :: bs) =
      Char.ofNat v :: decodeBytes {} bs := by
  have hlead := decodeByte_four (b := v / 262144 % 8 + 240) (by omega) (by omega)
  have hlower : (if v / 262144 % 8 + 240 = 0xF0 then 0x90 else 0x80) ≤ v / 4096 % 64 + 128 := by
    split <;> omega
  have hupper : v / 4096 % 64 + 128 ≤ if v / 262144 % 8 + 240 = 0xF4 then 0x8F else 0xBF := by
    split <;> omega
  generalize (if v / 262144 % 8 + 240 = 0xF0 then 0x90 else 0x80) = lower at hlead hlower
  generalize (if v / 262144 % 8 + 240 = 0xF4 then 0x8F else 0xBF) = upper at hlead hupper
  have hnext := @decodeByte_next ⟨3, lower, upper, v / 262144 % 8 + 240 - 0xF0⟩
    (v / 4096 % 64 + 128) (by simp) hlower hupper
  rw [decodeBytes_cons (by omega) hlead, decodeBytes_cons (by omega) hnext,
    decodeBytes_cons (by omega) (decodeByte_next (Nat.le_refl 2) (by simp) (by simp; omega)),
    decodeBytes_cons (by omega) (decodeByte_last rfl (by simp) (by simp; omega))]
  have hv : (((v / 262144 % 8 + 240 - 240) * 64 + (v / 4096 % 64 + 128 - 128)) * 64 +
      (v / 64 % 64 + 128 - 128)) * 64 + (v % 64 + 128 - 128) = v := by omega
  simp only [hv, List.nil_append, List.singleton_append]

theorem decodeBytes_encodeChar (c : Char) (bs : Bytes) :
    decodeBytes {} (String.utf8EncodeChar c ++ bs) = c :: decodeBytes {} bs := by
  have hvalid := toNat_valid c
  have hc : Char.ofNat c.toNat = c := Char.ofNat_toNat c
  have hval : c.val.toNat = c.toNat := rfl
  unfold String.utf8EncodeChar
  simp only [hval]
  split
  · have hlead : decodeByte {} c.toNat = ([Char.ofNat c.toNat], {}) := by
      rw [decodeByte, if_pos rfl, decodeLead, if_pos (by omega)]
    rw [List.singleton_append, decodeBytes_cons (by omega) hlead, hc]
    rfl
  · split
    · exact (decodeBytes_two (by omega) ‹_› bs).trans (by rw [hc])
    · split
      · exact (decodeBytes_three (by omega) ‹_› (by omega) bs).trans (by rw [hc])
      · exact (decodeBytes_four (by omega) (by omega) bs).trans (by rw [hc])

theorem decodeBytes_textEncode (s : String) : decodeBytes {} (textEncode s) = s.toList := by
  unfold textEncode
  induction s.toList with
  | nil => rfl
  | cons c cs ih => rw [List.flatMap_cons, decodeBytes_encodeChar, ih]

theorem textEncode_injective : Function.Injective textEncode := by
  intro s t h
  rw [← String.toList_inj, ← decodeBytes_textEncode, h, decodeBytes_textEncode]

def byteOrderMark : Char := Char.ofNat 0xFEFF

/-- Text that does not begin with a byte order mark survives. -/
theorem textDecode_textEncode {s : String} (h : s.toList.head? ≠ some byteOrderMark) :
    textDecode (textEncode s) = s := by
  have hstrip : stripBom (textEncode s) = textEncode s := by
    unfold stripBom
    split
    · rename_i bs hbs
      refine absurd ?_ h
      rw [← decodeBytes_textEncode, hbs]
      exact congrArg List.head? (decodeBytes_three (v := 0xFEFF) (by decide) (by decide)
        (by decide) bs)
    · rfl
  rw [textDecode, hstrip, decodeBytes_textEncode, String.ofList_toList]

end RoundTrip

section Ascii

/-- Bytes below 128 read as characters. -/
def asciiText (bs : Bytes) : String :=
  String.ofList (bs.map fun b => Char.ofNat b.toNat)

theorem toNat_ofByte (b : UInt8) : (Char.ofNat b.toNat).toNat = b.toNat := by
  have hb := b.toNat_lt
  have hvalid : b.toNat.isValidChar := Or.inl (by omega)
  rw [Char.ofNat, dif_pos hvalid]
  rfl

theorem utf8EncodeChar_ascii {c : Char} (h : c.toNat < 128) :
    String.utf8EncodeChar c = [UInt8.ofNat c.toNat] := by
  have hval : c.val.toNat ≤ 0x7F := Nat.le_of_lt_succ h
  unfold String.utf8EncodeChar
  simp only [hval, if_true]
  rfl

theorem textEncode_asciiText {bs : Bytes} (h : ∀ b ∈ bs, b.toNat < 128) :
    textEncode (asciiText bs) = bs := by
  rw [textEncode, asciiText, String.toList_ofList]
  induction bs with
  | nil => rfl
  | cons b bs ih =>
    have hb : (Char.ofNat b.toNat).toNat < 128 := by
      rw [toNat_ofByte]
      exact h b List.mem_cons_self
    rw [List.map_cons, List.flatMap_cons, utf8EncodeChar_ascii hb, toNat_ofByte,
      ih fun d hd => h d (List.mem_cons_of_mem _ hd), UInt8.ofNat_toNat, List.singleton_append]

theorem asciiText_textEncode {s : String} (h : ∀ c ∈ s.toList, c.toNat < 128) :
    asciiText (textEncode s) = s := by
  rw [← String.toList_inj, asciiText, textEncode, String.toList_ofList]
  generalize s.toList = cs at h
  induction cs with
  | nil => rfl
  | cons c cs ih =>
    have hc := h c List.mem_cons_self
    have hbyte : (UInt8.ofNat c.toNat).toNat = c.toNat := by
      simp
      omega
    rw [List.flatMap_cons, utf8EncodeChar_ascii hc, List.singleton_append, List.map_cons, hbyte,
      Char.ofNat_toNat, ih fun d hd => h d (List.mem_cons_of_mem _ hd)]

/-- The bytes of other characters are all above 127. -/
theorem toNat_of_mem_encodeChar {b : UInt8} {c : Char} (h : b ∈ String.utf8EncodeChar c)
    (hb : b.toNat < 128) : b.toNat = c.toNat := by
  have hval : c.val.toNat = c.toNat := rfl
  unfold String.utf8EncodeChar at h
  simp only [hval] at h
  split at h
  · simp only [List.mem_singleton] at h
    subst h
    simp
    omega
  · exfalso
    split at h
    · simp only [List.mem_cons, List.not_mem_nil, or_false] at h
      rcases h with rfl | rfl <;> simp at hb <;> omega
    · split at h
      · simp only [List.mem_cons, List.not_mem_nil, or_false] at h
        rcases h with rfl | rfl | rfl <;> simp at hb <;> omega
      · simp only [List.mem_cons, List.not_mem_nil, or_false] at h
        rcases h with rfl | rfl | rfl | rfl <;> simp at hb <;> omega

theorem mem_textEncode_ascii {b : UInt8} (hb : b.toNat < 128) (s : String) :
    b ∈ textEncode s ↔ Char.ofNat b.toNat ∈ s.toList := by
  rw [textEncode, List.mem_flatMap]
  constructor
  · rintro ⟨c, hc, hmem⟩
    rwa [toNat_of_mem_encodeChar hmem hb, Char.ofNat_toNat]
  · intro h
    refine ⟨_, h, ?_⟩
    rw [utf8EncodeChar_ascii (by rwa [toNat_ofByte]), toNat_ofByte, UInt8.ofNat_toNat]
    exact List.mem_singleton_self b

end Ascii

end Pinch
