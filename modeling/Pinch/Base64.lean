import Mathlib.Data.List.Nodup
import Pinch.Utf

/-! Base64 as `Buffer` writes and reads it. Sextets are kept apart from their
letters, so that the bit arithmetic is done once on numbers. -/

namespace Pinch.Base64

def alphabet : List Char :=
  "ABCDEFGHIJKLMNOPQRSTUVWXYZabcdefghijklmnopqrstuvwxyz0123456789+/".toList

def letter (v : Nat) : Char := alphabet.getD v 'A'

/-- The value of a letter; `-` and `_` of the URL alphabet are read as well,
any other character has none. -/
def value (c : Char) : Option Nat :=
  if c = '-' then some 62
  else if c = '_' then some 63
  else if c ∈ alphabet then some (alphabet.idxOf c)
  else none

def sextets : Bytes → List Nat
  | [] => []
  | [a] => [a.toNat / 4, a.toNat % 4 * 16]
  | [a, b] => [a.toNat / 4, a.toNat % 4 * 16 + b.toNat / 16, b.toNat % 16 * 4]
  | a :: b :: c :: rest =>
    a.toNat / 4 :: (a.toNat % 4 * 16 + b.toNat / 16) ::
      (b.toNat % 16 * 4 + c.toNat / 64) :: c.toNat % 64 :: sextets rest

def padding (n : Nat) : List Char := List.replicate ((3 - n % 3) % 3) '='

def encode (bs : Bytes) : String :=
  String.ofList ((sextets bs).map letter ++ padding bs.length)

def unsextets : List Nat → Bytes
  | [] => []
  | [_] => []
  | [p, q] => [UInt8.ofNat (p * 4 + q / 16)]
  | [p, q, r] => [UInt8.ofNat (p * 4 + q / 16), UInt8.ofNat (q % 16 * 16 + r / 4)]
  | p :: q :: r :: s :: rest =>
    UInt8.ofNat (p * 4 + q / 16) :: UInt8.ofNat (q % 16 * 16 + r / 4) ::
      UInt8.ofNat (r % 4 * 64 + s) :: unsextets rest

/-- `Buffer.from(text, "base64")`: reading stops at the padding, and characters
outside the alphabet are skipped. -/
def decode (s : String) : Bytes :=
  unsextets ((s.toList.takeWhile (· ≠ '=')).filterMap value)

theorem alphabet_eq : alphabet = ['A', 'B', 'C', 'D', 'E', 'F', 'G', 'H', 'I', 'J', 'K', 'L', 'M',
    'N', 'O', 'P', 'Q', 'R', 'S', 'T', 'U', 'V', 'W', 'X', 'Y', 'Z', 'a', 'b', 'c', 'd', 'e', 'f',
    'g', 'h', 'i', 'j', 'k', 'l', 'm', 'n', 'o', 'p', 'q', 'r', 's', 't', 'u', 'v', 'w', 'x', 'y',
    'z', '0', '1', '2', '3', '4', '5', '6', '7', '8', '9', '+', '/'] :=
  String.toList_ofList

theorem length_alphabet : alphabet.length = 64 := by
  rw [alphabet_eq]
  rfl

theorem codes_alphabet : alphabet.map Char.toNat =
    List.range' 65 26 ++ List.range' 97 26 ++ List.range' 48 10 ++ [43, 47] := by
  rw [alphabet_eq]
  rfl

theorem nodup_alphabet : alphabet.Nodup := by
  apply List.Nodup.of_map Char.toNat
  rw [codes_alphabet]
  decide

/-- The letters are told apart from all that the decoders treat in a way of its own. -/
theorem notMem_alphabet {c : Char} (hc : c ∈ ['-', '_', '=', '\n', '\r']) : c ∉ alphabet := by
  have hnone : ∀ n ∈ [45, 95, 61, 10, 13], n ∉ alphabet.map Char.toNat := by
    rw [codes_alphabet]
    decide
  intro hmem
  exact hnone c.toNat (List.mem_map_of_mem hc) (List.mem_map_of_mem hmem)

section Letters

variable {v : ℕ}

theorem letter_eq (h : v < alphabet.length) : letter v = alphabet[v] := by
  rw [letter, List.getD_eq_getElem?_getD, List.getElem?_eq_getElem h, Option.getD_some]

theorem letter_mem (h : v < 64) : letter v ∈ alphabet := by
  rw [← length_alphabet] at h
  rw [letter_eq h]
  exact List.getElem_mem h

theorem idxOf_letter (h : v < 64) : alphabet.idxOf (letter v) = v := by
  rw [← length_alphabet] at h
  rw [letter_eq h, nodup_alphabet.idxOf_getElem v h]

theorem letter_ne (h : v < 64) {c : Char} (hc : c ∈ ['-', '_', '=', '\n', '\r']) :
    letter v ≠ c := by
  rintro rfl
  exact notMem_alphabet hc (letter_mem h)

theorem value_letter (h : v < 64) : value (letter v) = some v ∧ letter v ≠ '=' := by
  refine ⟨?_, letter_ne h (by decide)⟩
  rw [value, if_neg (letter_ne h (by decide)), if_neg (letter_ne h (by decide)),
    if_pos (letter_mem h), idxOf_letter h]

end Letters

theorem sextets_lt (bs : Bytes) : ∀ v ∈ sextets bs, v < 64 := by
  induction bs using sextets.induct with
  | case1 => simp [sextets]
  | case2 a =>
    have ha := a.toNat_lt
    simp only [sextets, List.mem_cons, List.not_mem_nil, or_false, forall_eq_or_imp, forall_eq]
    omega
  | case3 a b =>
    have ha := a.toNat_lt
    have hb := b.toNat_lt
    simp only [sextets, List.mem_cons, List.not_mem_nil, or_false, forall_eq_or_imp, forall_eq]
    omega
  | case4 a b c rest ih =>
    have ha := a.toNat_lt
    have hb := b.toNat_lt
    have hc := c.toNat_lt
    simp only [sextets, List.mem_cons, forall_eq_or_imp]
    exact ⟨by omega, by omega, by omega, by omega, ih⟩

theorem ofNat_eq {b : UInt8} {n : Nat} (h : n = b.toNat) : UInt8.ofNat n = b := by
  rw [h, UInt8.ofNat_toNat]

theorem unsextets_sextets (bs : Bytes) : unsextets (sextets bs) = bs := by
  induction bs using sextets.induct with
  | case1 => rfl
  | case2 a =>
    have ha : a.toNat / 4 * 4 + a.toNat % 4 * 16 / 16 = a.toNat := by omega
    simp only [sextets, unsextets, ofNat_eq ha]
  | case3 a b =>
    have hb := b.toNat_lt
    have ea : a.toNat / 4 * 4 + (a.toNat % 4 * 16 + b.toNat / 16) / 16 = a.toNat := by omega
    have eb : (a.toNat % 4 * 16 + b.toNat / 16) % 16 * 16 + b.toNat % 16 * 4 / 4 = b.toNat := by
      omega
    simp only [sextets, unsextets, ofNat_eq ea, ofNat_eq eb]
  | case4 a b c rest ih =>
    have hb := b.toNat_lt
    have hc := c.toNat_lt
    have ea : a.toNat / 4 * 4 + (a.toNat % 4 * 16 + b.toNat / 16) / 16 = a.toNat := by omega
    have eb : (a.toNat % 4 * 16 + b.toNat / 16) % 16 * 16 +
        (b.toNat % 16 * 4 + c.toNat / 64) / 4 = b.toNat := by omega
    have ec : (b.toNat % 16 * 4 + c.toNat / 64) % 4 * 64 + c.toNat % 64 = c.toNat := by omega
    simp only [sextets, unsextets, ofNat_eq ea, ofNat_eq eb, ofNat_eq ec, ih]

theorem takeWhile_letters {vs : List Nat} (h : ∀ v ∈ vs, v < 64) (n : Nat) :
    (vs.map letter ++ List.replicate n '=').takeWhile (· ≠ '=') = vs.map letter := by
  have hl : ∀ c ∈ vs.map letter, decide (c ≠ '=') = true := by
    intro c hc
    obtain ⟨v, hv, rfl⟩ := List.mem_map.mp hc
    exact decide_eq_true (value_letter (h v hv)).2
  rw [List.takeWhile_append_of_pos hl]
  cases n <;> simp [List.replicate_succ]

theorem filterMap_letters {vs : List Nat} (h : ∀ v ∈ vs, v < 64) :
    (vs.map letter).filterMap value = vs := by
  induction vs with
  | nil => rfl
  | cons v vs ih =>
    have hv := (value_letter (h v (by simp))).1
    simp [hv, ih (fun w hw => h w (by simp [hw]))]

theorem decode_encode (bs : Bytes) : decode (encode bs) = bs := by
  have h := sextets_lt bs
  simp only [decode, encode, String.toList_ofList, padding]
  rw [takeWhile_letters h, filterMap_letters h, unsextets_sextets]

section StdEncoding

def stdValue (c : Char) : Option Nat :=
  if c ∈ alphabet then some (alphabet.idxOf c) else none

/-- The quanta of four that `StdEncoding` reads; only the last one may be padded, and bits that
its bytes do not use are not looked at. -/
def quanta : List Char → Option (List Nat)
  | [] => some []
  | [a, b, '=', '='] => return [← stdValue a, ← stdValue b]
  | [a, b, c, '='] => return [← stdValue a, ← stdValue b, ← stdValue c]
  | a :: b :: c :: d :: rest =>
    return (← stdValue a) :: (← stdValue b) :: (← stdValue c) :: (← stdValue d) :: (← quanta rest)
  | _ => none

/-- `StdEncoding.DecodeString`: line breaks are skipped wherever they stand. -/
def decodeString (s : String) : Option Bytes :=
  (quanta (s.toList.filter fun c => c ≠ '\n' ∧ c ≠ '\r')).map unsextets

theorem stdValue_letter {v : ℕ} (h : v < 64) : stdValue (letter v) = some v ∧
    letter v ≠ '\n' ∧ letter v ≠ '\r' := by
  refine ⟨?_, letter_ne h (by decide), letter_ne h (by decide)⟩
  rw [stdValue, if_pos (letter_mem h), idxOf_letter h]

theorem ne_pad_of_stdValue {c : Char} {v : Nat} (h : stdValue c = some v) : c ≠ '=' := by
  rintro rfl
  simp [stdValue, notMem_alphabet (c := '=') (by decide)] at h

theorem quanta_three {a b c : Char} {p q r : Nat} (ha : stdValue a = some p)
    (hb : stdValue b = some q) (hc : stdValue c = some r) :
    quanta [a, b, c, '='] = some [p, q, r] := by
  rw [quanta]
  · simp [ha, hb, hc]
  · exact fun heq => ne_pad_of_stdValue hc heq

theorem quanta_group {a b c d : Char} {p q r v : Nat} (ha : stdValue a = some p)
    (hb : stdValue b = some q) (hc : stdValue c = some r) (hd : stdValue d = some v)
    (rest : List Char) :
    quanta (a :: b :: c :: d :: rest) = (quanta rest).map (p :: q :: r :: v :: ·) := by
  rw [quanta]
  · cases quanta rest <;> simp [ha, hb, hc, hd]
  · exact fun _ heq => absurd heq (ne_pad_of_stdValue hd)
  · exact fun heq => absurd heq (ne_pad_of_stdValue hd)

theorem quanta_sextets (bs : Bytes) :
    quanta ((sextets bs).map letter ++ padding bs.length) = some (sextets bs) := by
  have hval : ∀ v ∈ sextets bs, stdValue (letter v) = some v := fun v hv =>
    (stdValue_letter (sextets_lt bs v hv)).1
  induction bs using sextets.induct with
  | case1 => rfl
  | case2 a =>
    simp only [sextets, List.mem_cons, List.not_mem_nil, or_false, forall_eq_or_imp,
      forall_eq] at hval
    simp [sextets, padding, quanta, hval.1, hval.2]
  | case3 a b =>
    simp only [sextets, List.mem_cons, List.not_mem_nil, or_false, forall_eq_or_imp,
      forall_eq] at hval
    exact quanta_three hval.1 hval.2.1 hval.2.2
  | case4 a b c rest ih =>
    simp only [sextets, List.mem_cons, forall_eq_or_imp] at hval
    have hpad : padding (a :: b :: c :: rest).length = padding rest.length := by
      simp only [padding, List.length_cons]
      congr 1
      omega
    rw [sextets, hpad, List.map_cons, List.map_cons, List.map_cons, List.map_cons, List.cons_append,
      List.cons_append, List.cons_append, List.cons_append,
      quanta_group hval.1 hval.2.1 hval.2.2.1 hval.2.2.2.1, ih hval.2.2.2.2, Option.map_some]

theorem decodeString_encode (bs : Bytes) : decodeString (encode bs) = some bs := by
  have hkeep : ∀ c ∈ (sextets bs).map letter ++ padding bs.length, c ≠ '\n' ∧ c ≠ '\r' := by
    intro c hc
    rcases List.mem_append.1 hc with hc | hc
    · obtain ⟨v, hv, rfl⟩ := List.mem_map.1 hc
      exact (stdValue_letter (sextets_lt bs v hv)).2
    · rw [List.eq_of_mem_replicate hc]
      decide
  rw [decodeString, encode, String.toList_ofList,
    List.filter_eq_self.2 fun c hc => decide_eq_true (hkeep c hc), quanta_sextets, Option.map_some,
    unsextets_sextets]

end StdEncoding

theorem encode_eq_empty_iff (bs : Bytes) : encode bs = "" ↔ bs = [] := by
  constructor
  · intro h
    have hd := decode_encode bs
    rw [h] at hd
    simpa [decode, unsextets] using hd.symm
  · rintro rfl
    rfl

end Pinch.Base64
