import Pinch.Numeral
import Pinch.Utf

/-! The base58 text code: leading `1`s stand for leading zero bytes, the rest is
one number written in base 58. -/

namespace Pinch.Base58

def alphabet : List Char :=
  "123456789ABCDEFGHJKLMNPQRSTUVWXYZabcdefghijkmnopqrstuvwxyz".toList

def digit (c : Char) : Option Nat :=
  if c ∈ alphabet then some (alphabet.idxOf c) else none

def number (ds : List Nat) : Nat := ds.foldl (fun n d => n * 58 + d) 0

def decode (s : String) : Option Bytes := do
  let ds ← s.toList.mapM digit
  return List.replicate (ds.takeWhile (· = 0)).length 0 ++
    (Nat.digits 256 (number ds)).reverse.map UInt8.ofNat

def letter (d : Nat) : Char := alphabet.getD d '1'

def byteNumber (bs : Bytes) : Nat := bs.foldl (fun n b => n * 256 + b.toNat) 0

def encode (bs : Bytes) : String :=
  String.ofList (List.replicate (bs.takeWhile (· = 0)).length '1' ++
    (Nat.digits 58 (byteNumber bs)).reverse.map letter)

-- Evaluating the text anew at each use of the alphabet is slow.
theorem alphabet_eq : alphabet = ['1', '2', '3', '4', '5', '6', '7', '8', '9', 'A', 'B', 'C', 'D',
    'E', 'F', 'G', 'H', 'J', 'K', 'L', 'M', 'N', 'P', 'Q', 'R', 'S', 'T', 'U', 'V', 'W', 'X', 'Y',
    'Z', 'a', 'b', 'c', 'd', 'e', 'f', 'g', 'h', 'i', 'j', 'k', 'm', 'n', 'o', 'p', 'q', 'r', 's',
    't', 'u', 'v', 'w', 'x', 'y', 'z'] :=
  String.toList_ofList

theorem length_alphabet : alphabet.length = 58 := by
  rw [alphabet_eq]
  rfl

/-- The digits from 1 and the letters, without `I`, `O` and `l`. -/
theorem codes_alphabet : alphabet.map Char.toNat = List.range' 49 9 ++ List.range' 65 8 ++
    List.range' 74 5 ++ List.range' 80 11 ++ List.range' 97 11 ++ List.range' 109 14 := by
  rw [alphabet_eq]
  rfl

theorem nodup_alphabet : alphabet.Nodup := by
  apply List.Nodup.of_map Char.toNat
  rw [codes_alphabet]
  decide

theorem letter_eq {d : ℕ} (h : d < alphabet.length) : letter d = alphabet[d] := by
  rw [letter, List.getD_eq_getElem?_getD, List.getElem?_eq_getElem h, Option.getD_some]

theorem letter_mem_alphabet {d : ℕ} (h : d < 58) : letter d ∈ alphabet := by
  rw [← length_alphabet] at h
  rw [letter_eq h]
  exact List.getElem_mem h

theorem mem_alphabet_of_mem_encode {bs : Bytes} {c : Char} (h : c ∈ (encode bs).toList) :
    c ∈ alphabet := by
  rw [encode, String.toList_ofList, List.mem_append, List.mem_map] at h
  rcases h with h | ⟨d, hd, rfl⟩
  · rw [List.eq_of_mem_replicate h, alphabet_eq]
    exact List.mem_cons_self
  · exact letter_mem_alphabet (Nat.digits_lt_base (by decide) (List.mem_reverse.mp hd))

theorem toNat_lt_of_mem_alphabet : ∀ c ∈ alphabet, c.toNat < 128 := by
  have hall : ∀ n ∈ alphabet.map Char.toNat, n < 128 := by
    rw [codes_alphabet]
    decide
  intro c hc
  exact hall c.toNat (List.mem_map_of_mem hc)

theorem at_notMem_encode (bs : Bytes) : '@' ∉ (encode bs).toList :=
  fun h => absurd (mem_alphabet_of_mem_encode h) (by rw [alphabet_eq]; decide)

section RoundTrip

open Numeral

theorem digit_letter {d : ℕ} (h : d < 58) : digit (letter d) = some d := by
  rw [digit, if_pos (letter_mem_alphabet h)]
  rw [← length_alphabet] at h
  rw [letter_eq h, nodup_alphabet.idxOf_getElem d h]

theorem letter_of_digit {c : Char} {d : ℕ} (h : digit c = some d) : letter d = c ∧ d < 58 := by
  unfold digit at h
  split_ifs at h with hc
  obtain rfl := Option.some.inj h
  have hlt : alphabet.idxOf c < alphabet.length := List.idxOf_lt_length_of_mem hc
  refine ⟨?_, length_alphabet ▸ hlt⟩
  rw [letter_eq hlt, List.getElem_idxOf]

theorem mapM_digit_letters {ds : List ℕ} (h : ∀ d ∈ ds, d < 58) :
    (ds.map letter).mapM digit = some ds := by
  induction ds with
  | nil => rfl
  | cons d ds ih =>
    have hd := digit_letter (h d List.mem_cons_self)
    have hds := ih fun e he => h e (List.mem_cons_of_mem _ he)
    simp [List.mapM_cons, hd, hds]

theorem letters_of_mapM_digit {cs : List Char} {ds : List ℕ} (h : cs.mapM digit = some ds) :
    ds.map letter = cs ∧ ∀ d ∈ ds, d < 58 := by
  induction cs generalizing ds with
  | nil =>
    obtain rfl : [] = ds := by simpa using h
    simp
  | cons c cs ih =>
    rw [List.mapM_cons] at h
    obtain ⟨d, hd, h⟩ := Option.bind_eq_some_iff.1 h
    obtain ⟨es, hes, h⟩ := Option.bind_eq_some_iff.1 h
    obtain rfl := Option.some.inj h
    obtain ⟨hletters, hlt⟩ := ih hes
    obtain ⟨hletter, hd58⟩ := letter_of_digit hd
    simp only [List.map_cons, hletter, hletters, List.mem_cons, forall_eq_or_imp, hd58, true_and]
    exact hlt

def digits (bs : Bytes) : List ℕ := bs.map UInt8.toNat

theorem digits_lt {bs : Bytes} : ∀ d ∈ digits bs, d < 256 := by
  intro d hd
  obtain ⟨b, -, rfl⟩ := List.mem_map.1 hd
  exact b.toNat_lt

theorem ofNat_digits (bs : Bytes) : (digits bs).map UInt8.ofNat = bs := by
  rw [digits, List.map_map]
  exact (List.map_congr_left fun b _ => UInt8.ofNat_toNat).trans (List.map_id _)

theorem digits_ofNat {ds : List ℕ} (h : ∀ d ∈ ds, d < 256) : digits (ds.map UInt8.ofNat) = ds := by
  rw [digits, List.map_map]
  refine (List.map_congr_left fun d hd => ?_).trans (List.map_id _)
  exact UInt8.toNat_ofNat_of_lt' (h d hd)

/-- Encoding writes the numeral of the bytes in base 58. -/
theorem encode_eq (bs : Bytes) :
    (encode bs).toList = (numeral 58 (zeros (digits bs)) (value 256 (digits bs))).map letter := by
  have hzeros : (bs.takeWhile (· = 0)).length = zeros (digits bs) := by
    rw [zeros, digits, List.takeWhile_map, List.length_map]
    congr 2
    funext b
    simp [← UInt8.toNat_inj]
  have hvalue : byteNumber bs = value 256 (digits bs) := by
    rw [value, digits, List.foldl_map]
    rfl
  rw [encode, String.toList_ofList, hzeros, hvalue, numeral, List.map_append, List.map_replicate]
  rfl

/-- Decoding writes the numeral of the letters in base 256. -/
theorem decode_eq {s : String} {ds : List ℕ} (h : s.toList.mapM digit = some ds) :
    decode s = some ((numeral 256 (zeros ds) (value 58 ds)).map UInt8.ofNat) := by
  rw [decode, h, numeral, List.map_append, List.map_replicate]
  rfl

theorem decode_encode (bs : Bytes) : decode (encode bs) = some bs := by
  have hletters : (encode bs).toList.mapM digit =
      some (numeral 58 (zeros (digits bs)) (value 256 (digits bs))) := by
    rw [encode_eq]
    exact mapM_digit_letters (numeral_lt (by decide))
  rw [decode_eq hletters, zeros_numeral, value_numeral, numeral_value (by decide) digits_lt,
    ofNat_digits]

theorem encode_decode {s : String} {bs : Bytes} (h : decode s = some bs) : encode bs = s := by
  obtain ⟨ds, hds, -⟩ := Option.bind_eq_some_iff.1 h
  obtain ⟨hletters, hlt⟩ := letters_of_mapM_digit hds
  obtain rfl := Option.some.inj ((decode_eq hds).symm.trans h)
  rw [← String.toList_inj, encode_eq, digits_ofNat (numeral_lt (by decide)), zeros_numeral,
    value_numeral, numeral_value (by decide) hlt, hletters]

end RoundTrip

end Pinch.Base58
