import Pinch.Identity
import Pinch.Separator

/-! The address as a code for a key and a host, in the agent's language and in the relay's.
Texts are strings of characters in the agent and byte strings in the relay; base58 is one
code for both. -/

namespace Pinch

open Separator

namespace RelayIdentity

inductive AddressError
  | format (addr : Bytes)
  | base58
  | length (got : ℕ)
  | checksum
  deriving DecidableEq

/-- `quote` is the verb `%q`. -/
def AddressError.text (quote : Bytes → String) : AddressError → String
  | .format addr => "invalid address format: " ++ quote addr
  | .base58 => "invalid base58 in address: invalid base58 digit"
  | .length got => "invalid address payload length: expected 36, got " ++ toString got
  | .checksum => "address checksum mismatch"

def inAlphabet (b : UInt8) : Bool := Char.ofNat b.toNat ∈ Base58.alphabet

/-- `addressRegex` on the bytes of a text. A newline is the byte 10, which is part of no other
character, and a byte that belongs to no character matches the dot. -/
def parseAddress (addr : Bytes) : Except AddressError (Bytes × Bytes) :=
  match capture (textEncode "pinch:") inAlphabet 64 (· ≠ 10) addr with
  | none => .error (.format addr)
  | some groups => .ok groups

def validateAddress (sha256 : Bytes → Bytes) (addr : Bytes) :
    Except AddressError (Bytes × Bytes) :=
  match parseAddress addr with
  | .error err => .error err
  | .ok (payload, host) =>
    match Base58.decode (asciiText payload) with
    | none => .error .base58
    | some decoded =>
      if decoded.length ≠ 36 then .error (.length decoded.length)
      else if decoded.drop 32 ≠ (sha256 (decoded.take 32)).take 4 then .error .checksum
      else .ok (decoded.take 32, host)

end RelayIdentity

section KeyText

variable {sha256 : Bytes → Bytes} {payload : String} {pubKey : Bytes}

/-- The text of a key: 36 bytes in base58, the last four of them the checksum. -/
def KeyText (sha256 : Bytes → Bytes) (payload : String) (pubKey : Bytes) : Prop :=
  ∃ decoded, Base58.decode payload = some decoded ∧ decoded.length = 36 ∧
    decoded.drop 32 = (sha256 (decoded.take 32)).take 4 ∧ decoded.take 32 = pubKey

theorem addressPayload_eq (h : pubKey.length = 32) :
    addressPayload sha256 pubKey = pubKey ++ (sha256 pubKey).take 4 := by
  have htake : (pubKey ++ List.replicate 32 0).take 32 = pubKey := by
    rw [← h, List.take_left]
  rw [addressPayload, htake]

theorem KeyText.length_eq (h : KeyText sha256 payload pubKey) : pubKey.length = 32 := by
  obtain ⟨decoded, -, hlength, -, rfl⟩ := h
  simp [hlength]

theorem KeyText.payload_eq (h : KeyText sha256 payload pubKey) :
    payload = Base58.encode (addressPayload sha256 pubKey) := by
  have hkey := h.length_eq
  obtain ⟨decoded, hdecode, hlength, hsum, rfl⟩ := h
  rw [addressPayload_eq hkey, ← hsum, List.take_append_drop, Base58.encode_decode hdecode]

theorem keyText_encode (hsha : ∀ data, (sha256 data).length = 32) (h : pubKey.length = 32) :
    KeyText sha256 (Base58.encode (addressPayload sha256 pubKey)) pubKey := by
  rw [addressPayload_eq h]
  refine ⟨_, Base58.decode_encode _, ?_, ?_, ?_⟩
  · simp [h, hsha]
  · rw [← h, List.drop_left, List.take_left]
  · rw [← h, List.take_left]

theorem KeyText.mem_alphabet (h : KeyText sha256 payload pubKey) :
    ∀ c ∈ payload.toList, c ∈ Base58.alphabet := by
  intro c hc
  rw [h.payload_eq] at hc
  exact Base58.mem_alphabet_of_mem_encode hc

theorem KeyText.ne_empty (h : KeyText sha256 payload pubKey) : payload ≠ "" := by
  rintro rfl
  obtain ⟨decoded, hdecode, hlength, -⟩ := h
  obtain rfl : [] = decoded := Option.some.inj hdecode
  simp at hlength

/-- The key can be read off its text. -/
theorem addressText_inj {pubKey' : Bytes} (h : pubKey.length = 32) (h' : pubKey'.length = 32)
    (he : Base58.encode (addressPayload sha256 pubKey) =
      Base58.encode (addressPayload sha256 pubKey')) : pubKey = pubKey' := by
  have hpayload : addressPayload sha256 pubKey = addressPayload sha256 pubKey' := by
    rw [← Option.some_inj, ← Base58.decode_encode, he, Base58.decode_encode]
  rw [addressPayload_eq h, addressPayload_eq h'] at hpayload
  exact List.append_inj_left hpayload (h.trans h'.symm)

end KeyText

section Agent

variable {sha256 : Bytes → Bytes} {addr payload host : String} {pubKey : Bytes}

-- Decided over the list; over the predicate `decide` would enumerate all characters.
theorem all_false_of_any {f : Char → Bool} {cs : List Char} (h : cs.any f = false) :
    ∀ c ∈ cs, f c = false := by
  intro c hc
  exact Bool.eq_false_iff.2 (List.any_eq_false.1 h c hc)

/-- The hosts that `(.+)$` matches. -/
def HostOk (host : String) : Prop :=
  host ≠ "" ∧ ∀ c ∈ host.toList, isLineTerminator c = false

theorem addressScheme_eq : addressScheme = ['p', 'i', 'n', 'c', 'h', ':'] :=
  String.toList_ofList

theorem matchAddress_eq (addr : String) :
    matchAddress addr = (capture addressScheme (· ∈ Base58.alphabet) '@'
      (fun c => !isLineTerminator c) addr.toList).map
        fun groups => (String.ofList groups.1, String.ofList groups.2) := by
  have hlength : addressScheme.length = 6 := by rw [addressScheme_eq]; rfl
  rw [matchAddress, capture, hlength]
  dsimp only
  split_ifs with hhead
  · split
    · rename_i rest hdrop
      simp only [hdrop, true_and]
      split_ifs <;> rfl
    · rename_i hne
      split
      · rename_i c rest hdrop
        have hc : c ≠ '@' := by
          rintro rfl
          exact hne rest hdrop
        simp [hc]
      · rfl
  · rfl

theorem at_notMem_alphabet : '@' ∉ Base58.alphabet := by decide

theorem matchAddress_eq_some_iff : matchAddress addr = some (payload, host) ↔
    addr = "pinch:" ++ payload ++ "@" ++ host ∧ payload ≠ "" ∧
      (∀ c ∈ payload.toList, c ∈ Base58.alphabet) ∧ HostOk host := by
  rw [matchAddress_eq, Option.map_eq_some_iff]
  constructor
  · rintro ⟨⟨p, h⟩, hcapture, hgroups⟩
    obtain ⟨rfl, rfl⟩ := Prod.mk.inj hgroups
    have hc := captured_of_capture hcapture
    refine ⟨?_, ?_, ?_, ?_, ?_⟩
    · rw [← String.toList_inj, hc.eq]
      simp [addressScheme_eq]
    · simpa using hc.first_ne
    · simpa using hc.first_all
    · simpa using hc.rest_ne
    · simpa using hc.rest_all
  · rintro ⟨rfl, hne, hall, hhost, hterm⟩
    refine ⟨(payload.toList, host.toList), Captured.capture ?_ (by simp [at_notMem_alphabet]),
      by simp⟩
    exact
      { eq := by simp [addressScheme_eq]
        first_ne := by simpa using hne
        first_all := by simpa using hall
        rest_ne := by simpa using hhost
        rest_all := by simpa using hterm }

theorem validateAddress_ok_iff : validateAddress sha256 addr = .ok ⟨pubKey, host⟩ ↔
    ∃ payload, addr = "pinch:" ++ payload ++ "@" ++ host ∧ KeyText sha256 payload pubKey ∧
      HostOk host := by
  constructor
  · intro h
    unfold validateAddress at h
    split at h
    · cases h
    rename_i payload host' hmatch
    split at h
    · cases h
    rename_i decoded hdecode
    split_ifs at h with hlength hsum
    obtain ⟨rfl, rfl⟩ := ValidAddress.mk.inj (Except.ok.inj h)
    obtain ⟨haddr, -, -, hhost⟩ := matchAddress_eq_some_iff.1 hmatch
    exact ⟨payload, haddr, ⟨decoded, hdecode, not_not.1 hlength, not_not.1 hsum, rfl⟩, hhost⟩
  · rintro ⟨payload, haddr, hkey, hhost⟩
    have hmatch := matchAddress_eq_some_iff.2 ⟨haddr, hkey.ne_empty, hkey.mem_alphabet, hhost⟩
    obtain ⟨decoded, hdecode, hlength, hsum, rfl⟩ := hkey
    simp [validateAddress, hmatch, hdecode, hlength, hsum]

theorem generateAddress_inj {pubKey' : Bytes} {host' : String} (hkey : pubKey.length = 32)
    (hkey' : pubKey'.length = 32)
    (h : generateAddress sha256 pubKey host = generateAddress sha256 pubKey' host') :
    pubKey = pubKey' ∧ host = host' := by
  have htexts : (Base58.encode (addressPayload sha256 pubKey)).toList ++ '@' :: host.toList =
      (Base58.encode (addressPayload sha256 pubKey')).toList ++ '@' :: host'.toList := by
    rw [generateAddress, generateAddress, ← String.toList_inj] at h
    simpa using h
  obtain ⟨hpayload, hhost⟩ := split_unique (Base58.at_notMem_encode _) (Base58.at_notMem_encode _)
    htexts
  exact ⟨addressText_inj hkey hkey' (String.toList_inj.1 hpayload), String.toList_inj.1 hhost⟩

end Agent

section Relay

open RelayIdentity

variable {sha256 : Bytes → Bytes} {addr host pubKey : Bytes} {payload : String}

theorem toNat_lt_of_inAlphabet {b : UInt8} (h : inAlphabet b = true) : b.toNat < 128 := by
  have hb := Base58.toNat_lt_of_mem_alphabet _ (of_decide_eq_true h)
  rwa [toNat_ofByte] at hb

theorem inAlphabet_of_mem_textEncode (h : ∀ c ∈ payload.toList, c ∈ Base58.alphabet) {b : UInt8}
    (hb : b ∈ textEncode payload) : inAlphabet b = true := by
  obtain ⟨c, hc, hbyte⟩ := List.mem_flatMap.1 hb
  have hlt := Base58.toNat_lt_of_mem_alphabet c (h c hc)
  rw [utf8EncodeChar_ascii hlt, List.mem_singleton] at hbyte
  have hchar : Char.ofNat b.toNat = c := by
    rw [hbyte, UInt8.toNat_ofNat', Nat.mod_eq_of_lt (by omega), Char.ofNat_toNat]
  rw [inAlphabet, hchar, decide_eq_true (h c hc)]

theorem textEncode_parts (payload : String) (host : Bytes) :
    textEncode ("pinch:" ++ payload ++ "@") ++ host =
      textEncode "pinch:" ++ textEncode payload ++ 64 :: host := by
  rw [textEncode_append, textEncode_append, List.append_assoc]
  rfl

theorem parseAddress_ok {payload : Bytes} (h : parseAddress addr = .ok (payload, host)) :
    addr = textEncode ("pinch:" ++ asciiText payload ++ "@") ++ host ∧ host ≠ [] ∧ 10 ∉ host := by
  unfold parseAddress at h
  split at h
  · cases h
  · rename_i groups hcapture
    obtain rfl := Except.ok.inj h
    have hc := captured_of_capture hcapture
    refine ⟨?_, hc.rest_ne, ?_⟩
    · rw [hc.eq, textEncode_parts, textEncode_asciiText fun b hb =>
        toNat_lt_of_inAlphabet (hc.first_all b hb)]
    · intro hten
      simpa using hc.rest_all 10 hten

theorem parseAddress_text (hne : payload ≠ "")
    (hall : ∀ c ∈ payload.toList, c ∈ Base58.alphabet) (hhost : host ≠ []) (hline : 10 ∉ host) :
    parseAddress (textEncode ("pinch:" ++ payload ++ "@") ++ host) =
      .ok (textEncode payload, host) := by
  have hc : Captured (textEncode "pinch:") inAlphabet 64 (· ≠ 10)
      (textEncode ("pinch:" ++ payload ++ "@") ++ host) (textEncode payload) host :=
    { eq := textEncode_parts payload host
      first_ne := by
        intro hnil
        exact hne (textEncode_injective (hnil.trans rfl))
      first_all := fun b hb => inAlphabet_of_mem_textEncode hall hb
      rest_ne := hhost
      rest_all := by
        intro b hb
        exact decide_eq_true fun hten => hline (hten ▸ hb) }
  have hat : inAlphabet 64 = false := by
    rw [inAlphabet, Base58.alphabet_eq]
    decide
  rw [parseAddress, hc.capture hat]

theorem RelayIdentity.validateAddress_ok_iff :
    RelayIdentity.validateAddress sha256 addr = .ok (pubKey, host) ↔
      ∃ payload, addr = textEncode ("pinch:" ++ payload ++ "@") ++ host ∧
        KeyText sha256 payload pubKey ∧ host ≠ [] ∧ 10 ∉ host := by
  constructor
  · intro h
    unfold RelayIdentity.validateAddress at h
    split at h
    · cases h
    rename_i payload host' hparse
    split at h
    · cases h
    rename_i decoded hdecode
    split_ifs at h with hlength hsum
    obtain ⟨rfl, rfl⟩ := Prod.mk.inj (Except.ok.inj h)
    obtain ⟨haddr, hhost, hline⟩ := parseAddress_ok hparse
    exact ⟨asciiText payload, haddr, ⟨decoded, hdecode, not_not.1 hlength, not_not.1 hsum, rfl⟩,
      hhost, hline⟩
  · rintro ⟨payload, rfl, hkey, hhost, hline⟩
    have hparse := parseAddress_text hkey.ne_empty hkey.mem_alphabet hhost hline
    have htext : asciiText (textEncode payload) = payload :=
      asciiText_textEncode fun c hc =>
        Base58.toNat_lt_of_mem_alphabet c (hkey.mem_alphabet c hc)
    obtain ⟨decoded, hdecode, hlength, hsum, rfl⟩ := hkey
    simp [RelayIdentity.validateAddress, hparse, htext, hdecode, hlength, hsum]

theorem generateAddressBytes_inj {pubKey' host' : Bytes} (hkey : pubKey.length = 32)
    (hkey' : pubKey'.length = 32)
    (h : generateAddressBytes sha256 pubKey host = generateAddressBytes sha256 pubKey' host') :
    pubKey = pubKey' ∧ host = host' := by
  have hat : ∀ bs, (64 : UInt8) ∉ textEncode (Base58.encode bs) := by
    intro bs hmem
    exact Base58.at_notMem_encode bs ((mem_textEncode_ascii (by decide) _).1 hmem)
  have htexts : textEncode (Base58.encode (addressPayload sha256 pubKey)) ++ 64 :: host =
      textEncode (Base58.encode (addressPayload sha256 pubKey')) ++ 64 :: host' := by
    rw [generateAddressBytes, generateAddressBytes, textEncode_parts, textEncode_parts,
      List.append_assoc, List.append_assoc] at h
    exact List.append_cancel_left h
  obtain ⟨hpayload, hhost⟩ := split_unique (hat _) (hat _) htexts
  exact ⟨addressText_inj hkey hkey' (textEncode_injective hpayload), hhost⟩

end Relay

/-- An address and the pair of a key and a host determine each other. -/
structure AddressLaws {τ η : Type} (HostOk : η → Prop) (generate : Bytes → η → τ)
    (Validates : τ → Bytes → η → Prop) : Prop where
  validates_generate : ∀ pubKey host, pubKey.length = 32 → HostOk host →
    Validates (generate pubKey host) pubKey host
  generate_of_validates : ∀ addr pubKey host, Validates addr pubKey host →
    generate pubKey host = addr
  generate_inj : ∀ pubKey pubKey' host host', pubKey.length = 32 → pubKey'.length = 32 →
    generate pubKey host = generate pubKey' host' → pubKey = pubKey' ∧ host = host'
  address_unique : ∀ addr addr' pubKey host, Validates addr pubKey host →
    Validates addr' pubKey host → addr = addr'

theorem AddressLaws.of_iff {τ η : Type} {HostOk : η → Prop} {generate : Bytes → η → τ}
    {Validates : τ → Bytes → η → Prop}
    (h : ∀ addr pubKey host, Validates addr pubKey host ↔
      addr = generate pubKey host ∧ pubKey.length = 32 ∧ HostOk host)
    (hinj : ∀ pubKey pubKey' host host', pubKey.length = 32 → pubKey'.length = 32 →
      generate pubKey host = generate pubKey' host' → pubKey = pubKey' ∧ host = host') :
    AddressLaws HostOk generate Validates where
  validates_generate pubKey host hkey hhost := (h _ pubKey host).2 ⟨rfl, hkey, hhost⟩
  generate_of_validates addr pubKey host hvalid := ((h addr pubKey host).1 hvalid).1.symm
  generate_inj := hinj
  address_unique addr addr' pubKey host hvalid hvalid' :=
    ((h addr pubKey host).1 hvalid).1.trans ((h addr' pubKey host).1 hvalid').1.symm

section Laws

variable {sha256 : Bytes → Bytes}

theorem validateAddress_iff_generate (hsha : ∀ data, (sha256 data).length = 32) (addr : String)
    (pubKey : Bytes) (host : String) : validateAddress sha256 addr = .ok ⟨pubKey, host⟩ ↔
      addr = generateAddress sha256 pubKey host ∧ pubKey.length = 32 ∧ HostOk host := by
  rw [validateAddress_ok_iff]
  constructor
  · rintro ⟨payload, rfl, hkey, hhost⟩
    exact ⟨by rw [generateAddress, ← hkey.payload_eq], hkey.length_eq, hhost⟩
  · rintro ⟨rfl, hkey, hhost⟩
    exact ⟨_, rfl, keyText_encode hsha hkey, hhost⟩

theorem RelayIdentity.validateAddress_iff_generate (hsha : ∀ data, (sha256 data).length = 32)
    (addr pubKey host : Bytes) :
    RelayIdentity.validateAddress sha256 addr = .ok (pubKey, host) ↔
      addr = generateAddressBytes sha256 pubKey host ∧ pubKey.length = 32 ∧
        host ≠ [] ∧ 10 ∉ host := by
  rw [RelayIdentity.validateAddress_ok_iff]
  constructor
  · rintro ⟨payload, rfl, hkey, hhost⟩
    exact ⟨by rw [generateAddressBytes, ← hkey.payload_eq], hkey.length_eq, hhost⟩
  · rintro ⟨haddr, hkey, hhost⟩
    exact ⟨_, haddr, keyText_encode hsha hkey, hhost⟩

/-- In the relay's language a host may be any bytes without a newline. -/
theorem address_codec_round_trip (hsha : ∀ data, (sha256 data).length = 32) :
    AddressLaws HostOk (generateAddress sha256)
      (fun addr pubKey host => validateAddress sha256 addr = .ok ⟨pubKey, host⟩) ∧
    AddressLaws (fun host => host ≠ [] ∧ 10 ∉ host) (generateAddressBytes sha256)
      (fun addr pubKey host =>
        RelayIdentity.validateAddress sha256 addr = .ok (pubKey, host)) := by
  constructor
  · refine AddressLaws.of_iff (validateAddress_iff_generate hsha) ?_
    intro pubKey pubKey' host host' hkey hkey' h
    exact generateAddress_inj hkey hkey' h
  · refine AddressLaws.of_iff (RelayIdentity.validateAddress_iff_generate hsha) ?_
    intro pubKey pubKey' host host' hkey hkey' h
    exact generateAddressBytes_inj hkey hkey' h

end Laws

/-- A key of zeros, on a host with an `@` and a port. -/
theorem address_codec_round_trip_zeros :
    let sha256 : Bytes → Bytes := fun _ => List.replicate 32 0
    validateAddress sha256 (generateAddress sha256 (List.replicate 32 0) "a@b:1") =
        .ok ⟨List.replicate 32 0, "a@b:1"⟩ ∧
      RelayIdentity.validateAddress sha256
          (generateAddressBytes sha256 (List.replicate 32 0) [97, 64, 255]) =
        .ok (List.replicate 32 0, [97, 64, 255]) := by
  intro sha256
  have hsha : ∀ data, (sha256 data).length = 32 := fun _ => rfl
  obtain ⟨hagent, hrelay⟩ := address_codec_round_trip hsha
  constructor
  · exact hagent.validates_generate _ _ rfl ⟨by decide, all_false_of_any (by decide)⟩
  · exact hrelay.validates_generate _ _ rfl ⟨by decide, by decide⟩

section Agreement

variable {sha256 : Bytes → Bytes} {addr host : String} {pubKey : Bytes}

/-- The relay accepts the text of an address with a key and a host exactly if the agent does. -/
def ValidatorsAgree (sha256 : Bytes → Bytes) (addr : String) : Prop :=
  ∀ pubKey host, RelayIdentity.validateAddress sha256 (textEncode addr) = .ok (pubKey, host) ↔
    ∃ h, textEncode h = host ∧ validateAddress sha256 addr = .ok ⟨pubKey, h⟩

/-- The line terminators that the dot of the relay's language matches. -/
def relayMatches (c : Char) : Bool :=
  c = '\r' || c = Char.ofNat 0x2028 || c = Char.ofNat 0x2029

theorem hostOk_iff : HostOk host ↔
    host ≠ "" ∧ '\n' ∉ host.toList ∧ ∀ c ∈ host.toList, relayMatches c = false := by
  have hsplit : ∀ c, isLineTerminator c = (decide (c = '\n') || relayMatches c) := by
    intro c
    simp only [isLineTerminator, relayMatches, Bool.or_assoc]
  simp only [HostOk, hsplit, Bool.or_eq_false_iff, decide_eq_false_iff_not]
  constructor
  · rintro ⟨hne, h⟩
    exact ⟨hne, fun hline => (h _ hline).1 rfl, fun c hc => (h c hc).2⟩
  · rintro ⟨hne, hline, h⟩
    exact ⟨hne, fun c hc => ⟨fun hn => hline (hn ▸ hc), h c hc⟩⟩

/-- What follows a text inside a text is a text. -/
theorem exists_textEncode_eq {s t : String} {bs : Bytes} (h : textEncode s = textEncode t ++ bs) :
    ∃ u, s = t ++ u ∧ textEncode u = bs := by
  have hread : ∀ cs : List Char, decodeBytes {} (cs.flatMap String.utf8EncodeChar ++ bs) =
      cs ++ decodeBytes {} bs := by
    intro cs
    induction cs with
    | nil => rfl
    | cons c cs ih =>
      rw [List.flatMap_cons, List.append_assoc, decodeBytes_encodeChar, ih]
      rfl
  have hs : s = t ++ String.ofList (decodeBytes {} bs) := by
    rw [← String.toList_inj, String.toList_append, String.toList_ofList, ← hread t.toList,
      ← decodeBytes_textEncode, h]
    rfl
  refine ⟨_, hs, ?_⟩
  rw [hs, textEncode_append] at h
  exact List.append_cancel_left h

theorem RelayIdentity.validateAddress_text_iff :
    RelayIdentity.validateAddress sha256 (textEncode addr) = .ok (pubKey, textEncode host) ↔
      ∃ payload, addr = "pinch:" ++ payload ++ "@" ++ host ∧ KeyText sha256 payload pubKey ∧
        host ≠ "" ∧ '\n' ∉ host.toList := by
  have hnil : textEncode host ≠ [] ↔ host ≠ "" := by
    rw [not_iff_not]
    exact ⟨fun h => textEncode_injective (h.trans rfl), fun h => by rw [h]; rfl⟩
  have hline : (10 : UInt8) ∉ textEncode host ↔ '\n' ∉ host.toList :=
    not_congr (mem_textEncode_ascii (by decide) host)
  rw [RelayIdentity.validateAddress_ok_iff, hnil, hline]
  simp only [← textEncode_append, textEncode_injective.eq_iff]

theorem validateAddress_iff_relay : validateAddress sha256 addr = .ok ⟨pubKey, host⟩ ↔
    RelayIdentity.validateAddress sha256 (textEncode addr) = .ok (pubKey, textEncode host) ∧
      ∀ c ∈ host.toList, relayMatches c = false := by
  rw [validateAddress_ok_iff, RelayIdentity.validateAddress_text_iff, hostOk_iff]
  constructor
  · rintro ⟨payload, haddr, hkey, hne, hline, hall⟩
    exact ⟨⟨payload, haddr, hkey, hne, hline⟩, hall⟩
  · rintro ⟨⟨payload, haddr, hkey, hne, hline⟩, hall⟩
    exact ⟨payload, haddr, hkey, hne, hline, hall⟩

theorem RelayIdentity.exists_host {bs : Bytes}
    (h : RelayIdentity.validateAddress sha256 (textEncode addr) = .ok (pubKey, bs)) :
    ∃ host, textEncode host = bs := by
  obtain ⟨payload, haddr, -⟩ := RelayIdentity.validateAddress_ok_iff.1 h
  obtain ⟨host, -, hhost⟩ := exists_textEncode_eq haddr
  exact ⟨host, hhost⟩

/-- A key's text and a host without a line feed, and in the host a carriage return, a line
separator or a paragraph separator. -/
def TerminatorInHost (sha256 : Bytes → Bytes) (addr : String) : Prop :=
  ∃ payload pubKey host, addr = "pinch:" ++ payload ++ "@" ++ host ∧
    KeyText sha256 payload pubKey ∧ '\n' ∉ host.toList ∧ ∃ c ∈ host.toList, relayMatches c = true

theorem validators_agree_iff (sha256 : Bytes → Bytes) (addr : String) :
    ValidatorsAgree sha256 addr ↔ ¬ TerminatorInHost sha256 addr := by
  constructor
  · rintro h ⟨payload, pubKey, host, rfl, hkey, hline, c, hc, hterminator⟩
    have hne : host ≠ "" := by
      rintro rfl
      cases hc
    have hrelay := RelayIdentity.validateAddress_text_iff.2 ⟨payload, rfl, hkey, hne, hline⟩
    obtain ⟨host', hhost, hvalid⟩ := (h _ _).1 hrelay
    obtain rfl := textEncode_injective hhost
    have hfalse := (validateAddress_iff_relay.1 hvalid).2 c hc
    exact Bool.noConfusion (hterminator.symm.trans hfalse)
  · intro hnone pubKey bs
    constructor
    · intro hok
      obtain ⟨host, rfl⟩ := RelayIdentity.exists_host hok
      obtain ⟨payload, haddr, hkey, -, hline⟩ := RelayIdentity.validateAddress_text_iff.1 hok
      refine ⟨host, rfl, validateAddress_iff_relay.2 ⟨hok, fun c hc => ?_⟩⟩
      by_contra hterminator
      exact hnone ⟨payload, pubKey, host, haddr, hkey, hline, c, hc, eq_true_of_ne_false hterminator⟩
    · rintro ⟨host, rfl, hvalid⟩
      exact (validateAddress_iff_relay.1 hvalid).1

end Agreement

/-- The relay accepts a host that ends with a carriage return, the agent does not. -/
theorem carriage_return_in_host :
    let sha256 : Bytes → Bytes := fun _ => List.replicate 32 0
    let addr := generateAddress sha256 (List.replicate 32 0) "relay\r"
    RelayIdentity.validateAddress sha256 (textEncode addr) =
        .ok (List.replicate 32 0, textEncode "relay\r") ∧
      validateAddress sha256 addr = .error ("Invalid address format: " ++ addr) ∧
      ¬ ValidatorsAgree sha256 addr := by
  intro sha256 addr
  have hrelay : RelayIdentity.validateAddress sha256 (textEncode addr) =
      .ok (List.replicate 32 0, textEncode "relay\r") := by decide +kernel
  have hagent : validateAddress sha256 addr = .error ("Invalid address format: " ++ addr) := by
    decide +kernel
  refine ⟨hrelay, hagent, ?_⟩
  intro hagree
  obtain ⟨host, -, hvalid⟩ := (hagree _ _).1 hrelay
  rw [hagent] at hvalid
  cases hvalid

end Pinch
