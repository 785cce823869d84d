import Pinch.Base58

/-! Pinch addresses. An address carries the peer's Ed25519 key and the first four
bytes of its hash; the hash function itself is a parameter. -/

namespace Pinch

def isLineTerminator (c : Char) : Bool :=
  c = '\n' || c = '\r' || c = Char.ofNat 0x2028 || c = Char.ofNat 0x2029

def addressScheme : List Char := "pinch:".toList

/-- The two groups of `ADDRESS_REGEX`: a non-empty base58 run, and after `@` a
non-empty host without line terminators. -/
def matchAddress (addr : String) : Option (String × String) :=
  let cs := addr.toList
  if cs.take 6 = addressScheme then
    let payload := (cs.drop 6).takeWhile (· ∈ Base58.alphabet)
    match (cs.drop 6).dropWhile (· ∈ Base58.alphabet) with
    | '@' :: host =>
      if payload ≠ [] ∧ host ≠ [] ∧ host.all (fun c => !isLineTerminator c) then
        some (String.ofList payload, String.ofList host)
      else none
    | _ => none
  else none

/-- The first 32 bytes of the key, padded with zeros, and the checksum of the key. -/
def addressPayload (sha256 : Bytes → Bytes) (pubKey : Bytes) : Bytes :=
  (pubKey ++ List.replicate 32 0).take 32 ++ (sha256 pubKey).take 4

def generateAddress (sha256 : Bytes → Bytes) (pubKey : Bytes) (relayHost : String) : String :=
  "pinch:" ++ Base58.encode (addressPayload sha256 pubKey) ++ "@" ++ relayHost

/-- The same address on a relay whose host is any byte string. -/
def generateAddressBytes (sha256 : Bytes → Bytes) (pubKey relayHost : Bytes) : Bytes :=
  textEncode ("pinch:" ++ Base58.encode (addressPayload sha256 pubKey) ++ "@") ++ relayHost

theorem generateAddressBytes_textEncode (sha256 : Bytes → Bytes) (pubKey : Bytes)
    (relayHost : String) : generateAddressBytes sha256 pubKey (textEncode relayHost) =
      textEncode (generateAddress sha256 pubKey relayHost) :=
  (textEncode_append _ _).symm

structure ValidAddress where
  pubKey : Bytes
  host : String
  deriving DecidableEq

def validateAddress (sha256 : Bytes → Bytes) (addr : String) : Except String ValidAddress :=
  match matchAddress addr with
  | none => .error ("Invalid address format: " ++ addr)
  | some (encodedPayload, host) =>
    match Base58.decode encodedPayload with
    | none => .error "Non-base58 character"
    | some decoded =>
      if decoded.length ≠ 36 then
        .error ("Invalid address payload length: expected 36, got " ++ toString decoded.length)
      else if decoded.drop 32 ≠ (sha256 (decoded.take 32)).take 4 then
        .error "Address checksum mismatch"
      else .ok ⟨decoded.take 32, host⟩

def embeddedKey (sha256 : Bytes → Bytes) (addr : String) : Option Bytes :=
  match validateAddress sha256 addr with
  | .ok a => some a.pubKey
  | .error _ => none

end Pinch
