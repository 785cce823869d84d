import Pinch.RegistryLedger
import Pinch.Base64
import Pinch.Identity

/-! Registration and admission on a relay in locked mode. A registration is filed under the text
that was posted, admission asks for the encoding of the key; the two agree only if the text is
the encoding of what it decodes to. -/

namespace Pinch

inductive RegisterReply
  | failed (status : ℕ) (text : String)
  | registered (address claimCode : String)
  deriving DecidableEq

/-- The key in a request: at most 4096 bytes of the body are read, and `parse` gives the field
`public_key`, which is empty when it is absent. -/
def postedKey (parse : Bytes → Option String) (body : Except String Bytes) : Option String :=
  match body with
  | .error _ => none
  | .ok bytes => parse (bytes.take 4096)

section Handlers

variable (parse : Bytes → Option String) (sha256 : Bytes → Bytes) (relayPublicHost : String)

/-- `limiter` is what `Allow` says, if there is a limiter. -/
def registerHandler (limiter : Option Bool) (body : Except String Bytes) (now : ℤ)
    (attempt : ℕ → Attempt) (kr : KeyRegistry) : RegisterReply × KeyRegistry :=
  if limiter = some false then (.failed 429 "rate limit exceeded", kr)
  else match body with
    | .error _ => (.failed 400 "failed to read body", kr)
    | .ok _ =>
      match postedKey parse body with
      | none => (.failed 400 "invalid JSON", kr)
      | some publicKey =>
        if publicKey = "" then (.failed 400 "public_key is required", kr)
        else match Base64.decodeString publicKey with
          | none => (.failed 400 "public_key must be standard base64", kr)
          | some pubKey =>
            if pubKey.length ≠ 32 then (.failed 400 "public_key must be 32 bytes (Ed25519)", kr)
            else
              let address := generateAddress sha256 pubKey relayPublicHost
              match (KeyRegistry.registerPending publicKey address now attempt).run kr with
              | .error _ kr' => (.failed 500 "internal error", kr')
              | .ok claimCode kr' => (.registered address claimCode, kr')

/-- The check of `wsHandler` on a key that has authenticated. -/
def admits (lockedMode : Bool) (keyRegistry : Option KeyRegistry) (pubKey : Bytes) : Bool :=
  match lockedMode, keyRegistry with
  | true, some kr => kr.isApproved (Base64.encode pubKey)
  | _, _ => true

end Handlers

namespace RegistryState

variable {s t : RegistryState} {label : RegistryLabel} {i : ℕ} {code : String}
  {entry : PendingEntry}

/-- What is in the ledger stays in it. -/
theorem registration_step (h : s.ledger.registrations[i]? = some (code, entry))
    (hs : s.step label = some t) : t.ledger.registrations[i]? = some (code, entry) := by
  cases Change.of_step hs with
  | same | claimed hentry | swept cutoff => exact h
  | registered hrun => exact Ledger.registration_register h

theorem approves_step {pubKeyB64 : String} (h : s.ledger.Approves pubKeyB64)
    (hs : s.step label = some t) : t.ledger.Approves pubKeyB64 := by
  obtain ⟨i, hi, code, entry, he, hk⟩ := h
  refine ⟨i, ?_, code, entry, registration_step he hs, hk⟩
  cases Change.of_step hs with
  | same | registered hrun | swept cutoff => exact hi
  | claimed hentry => exact List.mem_append_left _ hi

end RegistryState

open RegistryState Transition

variable {parse : Bytes → Option String} {sha256 : Bytes → Bytes} {relayPublicHost : String}
  {limiter : Option Bool} {body : Except String Bytes} {now : ℤ} {attempt : ℕ → Attempt}

/-- An accepted request is filed under the text it posted. -/
theorem registerHandler_registered {kr kr' : KeyRegistry} {address code : String}
    (h : registerHandler parse sha256 relayPublicHost limiter body now attempt kr =
      (.registered address code, kr')) :
    ∃ publicKey pubKey, postedKey parse body = some publicKey ∧
      Base64.decodeString publicKey = some pubKey ∧ pubKey.length = 32 ∧
      address = generateAddress sha256 pubKey relayPublicHost ∧
      (KeyRegistry.registerPending publicKey address now attempt).run kr = .ok code kr' := by
  unfold registerHandler at h
  split at h
  · cases h
  split at h
  · cases h
  split at h
  · cases h
  rename_i publicKey hposted
  split at h
  · cases h
  split at h
  · cases h
  rename_i pubKey hdecode
  split at h
  · cases h
  rename_i hlength
  dsimp only at h
  split at h
  · cases h
  · rename_i claimCode kr'' hrun
    obtain ⟨hreply, rfl⟩ := Prod.mk.inj h
    obtain ⟨rfl, rfl⟩ := RegisterReply.registered.inj hreply
    exact ⟨publicKey, pubKey, hposted, hdecode, not_not.1 hlength, rfl, hrun⟩

theorem registerHandler_of_decode {kr kr' : KeyRegistry} {bytes pubKey : Bytes}
    {publicKey code : String} (hlimiter : limiter ≠ some false)
    (hposted : postedKey parse (.ok bytes) = some publicKey) (hne : publicKey ≠ "")
    (hdecode : Base64.decodeString publicKey = some pubKey) (hlength : pubKey.length = 32)
    (hrun : (KeyRegistry.registerPending publicKey (generateAddress sha256 pubKey relayPublicHost)
      now attempt).run kr = .ok code kr') :
    registerHandler parse sha256 relayPublicHost limiter (.ok bytes) now attempt kr =
      (.registered (generateAddress sha256 pubKey relayPublicHost) code, kr') := by
  simp [registerHandler, hlimiter, hposted, hne, hdecode, hlength, hrun]

/-- A key is registered and its code claimed. From then on the key is admitted exactly if some
claimed registration had posted it in its own encoding. This one is such a registration if its text
is the encoding and its code has not been given out again before the claim. -/
theorem admitted_after_claim_iff {kr kr₁ kr₂ : KeyRegistry} {address code publicKey claimed : String}
    {pubKey : Bytes} {commit : Option String} {earlier before after : List RegistryLabel}
    {r s t : RegistryState} (hfresh : Fresh kr)
    (hearlier : Run step (fun _ _ => True) ⟨kr, {}⟩ earlier r)
    (hregister : registerHandler parse sha256 relayPublicHost limiter body now attempt r.registry =
      (.registered address code, kr₁))
    (hposted : postedKey parse body = some publicKey)
    (hdecode : Base64.decodeString publicKey = some pubKey)
    (hbefore : Run step (fun _ _ => True)
      ⟨kr₁, r.ledger.register code ⟨publicKey, address, unixSeconds now⟩⟩ before s)
    (hclaim : (KeyRegistry.claim code commit).run s.registry = .ok claimed kr₂)
    (hafter : Run step (fun _ _ => True) ⟨kr₂, s.ledger.claim code⟩ after t) :
    (admits true (some t.registry) pubKey = true ↔ t.ledger.Approves (Base64.encode pubKey)) ∧
    ((Base64.decodeString publicKey).map Base64.encode = some publicKey →
      s.ledger.latest code = some r.ledger.registrations.length →
      t.ledger.Approves (Base64.encode pubKey)) := by
  obtain ⟨text, key, htext, -, -, -, hrun⟩ := registerHandler_registered hregister
  obtain rfl : publicKey = text := Option.some.inj (hposted.symm.trans htext)
  obtain ⟨-, rfl⟩ := (KeyRegistry.registerPending_spec _ _ _ _).ok rfl hrun
  have hbooked {s t : RegistryState} {l : List RegistryLabel} (h : Booked s)
      (hrun : Run step (fun _ _ => True) s l t) : Booked t :=
    hrun.invariant (P := Booked) h fun _ _ _ hb _ hs => hb.step hs
  have hs := hbooked ((hbooked (.start hfresh) hearlier).register code _) hbefore
  obtain ⟨entry, hentry, -, rfl⟩ := (KeyRegistry.claim_spec code commit).ok rfl hclaim
  refine ⟨(hbooked (hs.claim hentry) hafter).approved _, fun hcanonical hlatest => ?_⟩
  have hencode : Base64.encode pubKey = publicKey := by simpa [hdecode] using hcanonical
  have hown : s.ledger.registrations[r.ledger.registrations.length]? =
      some (code, ⟨publicKey, address, unixSeconds now⟩) := by
    refine hbefore.invariant (P := fun s => s.ledger.registrations[_]? = some (code, _)) ?_
      fun _ _ _ h _ hs => registration_step h hs
    simp [Ledger.register]
  refine hafter.invariant (P := fun t => t.ledger.Approves (Base64.encode pubKey)) ?_
    fun _ _ _ h _ hs => approves_step h hs
  exact ⟨_, by simp [Ledger.claim, hlatest], code, _, hown, hencode.symm⟩

/-- Registers a text on an empty registry, claims the code, and asks for a key. -/
def admittedAfter (publicKey : String) (pubKey : Bytes) : Option Bool :=
  match registerHandler (fun _ => some publicKey) id "relay.example.com" none (.ok []) 0
      (codes "0a" "0a") emptyRegistry with
  | (.registered _ code, kr) =>
    match (KeyRegistry.claim code none).run kr with
    | .ok _ kr' => some (admits true (some kr') pubKey)
    | .error _ _ => none
  | _ => none

def sevens : Bytes := List.replicate 32 7

def sevensText : String := Base64.encode sevens

/-- The same key with a line break, and with a bit set in the last letter that no byte uses. -/
def relaxedTexts : List String :=
  [sevensText ++ "\n", String.ofList (sevensText.toList.take 42) ++ "d="]

theorem relaxed_key_refused :
    relaxedTexts.map Base64.decodeString = [some sevens, some sevens] ∧
      relaxedTexts.map (admittedAfter · sevens) = [some false, some false] := by
  decide +kernel

def sevensAddress : String := generateAddress id sevens "relay.example.com"

theorem admitted_after_claim_iff_sevens : admittedAfter sevensText sevens = some true := by
  have hdecode : Base64.decodeString sevensText = some sevens := Base64.decodeString_encode sevens
  have hregister : registerHandler (fun _ => some sevensText) id "relay.example.com" none (.ok []) 0
      (codes "0a" "0a") emptyRegistry = (.registered sevensAddress "0a",
        emptyRegistry.addPending "0a" ⟨sevensText, sevensAddress, 0⟩) :=
    registerHandler_of_decode (by decide) rfl (by decide +kernel) hdecode (by decide) rfl
  have hclaim : (KeyRegistry.claim "0a" none).run
      (emptyRegistry.addPending "0a" ⟨sevensText, sevensAddress, 0⟩) = .ok sevensAddress
        (((emptyRegistry.addPending "0a" ⟨sevensText, sevensAddress, 0⟩).addApproved sevensText
          sevensAddress).removePending "0a") := rfl
  have hfresh : Fresh emptyRegistry := ⟨rfl, by simp [emptyRegistry]⟩
  obtain ⟨hiff, happroves⟩ := admitted_after_claim_iff (r := ⟨emptyRegistry, {}⟩) hfresh .nil
    hregister rfl hdecode .nil hclaim .nil
  have hadmits := hiff.2 (happroves (by rw [hdecode]; rfl) (by decide +kernel))
  rw [admittedAfter, hregister]
  dsimp only
  rw [hclaim]
  exact congrArg some hadmits

end Pinch
