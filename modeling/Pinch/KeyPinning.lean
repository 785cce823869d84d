import Pinch.ConsentGate
import Pinch.Vectors

/-! Which key the agent holds for an address that already embeds one. The stored key
comes from the peer's request or response, the fallback from the address. -/

namespace Pinch

open ConnectionManager

variable (sha256 : Bytes → Bytes)

def resolveKey (p : String) (r : Option Connection) : Option Bytes :=
  match r.bind (·.peerPublicKey) with
  | some key => if key ≠ "" then some (Base64.decode key) else embeddedKey sha256 p
  | none => embeddedKey sha256 p

theorem getPeerPublicKey_eq (s : ConnectionStore) (p : String) :
    s.getPeerPublicKey sha256 p = resolveKey sha256 p (s.getConnection p) := rfl

def KeysPinned (s : ConnectionStore) : Prop :=
  ∀ p c key, s.getConnection p = some c → embeddedKey sha256 c.peerAddress = some key →
    s.getPeerPublicKey sha256 c.peerAddress = some key

/-- A request or acceptance that takes effect carries no key, or the key its own
address embeds. -/
def KeyHonest (before : List Call) (ev : ConnectionEvent) : Prop :=
  (∀ e r, ev = .incoming e → e.type = .connectionRequest → e.payload = .connectionRequest r →
    utf16Length r.message ≤ 280 → (deadlineOf r.expiresAt).isSome → r.senderPublicKey ≠ [] →
    ∀ key, embeddedKey sha256 r.fromAddress = some key → r.senderPublicKey = key) ∧
  (∀ e r, ev = .incoming e → e.type = .connectionResponse → e.payload = .connectionResponse r →
    r.accepted = true → (stateAfter before r.fromAddress).isSome → r.responderPublicKey ≠ [] →
    ∀ key, embeddedKey sha256 r.fromAddress = some key → r.responderPublicKey = key)

def recordAfter (calls : List Call) (p : String) : Option Connection :=
  (Agent.initial.run calls).connectionStore.getConnection p

theorem recordAfter_snoc (calls : List Call) (ctx : CallContext) (ev : ConnectionEvent)
    (p : String) :
    recordAfter (calls ++ [(ctx, ev)]) p =
      (ev.effect ctx p (stateAfter calls p)).apply ctx.now (recordAfter calls p) := by
  simp only [recordAfter, stateAfter, Agent.run, List.foldl_append, List.foldl_cons, List.foldl_nil,
    getConnection_step, Agent.stateOf]

theorem publicKeyText_eq_empty_iff (key : Bytes) : publicKeyText key = "" ↔ key = [] := by
  unfold publicKeyText
  split_ifs with h
  · simp [h]
  · simp [h, Base64.encode_eq_empty_iff]

theorem resolveKey_encoded {p : String} {c : Connection} {key : Bytes}
    (h : c.peerPublicKey = some (publicKeyText key)) :
    resolveKey sha256 p (some c) = if key = [] then embeddedKey sha256 p else some key := by
  by_cases hk : key = []
  · simp [resolveKey, h, hk, publicKeyText]
  · have he : publicKeyText key = Base64.encode key := by simp [publicKeyText, hk]
    have hn : Base64.encode key ≠ "" := by simpa [Base64.encode_eq_empty_iff] using hk
    simp [resolveKey, h, he, hn, hk, Base64.decode_encode]

def Pinned (p : String) (r : Option Connection) : Prop :=
  ∀ key, embeddedKey sha256 p = some key → resolveKey sha256 p r = some key

theorem pinned_encoded {p : String} {c : Connection} (key : Bytes)
    (h : c.peerPublicKey = some (publicKeyText key)) :
    Pinned sha256 p (some c) ↔
      (key ≠ [] → ∀ k, embeddedKey sha256 p = some k → key = k) := by
  unfold Pinned
  rw [resolveKey_encoded sha256 h]
  by_cases hk : key = []
  · simp [hk]
  · simp [hk]

theorem pinned_response {p : String} {c : Connection} {r : ConnectionResponse} {now : Int}
    (hr : r.accepted = true) :
    Pinned sha256 p (some (ConnectionStore.assign c (responseUpdate r) now)) ↔
      (r.responderPublicKey ≠ [] → ∀ k, embeddedKey sha256 p = some k → r.responderPublicKey = k) := by
  by_cases hk : r.responderPublicKey = []
  · have hn : (ConnectionStore.assign c (responseUpdate r) now).peerPublicKey = none := by
      simp [ConnectionStore.assign, responseUpdate, hr, hk, publicKeyText]
    simp [Pinned, resolveKey, hn, hk]
  · refine pinned_encoded sha256 r.responderPublicKey ?_
    have hne : publicKeyText r.responderPublicKey ≠ "" := by simpa [publicKeyText_eq_empty_iff] using hk
    simp [ConnectionStore.assign, responseUpdate, hr, hne]

theorem pinned_assign {p : String} {c : Connection} {u : ConnectionUpdates} {now : Int}
    (hu : u.peerPublicKey = none) :
    Pinned sha256 p (some (ConnectionStore.assign c u now)) ↔ Pinned sha256 p (some c) := by
  simp [Pinned, resolveKey, ConnectionStore.assign, hu]

theorem recordAfter_peerAddress {calls : List Call} {p : String} {c : Connection}
    (h : recordAfter calls p = some c) : c.peerAddress = p := by
  induction calls using List.reverseRecOn generalizing c with
  | nil => simp [recordAfter, Agent.run, Agent.initial, ConnectionStore.getConnection] at h
  | append_singleton calls call ih =>
    obtain ⟨ctx, ev⟩ := call
    rw [recordAfter_snoc] at h
    have hc := ConnectionEvent.effect_case ctx p (stateAfter calls p) ev
    generalize ev.effect ctx p (stateAfter calls p) = eff at h hc
    cases eff with
    | keep => exact ih h
    | create n =>
      have hn : n.peerAddress = p := by
        cases hc with
        | sendRequest => rfl
        | request e r d ht hp hq => exact hq
      rw [← Option.some.inj h]
      exact hn
    | update u =>
      obtain ⟨c', hc', rfl⟩ := Option.map_eq_some_iff.mp h
      have hh : c'.peerAddress = p := ih hc'
      exact hh

theorem isSome_recordAfter (calls : List Call) (p : String) :
    (stateAfter calls p).isSome = (recordAfter calls p).isSome := by
  simp [stateAfter, recordAfter, Agent.stateOf]

theorem pinned_snoc_iff {before : List Call} {ctx : CallContext} {ev : ConnectionEvent}
    (hb : ∀ p, Pinned sha256 p (recordAfter before p)) :
    (∀ p, Pinned sha256 p (recordAfter (before ++ [(ctx, ev)]) p)) ↔ KeyHonest sha256 before ev := by
  constructor
  · intro h
    constructor
    · rintro e r rfl ht hp hm hd
      have hr := h r.fromAddress
      obtain ⟨deadline, hd⟩ := Option.isSome_iff_exists.mp hd
      rw [recordAfter_snoc] at hr
      simp only [ConnectionEvent.effect, incomingEffect, ht, hp, hm, hd, and_self, if_true,
        RecordEffect.apply] at hr
      exact (pinned_encoded sha256 r.senderPublicKey rfl).mp hr
    · rintro e r rfl ht hp hacc hs
      have hr := h r.fromAddress
      rw [isSome_recordAfter] at hs
      obtain ⟨c, hc⟩ := Option.isSome_iff_exists.mp hs
      rw [recordAfter_snoc, hc] at hr
      simp only [ConnectionEvent.effect, incomingEffect, ht, hp, if_true, RecordEffect.apply,
        Option.map_some] at hr
      exact (pinned_response sha256 hacc).mp hr
  · rintro ⟨hreq, hresp⟩ p
    rw [recordAfter_snoc]
    have hc := ConnectionEvent.effect_case ctx p (stateAfter before p) ev
    generalize ev.effect ctx p (stateAfter before p) = eff at hc
    have hp := hb p
    cases hc with
    | keep => exact hp
    | sendRequest => exact (pinned_encoded sha256 [] rfl).mpr (fun h => absurd rfl h)
    | request e r d ht hpl hq hm hd =>
      subst hq
      exact (pinned_encoded sha256 r.senderPublicKey rfl).mpr
        (hreq e r rfl ht hpl hm (by simp [hd]))
    | response e r ht hpl hq =>
      subst hq
      cases hrec : recordAfter before r.fromAddress with
      | none => rwa [hrec] at hp
      | some c =>
        cases hacc : r.accepted with
        | true =>
          refine (pinned_response sha256 hacc).mpr (hresp e r rfl ht hpl hacc ?_)
          rw [isSome_recordAfter, hrec]
          rfl
        | false =>
          rw [hrec] at hp
          refine (pinned_assign sha256 ?_).mpr hp
          simp [responseUpdate, hacc]
    | _ =>
      cases hrec : recordAfter before p with
      | none => rwa [hrec] at hp
      | some c =>
        rw [hrec] at hp
        exact (pinned_assign sha256 rfl).mpr hp

theorem keysPinned_iff (calls : List Call) :
    KeysPinned sha256 (Agent.initial.run calls).connectionStore ↔
      ∀ p, Pinned sha256 p (recordAfter calls p) := by
  constructor
  · intro h p key hk
    cases hr : recordAfter calls p with
    | none => simpa [resolveKey] using hk
    | some c =>
      have ha := recordAfter_peerAddress hr
      have hh := h p c key hr (ha ▸ hk)
      rw [ha, getPeerPublicKey_eq] at hh
      rwa [← hr]
  · intro h p c key hr hk
    rw [getPeerPublicKey_eq]
    exact h c.peerAddress key hk

/-- Key pinning, exactly: along a history every record under a valid address keeps
the embedded key if and only if each step is honest about keys. -/
theorem keysPinned_iff_keyHonest (calls : List Call) :
    (∀ before, before <+: calls → KeysPinned sha256 (Agent.initial.run before).connectionStore) ↔
      ∀ before ctx ev after, calls = before ++ (ctx, ev) :: after → KeyHonest sha256 before ev := by
  simp only [keysPinned_iff]
  constructor
  · rintro h before ctx ev after rfl
    have hs : before ++ [(ctx, ev)] <+: before ++ (ctx, ev) :: after :=
      ⟨after, by simp⟩
    exact (pinned_snoc_iff sha256 (h before (List.prefix_append _ _))).mp (h _ hs)
  · intro h before
    induction before using List.reverseRecOn with
    | nil => exact fun _ p key hk => hk
    | append_singleton before call ih =>
      rintro ⟨after, rfl⟩
      have hb := ih ⟨call :: after, by simp⟩
      exact (pinned_snoc_iff sha256 hb).mpr (h before call.1 call.2 after (by simp))

/-- A request in the name of the first vector's address that carries another key. -/
def plantedRequest : Envelope where
  type := .connectionRequest
  payload := .connectionRequest ⟨vectorAddress, "pinch:alice@relay.example", "hi", otherKey, 0⟩

theorem not_keysPinned_plantedRequest :
    ¬ KeysPinned (fun _ => vectorDigest)
      (Agent.initial.run [(aliceContext, .incoming plantedRequest)]).connectionStore := by
  rw [keysPinned_iff]
  intro h
  have hk := h vectorAddress vectorKey (by decide +kernel)
  exact absurd hk (by decide +kernel)

end Pinch
