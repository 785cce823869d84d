import Pinch.Impersonation

/-! Envelopes of the types that the relay itself sends. The hub builds its own notices, and
forwards whatever a client addresses to another client. -/

namespace Pinch

/-- The types with which the relay speaks to an agent. -/
def MessageType.fromRelay : MessageType → Bool
  | .queueStatus | .queueFull | .rateLimited | .authChallenge | .authResult => true
  | _ => false

def Item.envelope : Item → Option Envelope
  | .direct _ parcel | .queued _ _ parcel => parcel.frame.envelope
  | .control env => some env

namespace Hub

open Transition

variable {s t : Hub} {label : HubLabel}

/-- What `sendRateLimited`, `sendQueueFull` and `sendQueueStatus` build. -/
inductive Notice : Envelope → Prop
  | rateLimited : Notice rateLimitedEnvelope
  | queueFull (a : String) : Notice (queueFullEnvelope a)
  | queueStatus (n : ℤ) : Notice (queueStatusEnvelope n)

/-- The hub answers with its notices only. -/
structure Notifies (s : Hub) : Prop where
  replying : ∀ c parcel env, (s.heap c).route = some ⟨parcel, .reply env⟩ → Notice env
  placed : ∀ p ∈ s.placed, ∀ env, p.item = .control env → Notice env

theorem Notifies.start (mq : MessageQueue Parcel) (blockStore : BlockStore) :
    Notifies (start mq blockStore) :=
  ⟨by simp [Hub.start], by simp [Hub.start]⟩

theorem routeMessage_reply {frame : Frame} {allowed : Bool} {env : Envelope}
    (h : routeMessage frame allowed = some (.reply env)) : env = rateLimitedEnvelope := by
  unfold routeMessage at h
  split at h
  · exact (RoutePc.reply.inj (Option.some.inj h)).symm
  · split at h
    · simp at h
    · split at h
      · simp at h
      · split at h <;> simp at h

theorem RouteMove.reply {sender : String} {pc : RoutePc} {env : Envelope}
    (h : RouteMove s sender pc (some (.reply env))) : ∃ a, env = queueFullEnvelope a := by
  cases h with
  | full => exact ⟨_, rfl⟩

/-- What `RouteMessage` answers with is a notice of a rate limit or of a full queue. -/
theorem Step.replying_of {P : Envelope → Prop} (hlimited : P rateLimitedEnvelope)
    (hfull : ∀ a, P (queueFullEnvelope a)) (hs : Step s label t)
    (h : ∀ c parcel env, (s.heap c).route = some ⟨parcel, .reply env⟩ → P env) :
    ∀ c parcel env, (t.heap c).route = some ⟨parcel, .reply env⟩ → P env := by
  intro c parcel env hroute
  cases hs.routeView c with
  | same hsame haddr => exact h c parcel env (hsame ▸ hroute)
  | fresh hc hnone | ended hl hnone => simp [hnone] at hroute
  | called hl hold ht =>
    subst ht
    have hreply := by simpa using hroute
    obtain rfl := routeMessage_reply hreply.1
    exact hlimited
  | moved hl hold hmove ht =>
    subst ht
    obtain ⟨rfl, -⟩ := by simpa using hroute
    obtain ⟨a, rfl⟩ := hmove.reply
    exact hfull a

theorem announces {c n : ℕ} {ok : Bool} (hp : s.panicked = false)
    (hrun : s.run = .announcing c n) (h : s.step (.run ok) = some t) :
    t = { s with run := .flagging c }.send c
      (.control (queueStatusEnvelope ((n : ℤ).bmod 4294967296))) := by
  have hsent : s.runStep ok = some t := by
    simpa only [Hub.step, hp, Bool.false_eq_true, if_false] using h
  simp only [runStep, hrun] at hsent
  exact (Option.some.inj hsent).symm

/-- Only `Run` and a replying call send notices. -/
theorem notifies_placed (hstep : s.step label = some t) (h : Notifies s) :
    ∀ p ∈ t.placed, ∀ env, p.item = .control env → Notice env := by
  have hold : ∀ {u : Hub} {c : ℕ} {item : Item}, u.placed = s.placed →
      (∀ env, item = .control env → Notice env) →
      ∀ p ∈ (u.send c item).placed, ∀ env, p.item = .control env → Notice env := by
    intro u c item hu hitem p hp env hpe
    rcases placed_send_cases with heq | ⟨-, heq⟩
    · exact h.placed p (by rwa [heq, hu] at hp) env hpe
    · rw [heq, hu, List.mem_append, List.mem_singleton] at hp
      rcases hp with hp | rfl
      · exact h.placed p hp env hpe
      · exact hitem env hpe
  obtain ⟨hp, hs⟩ := Step.of_step hstep
  cases hs with
  | announced hrun =>
    rw [announces hp hrun hstep]
    refine hold rfl ?_
    rintro env heq
    obtain rfl := Item.control.inj heq
    exact .queueStatus _
  | replied hroute =>
    refine hold rfl ?_
    rintro env heq
    obtain rfl := Item.control.inj heq
    exact h.replying _ _ _ hroute
  | delivered hroute => exact hold rfl (by simp)
  | flushSent hflush => exact hold rfl (by simp)
  | _ => simpa using h.placed

theorem Notifies.step (h : Notifies s) (hstep : s.step label = some t) : Notifies t :=
  ⟨(Step.of_step hstep).2.replying_of .rateLimited .queueFull h.replying,
    notifies_placed hstep h⟩

/-- The frame is of no type that the relay itself sends. -/
def Ordinary (_sender : String) (frame : Frame) : Prop :=
  ∀ env ∈ frame.envelope, env.type.fromRelay = false

instance (sender : String) (frame : Frame) : Decidable (Ordinary sender frame) :=
  inferInstanceAs (Decidable (∀ env ∈ frame.envelope, _))

instance (s : Hub) (x : HubLabel) : Decidable (s.vouches Ordinary x) :=
  match x with
  | .route .. => inferInstanceAs (Decidable (_ → _))
  | .register _ | .run _ | .unregister _ | .signal | .propagate _ | .beginShutdown | .closeNext _
  | .stop | .authResult .. | .readError _ | .routeStep .. | .flushStep .. | .write _ | .sweep _ =>
    isTrue trivial

/-- The types of the relay are placed by the hub for its own notices and are never queued. -/
structure OwnNotices (s : Hub) : Prop where
  placed : ∀ p ∈ s.placed, ∀ env ∈ p.item.envelope, env.type.fromRelay = true →
    p.item = .control env ∧ Notice env
  queued : ∀ a e, Queued s a e → ∀ env ∈ e.envelope.frame.envelope, env.type.fromRelay = false

theorem Vouched.ownNotices (hv : Vouched Ordinary s) (hn : Notifies s) : OwnNotices s where
  placed p hp env henv htype := by
    have hforwarded (sender : String) (parcel : Parcel)
        (ho : p.item.origin = some (sender, parcel.frame)) (hf : env ∈ parcel.frame.envelope) :
        False := by
      have hq := hv.placed p hp _ ho env hf
      simp [hq] at htype
    cases hitem : p.item with
    | control e =>
      obtain rfl : e = env := by simpa [hitem, Item.envelope] using henv
      exact ⟨rfl, hn.placed p hp e hitem⟩
    | direct sender parcel =>
      rw [hitem, Item.envelope] at henv
      exact (hforwarded sender parcel (by rw [hitem, Item.origin]) henv).elim
    | queued key sender parcel =>
      rw [hitem, Item.envelope] at henv
      exact (hforwarded sender parcel (by rw [hitem, Item.origin]) henv).elim
  queued a e he := hv.queued a e he

/-- Where no client addresses such an envelope to another, only the hub sends them. -/
theorem control_only_from_relay {mq : MessageQueue Parcel} {blockStore : BlockStore}
    {l : List HubLabel}
    (hmq : ∀ a key msg, (key, some msg) ∈ (mq.bucket a).messages →
      Ordinary msg.senderAddr msg.envelope.frame)
    (h : Run step (fun s x => s.vouches Ordinary x) (start mq blockStore) l s) : OwnNotices s := by
  have hv := h.invariant (P := Vouched Ordinary) (.start hmq blockStore)
    fun s label t hv hok hstep => (Step.of_step hstep).2.vouched hv hok
  have hn := h.invariant (P := Notifies) (.start mq blockStore)
    fun s label t hn _ hstep => hn.step hstep
  exact hv.ownNotices hn

def honestNotices : Hub :=
  (exec step (fun s x => s.vouches Ordinary x) (start (.new 1000 100) ⟨[]⟩)
    (sendTwice (signedAs "mallory"))).get (by decide +kernel)

theorem control_only_from_relay_honest :
    honestNotices.placed.map (·.item.envelope.map (·.type)) =
      [some .queueStatus, some .message, some .message] ∧ OwnNotices honestNotices :=
  ⟨by decide +kernel, control_only_from_relay (by simp [Bucket.empty])
    (.of_exec (Option.some_get _).symm)⟩

/-- A queue status for "bob" that a client wrote. -/
def forgedStatus : Frame :=
  ⟨40, some { toAddress := "bob", type := .queueStatus, payload := .queueStatus ⟨1000⟩ }⟩

/-- Both ways to "bob" forward a queue status that "mallory" wrote. -/
theorem forged_status_placed : ∃ l s,
    Run step (fun _ x => x.succeeds) (start (.new 1000 100) ⟨[]⟩) l s ∧
      s.placed.filterMap (·.item.origin) =
        [("mallory", forgedStatus), ("mallory", forgedStatus)] ∧ ¬ OwnNotices s := by
  refine ⟨_, _, .of_exec (l := sendTwice forgedStatus)
    (Option.some_get (by decide +kernel)).symm, by decide +kernel, fun h => ?_⟩
  have hall p hp env henv htype := (h.placed p hp env henv htype).1
  revert hall
  decide +kernel

end Hub

end Pinch
