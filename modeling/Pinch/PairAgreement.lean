import Pinch.ConsentGate
import Pinch.Transition

/-! Two honest agents joined by lossless first-in-first-out channels. What an end will
settle to is its record after the envelopes still under way to it; the two ends
agree on that as long as acceptances do not cross requests or revocations. -/

namespace Pinch

open ConnectionManager Transition

inductive Side
  | alice
  | bob
  deriving DecidableEq

def Side.other : Side → Side
  | alice => bob
  | bob => alice

@[simp] theorem Side.other_other (i : Side) : i.other.other = i := by cases i <;> rfl

theorem Side.eq_or_eq_other (i k : Side) : k = i ∨ k = i.other := by
  cases i <;> cases k <;> simp [other]

@[simp] theorem Side.other_ne (i : Side) : i.other ≠ i := by cases i <;> decide

structure Pair where
  agent : Side → Agent
  /-- Envelopes under way to each side, oldest first. -/
  inbox : Side → List Envelope

def Pair.initial : Pair := ⟨fun _ => Agent.initial, fun _ => []⟩

inductive PeerOp
  | sendRequest (message : String)
  | approveRequest
  | rejectRequest
  | revokeConnection

def PeerOp.event (peer : String) : PeerOp → ConnectionEvent
  | sendRequest message => .sendRequest peer message
  | approveRequest => .approveRequest peer
  | rejectRequest => .rejectRequest peer
  | revokeConnection => .revokeConnection peer

/-- Each step carries what the call finds outside the store; the assigned address and
an open socket are given. -/
inductive PairLabel
  | act (i : Side) (op : PeerOp) (key : Option Bytes) (now : Int) (saveError : Option String)
  | deliver (i : Side) (now : Int) (saveError : Option String)

section

variable (addr : Side → String)

def Side.context (i : Side) (key : Option Bytes) (now : Int) (saveError : Option String) :
    CallContext where
  assignedAddress := some (addr i)
  connected := true
  publicKey := key
  now := now
  saveError := saveError

def Pair.step (s : Pair) : PairLabel → Option Pair
  | .act i op key now saveError =>
    let a := s.agent i
    let a' := a.step (i.context addr key now saveError, op.event (addr i.other))
    some { agent := Function.update s.agent i a'
           inbox := Function.update s.inbox i.other
             (s.inbox i.other ++ a'.outbox.drop a.outbox.length) }
  | .deliver i now saveError =>
    match s.inbox i with
    | [] => none
    | e :: rest => some
        { agent := Function.update s.agent i
            ((s.agent i).step (i.context addr none now saveError, .incoming e))
          inbox := Function.update s.inbox i rest }

def Pair.peerState (s : Pair) (i : Side) : Option ConnectionState :=
  (s.agent i).stateOf (addr i.other)

def Envelope.refused (e : Envelope) : Bool :=
  match e.type, e.payload with
  | .connectionRequest, .connectionRequest r =>
    decide (280 < utf16Length r.message) || (deadlineOf r.expiresAt).isNone
  | _, _ => false

def lastUnderWay (l : List Envelope) : Option Envelope := (l.filter (!·.refused)).getLast?

/-- An approval is not made while the last thing under way to the approver is a request
or a revocation, nor a request or revocation while it is an acceptance. -/
def NoCrossing (s : Pair) : PairLabel → Prop
  | .act i .approveRequest _ _ _ =>
    s.peerState addr i = some .pendingInbound → ∀ e ∈ lastUnderWay (s.inbox i),
      e.type = .connectionResponse
  | .act i (.sendRequest message) _ _ _ =>
    utf16Length message ≤ 280 → ∀ e ∈ lastUnderWay (s.inbox i), e.type ≠ .connectionResponse
  | .act i .revokeConnection _ _ _ =>
    ∀ e ∈ lastUnderWay (s.inbox i), e.type ≠ .connectionResponse
  | _ => True

instance (s : Pair) (x : PairLabel) : Decidable (NoCrossing addr s x) :=
  match x with
  | .act i .approveRequest _ _ _ =>
    inferInstanceAs (Decidable (_ → ∀ e ∈ lastUnderWay (s.inbox i), _))
  | .act i (.sendRequest _) _ _ _ =>
    inferInstanceAs (Decidable (_ → ∀ e ∈ lastUnderWay (s.inbox i), _))
  | .act i .revokeConnection _ _ _ =>
    inferInstanceAs (Decidable (∀ e ∈ lastUnderWay (s.inbox i), _))
  | .act _ .rejectRequest _ _ _ => isTrue trivial
  | .deliver _ _ _ => isTrue trivial

def receive (p : String) (st : Option ConnectionState) (e : Envelope) : Option ConnectionState :=
  (incomingEffect p e).onState st

/-- The state an end settles to once everything under way has arrived. -/
def Pair.settled (s : Pair) (i : Side) : Option ConnectionState :=
  (s.inbox i).foldl (receive (addr i.other)) (s.peerState addr i)

end

inductive Honest (p : String) : Envelope → Prop
  | request (q message : String) (key : Bytes) (expiresAt : Int) (hm : utf16Length message ≤ 280) :
      Honest p (requestEnvelope p q message key expiresAt)
  | response (q : String) (key : Bytes) : Honest p (responseEnvelope p q key)
  | revoke (q : String) : Honest p (revokeEnvelope p q)

section Settling

variable {p : String} {l : List Envelope} {e : Envelope}

theorem receive_refused (st : Option ConnectionState) (he : Honest p e) (hr : e.refused = true) :
    receive p st e = st := by
  cases he with
  | request q message key expiresAt hm =>
    have hn : deadlineOf expiresAt = none := by
      simpa [Envelope.refused, requestEnvelope, Nat.not_lt.mpr hm] using hr
    simp [receive, incomingEffect, requestEnvelope, hm, hn, RecordEffect.onState]
  | response q key => simp [Envelope.refused, responseEnvelope] at hr
  | revoke q => simp [Envelope.refused, revokeEnvelope] at hr

theorem receive_effective (st : Option ConnectionState) (he : Honest p e)
    (hr : e.refused = false) :
    (e.type = .connectionRequest ∧ receive p st e = some .pendingInbound) ∨
    (e.type = .connectionResponse ∧ receive p st e = st.map (fun _ => .active)) ∨
    (e.type = .connectionRevoke ∧ receive p st e = st.map (fun _ => .revoked)) := by
  cases he with
  | request q message key expiresAt hm =>
    have hn : ∃ d, deadlineOf expiresAt = some d := by
      rw [← Option.isSome_iff_exists]
      simpa [Envelope.refused, requestEnvelope, Nat.not_lt.mpr hm] using hr
    obtain ⟨d, hd⟩ := hn
    refine .inl ⟨rfl, ?_⟩
    simp [receive, incomingEffect, requestEnvelope, hm, hd, RecordEffect.onState, inboundRecord]
  | response q key =>
    refine .inr (.inl ⟨rfl, ?_⟩)
    simp [receive, incomingEffect, responseEnvelope, RecordEffect.onState, responseUpdate_state]
  | revoke q =>
    refine .inr (.inr ⟨rfl, ?_⟩)
    simp [receive, incomingEffect, revokeEnvelope, RecordEffect.onState]

theorem receive_isSome {st : Option ConnectionState} (he : Honest p e) (hs : st.isSome) :
    (receive p st e).isSome := by
  cases hr : e.refused with
  | true => rwa [receive_refused _ he hr]
  | false =>
    rcases receive_effective st he hr with ⟨_, h⟩ | ⟨_, h⟩ | ⟨_, h⟩ <;> simp [h, hs]

theorem settle_isSome {st : Option ConnectionState} (hl : ∀ e ∈ l, Honest p e) (hs : st.isSome) :
    (l.foldl (receive p) st).isSome := by
  induction l generalizing st with
  | nil => exact hs
  | cons e l ih =>
    exact ih (fun e' he' => hl e' (by simp [he'])) (receive_isSome (hl e (by simp)) hs)

theorem lastUnderWay_snoc (l : List Envelope) (e : Envelope) :
    lastUnderWay (l ++ [e]) = if e.refused then lastUnderWay l else some e := by
  cases hr : e.refused <;> simp [lastUnderWay, List.filter_append, hr]

/-- Without an acceptance at the end, a record that is not active does not become so. -/
theorem settle_not_active {st : Option ConnectionState} (hl : ∀ e ∈ l, Honest p e)
    (hs : st ≠ some .active)
    (hlast : ∀ e, lastUnderWay l = some e → e.type ≠ .connectionResponse) :
    l.foldl (receive p) st ≠ some .active := by
  induction l using List.reverseRecOn with
  | nil => exact hs
  | append_singleton l e ih =>
    rw [List.foldl_append, List.foldl_cons, List.foldl_nil]
    have he := hl e (by simp)
    rw [lastUnderWay_snoc] at hlast
    cases hr : e.refused with
    | true =>
      rw [receive_refused _ he hr]
      exact ih (fun e' he' => hl e' (by simp [he'])) (by simpa [hr] using hlast)
    | false =>
      have ht := hlast e (by simp [hr])
      rcases receive_effective (l.foldl (receive p) st) he hr with ⟨_, h⟩ | ⟨h, _⟩ | ⟨_, h⟩
      · simp [h]
      · exact absurd h ht
      · rw [h]
        cases l.foldl (receive p) st <;> simp

theorem settle_active (hl : ∀ e ∈ l, Honest p e)
    (hlast : ∀ e, lastUnderWay l = some e → e.type = .connectionResponse) :
    l.foldl (receive p) (some .active) = some .active := by
  induction l using List.reverseRecOn with
  | nil => rfl
  | append_singleton l e ih =>
    rw [List.foldl_append, List.foldl_cons, List.foldl_nil]
    have he := hl e (by simp)
    have hl' : ∀ e ∈ l, Honest p e := fun e' he' => hl e' (by simp [he'])
    rw [lastUnderWay_snoc] at hlast
    cases hr : e.refused with
    | true =>
      rw [receive_refused _ he hr]
      exact ih hl' (by simpa [hr] using hlast)
    | false =>
      have ht := hlast e (by simp [hr])
      have hsome : (l.foldl (receive p) (some .active)).isSome := settle_isSome hl' rfl
      obtain ⟨s, hs⟩ := Option.isSome_iff_exists.mp hsome
      rw [hs]
      rcases receive_effective (some s) he hr with ⟨h, _⟩ | ⟨_, h⟩ | ⟨h, _⟩
      · simp [h] at ht
      · exact h
      · simp [h] at ht

theorem settle_congr {st st' : Option ConnectionState} (hl : ∀ e ∈ l, Honest p e)
    (h : st.isSome) (h' : st'.isSome)
    (hs : st ≠ some .active) (hs' : st' ≠ some .active) :
    l.foldl (receive p) st = some .active ↔ l.foldl (receive p) st' = some .active := by
  induction l using List.reverseRecOn with
  | nil => simp [hs, hs']
  | append_singleton l e ih =>
    rw [List.foldl_append, List.foldl_append]
    simp only [List.foldl_cons, List.foldl_nil]
    have he := hl e (by simp)
    have hl' : ∀ e ∈ l, Honest p e := fun e' he' => hl e' (by simp [he'])
    cases hr : e.refused with
    | true => simpa only [receive_refused _ he hr] using ih hl'
    | false =>
      obtain ⟨x, hx⟩ := Option.isSome_iff_exists.mp (settle_isSome hl' h)
      obtain ⟨y, hy⟩ := Option.isSome_iff_exists.mp (settle_isSome hl' h')
      rw [hx, hy]
      rcases receive_effective (some x) he hr with ⟨ht, h₁⟩ | ⟨ht, h₁⟩ | ⟨ht, h₁⟩ <;>
        rcases receive_effective (some y) he hr with ⟨ht', h₂⟩ | ⟨ht', h₂⟩ | ⟨ht', h₂⟩ <;>
        simp_all

end Settling

inductive ActCase (own peer : String) (st : Option ConnectionState) :
    PeerOp → Option ConnectionState → List Envelope → Prop
  | idle (op : PeerOp) : ActCase own peer st op st []
  | request (message : String) (key : Bytes) (expiresAt : Int) (hm : utf16Length message ≤ 280) :
      ActCase own peer st (.sendRequest message)
        (if (requestEnvelope own peer message key expiresAt).refused then st
          else some .pendingOutbound)
        [requestEnvelope own peer message key expiresAt]
  | approve (key : Bytes) (hs : st = some .pendingInbound) :
      ActCase own peer st .approveRequest (some .active) [responseEnvelope own peer key]
  | reject (hs : st = some .pendingInbound) :
      ActCase own peer st .rejectRequest (some .revoked) []
  | revoke : ActCase own peer st .revokeConnection (st.map fun _ => .revoked)
      [revokeEnvelope own peer]

section

variable (addr : Side → String)

theorem Side.own_context (i : Side) (key : Option Bytes) (now : Int) (saveError : Option String) :
    (i.context addr key now saveError).own = if addr i = "" then none else some (addr i) := by
  by_cases h : addr i = "" <;> simp [CallContext.own, Side.context, Option.filter, h]

theorem refused_request (own peer message : String) (key : Bytes) (now : Int)
    (hm : utf16Length message ≤ 280) :
    (requestEnvelope own peer message key (requestExpiry now)).refused =
      (toISOString (requestExpiry now * 1000)).isNone := by
  by_cases h : requestExpiry now = 0
  · have h0 : (toISOString 0).isSome = true := by decide
    simp [Envelope.refused, requestEnvelope, Nat.not_lt.mpr hm, deadlineOf, h, h0]
  · simp [Envelope.refused, requestEnvelope, Nat.not_lt.mpr hm, deadlineOf, h]

theorem act_case (a : Agent) (i : Side) (peer : String) (op : PeerOp) (key : Option Bytes)
    (now : Int) (saveError : Option String) :
    ActCase (addr i) peer (a.stateOf peer) op
      ((a.step (i.context addr key now saveError, op.event peer)).stateOf peer)
      ((op.event peer).sent (i.context addr key now saveError) a.connectionStore) := by
  rw [stateOf_step]
  have hown := i.own_context addr key now saveError
  have hconn : (i.context addr key now saveError).connected = true := rfl
  have hst : (a.connectionStore.getConnection peer).map (·.state) = a.stateOf peer := rfl
  cases op with
  | sendRequest message =>
    by_cases h : addr i ≠ "" ∧ utf16Length message ≤ 280
    · obtain ⟨ha, hm⟩ := h
      have hcase : ActCase (addr i) peer (a.stateOf peer) _ _ _ :=
        .request message (key.getD []) (requestExpiry now) hm
      rw [refused_request _ _ _ _ _ hm] at hcase
      have hk : (i.context addr key now saveError).publicKey = key := rfl
      have hn : (i.context addr key now saveError).now = now := rfl
      simp only [PeerOp.event, ConnectionEvent.effect, ConnectionEvent.sent, hown, if_neg ha, hm,
        hconn, hk, hn, Option.isSome_some, and_self, if_true]
      cases hx : toISOString (requestExpiry now * 1000) with
      | none => simpa [hx, RecordEffect.onState] using hcase
      | some expiry => simpa [hx, RecordEffect.onState, outboundRecord] using hcase
    · by_cases ha : addr i = ""
      · simpa [PeerOp.event, ConnectionEvent.effect, ConnectionEvent.sent, hown, ha,
          RecordEffect.onState] using ActCase.idle _
      · have hm : ¬ utf16Length message ≤ 280 := fun hm => h ⟨ha, hm⟩
        simpa [PeerOp.event, ConnectionEvent.effect, ConnectionEvent.sent, hown, ha, hm,
          RecordEffect.onState] using ActCase.idle _
  | approveRequest =>
    by_cases ha : addr i = ""
    · simpa [PeerOp.event, ConnectionEvent.effect, ConnectionEvent.sent, hown, ha,
        RecordEffect.onState] using ActCase.idle _
    · by_cases hs : a.stateOf peer = some .pendingInbound
      · simpa [PeerOp.event, ConnectionEvent.effect, ConnectionEvent.sent, hown, ha, hconn, hst,
          hs, RecordEffect.onState] using ActCase.approve _ hs
      · simpa [PeerOp.event, ConnectionEvent.effect, ConnectionEvent.sent, hown, ha, hst, hs,
          RecordEffect.onState] using ActCase.idle _
  | rejectRequest =>
    by_cases hs : a.stateOf peer = some .pendingInbound
    · simpa [PeerOp.event, ConnectionEvent.effect, ConnectionEvent.sent, hs,
        RecordEffect.onState] using ActCase.reject hs
    · simpa [PeerOp.event, ConnectionEvent.effect, ConnectionEvent.sent, hs,
        RecordEffect.onState] using ActCase.idle _
  | revokeConnection =>
    by_cases ha : addr i = ""
    · simpa [PeerOp.event, ConnectionEvent.effect, ConnectionEvent.sent, hown, ha,
        RecordEffect.onState] using ActCase.idle _
    · simpa [PeerOp.event, ConnectionEvent.effect, ConnectionEvent.sent, hown, ha, hconn,
        RecordEffect.onState] using ActCase.revoke

/-- Everything under way is honest, a pending request is known at the other end, and
the two ends settle alike. -/
structure Pair.Consistent (s : Pair) : Prop where
  honest : ∀ i, ∀ e ∈ s.inbox i, Honest (addr i.other) e
  known : ∀ i, (s.peerState addr i = some .pendingInbound ∨
      ∃ e ∈ s.inbox i, e.type = .connectionRequest ∧ e.refused = false) →
    (s.peerState addr i.other).isSome
  agree : ∀ i, s.settled addr i = some .active ↔ s.settled addr i.other = some .active

variable {addr}

theorem ActCase.isSome {own peer : String} {st st' : Option ConnectionState} {op : PeerOp}
    {sent : List Envelope} (h : ActCase own peer st op st' sent) (hs : st.isSome) :
    st'.isSome := by
  cases h <;> simp [hs, apply_ite]

theorem ActCase.honest {own peer : String} {st st' : Option ConnectionState} {op : PeerOp}
    {sent : List Envelope} (h : ActCase own peer st op st' sent) : ∀ e ∈ sent, Honest own e := by
  intro e he
  cases h with
  | idle => simp at he
  | request message key expiresAt hm =>
    obtain rfl := List.mem_singleton.mp he
    exact .request _ _ _ _ hm
  | approve key =>
    obtain rfl := List.mem_singleton.mp he
    exact .response _ _
  | reject => simp at he
  | revoke =>
    obtain rfl := List.mem_singleton.mp he
    exact .revoke _

theorem ActCase.pendingInbound {own peer : String} {st st' : Option ConnectionState} {op : PeerOp}
    {sent : List Envelope} (h : ActCase own peer st op st' sent)
    (hs : st' = some .pendingInbound) : st = some .pendingInbound := by
  cases h with
  | idle => exact hs
  | request message key expiresAt hm =>
    split_ifs at hs with hr
    · exact hs
    · simp at hs
  | approve key h => exact h
  | reject h => exact h
  | revoke => cases st <;> simp at hs

theorem ActCase.request_known {own peer : String} {st st' : Option ConnectionState} {op : PeerOp}
    {sent : List Envelope} (h : ActCase own peer st op st' sent) {e : Envelope} (he : e ∈ sent)
    (ht : e.type = .connectionRequest) (hr : e.refused = false) : st'.isSome := by
  cases h with
  | idle => simp at he
  | request message key expiresAt hm =>
    obtain rfl := List.mem_singleton.mp he
    simp [hr]
  | approve key => simp
  | reject => simp
  | revoke =>
    obtain rfl := List.mem_singleton.mp he
    simp [revokeEnvelope] at ht

section Act

variable {s s' : Pair} {i : Side} {op : PeerOp} {key : Option Bytes} {now : Int}
  {saveError : Option String} {sent : List Envelope}

theorem Pair.Consistent.agree_act (h : s.Consistent addr)
    (hcase : ActCase (addr i) (addr i.other) (s.peerState addr i) op (s'.peerState addr i) sent)
    (hok : NoCrossing addr s (.act i op key now saveError)) :
    (s.inbox i).foldl (receive (addr i.other)) (s'.peerState addr i) = some .active ↔
      sent.foldl (receive (addr i)) (s.settled addr i.other) = some .active := by
  have hl := h.honest i
  have hh := hcase.honest
  generalize hst' : s'.peerState addr i = st' at hcase
  cases hcase with
  | idle => exact h.agree i
  | request message key expiresAt hm =>
    have he := hh _ (List.mem_singleton_self _)
    rw [List.foldl_cons, List.foldl_nil]
    cases hr : (requestEnvelope (addr i) (addr i.other) message key expiresAt).refused with
    | true =>
      rw [receive_refused _ he hr, if_pos rfl]
      exact h.agree i
    | false =>
      rw [if_neg (by simp)]
      have hpend : some ConnectionState.pendingOutbound ≠ some .active := by simp
      have hn := settle_not_active hl hpend (hok hm)
      rcases receive_effective (s.settled addr i.other) he hr with ⟨_, h'⟩ | ⟨ht, _⟩ | ⟨ht, _⟩
      · simp [hn, h']
      · simp [requestEnvelope] at ht
      · simp [requestEnvelope] at ht
  | approve key hs =>
    have hother : (s.settled addr i.other).isSome :=
      settle_isSome (h.honest i.other) (h.known i (.inl hs))
    obtain ⟨x, hx⟩ := Option.isSome_iff_exists.mp hother
    rw [settle_active hl (hok hs), hx]
    simp [receive, incomingEffect, responseEnvelope, RecordEffect.onState, responseUpdate_state]
  | reject hs =>
    have hrev : some ConnectionState.revoked ≠ some .active := by simp
    have hpend : some ConnectionState.pendingInbound ≠ some .active := by simp
    have hc := settle_congr hl rfl rfl hrev hpend
    rw [List.foldl_nil, hc, ← hs]
    exact h.agree i
  | revoke =>
    have hrev : (s.peerState addr i).map (fun _ => ConnectionState.revoked) ≠ some .active := by
      cases s.peerState addr i <;> simp
    have hn := settle_not_active hl hrev hok
    have hr : (revokeEnvelope (addr i) (addr i.other)).refused = false := rfl
    rcases receive_effective (s.settled addr i.other) (hh _ (List.mem_singleton_self _)) hr with
      ⟨ht, _⟩ | ⟨ht, _⟩ | ⟨_, h'⟩
    · simp [revokeEnvelope] at ht
    · simp [revokeEnvelope] at ht
    · rw [List.foldl_cons, List.foldl_nil, h']
      cases s.settled addr i.other <;> simp [hn]

theorem Pair.Consistent.act (h : s.Consistent addr) (i : Side) (sent : List Envelope)
    (hi : s'.inbox i = s.inbox i)
    (hj : s'.inbox i.other = s.inbox i.other ++ sent)
    (hpj : s'.peerState addr i.other = s.peerState addr i.other)
    (hcase : ActCase (addr i) (addr i.other) (s.peerState addr i) op (s'.peerState addr i) sent)
    (hok : NoCrossing addr s (.act i op key now saveError)) : s'.Consistent addr := by
  have hagree : s'.settled addr i = some .active ↔ s'.settled addr i.other = some .active := by
    have := h.agree_act hcase hok
    simpa only [Pair.settled, hi, hj, hpj, List.foldl_append, Side.other_other] using this
  have hknown : (s'.peerState addr i = some .pendingInbound ∨
      ∃ e ∈ s'.inbox i, e.type = .connectionRequest ∧ e.refused = false) →
      (s'.peerState addr i.other).isSome := by
    rw [hi, hpj]
    rintro (hs | he)
    · exact h.known i (.inl (hcase.pendingInbound hs))
    · exact h.known i (.inr he)
  have hknown' : (s'.peerState addr i.other = some .pendingInbound ∨
      ∃ e ∈ s'.inbox i.other, e.type = .connectionRequest ∧ e.refused = false) →
      (s'.peerState addr i).isSome := by
    have hold := h.known i.other
    rw [Side.other_other] at hold
    rw [hj, hpj]
    rintro (hs | ⟨e, he, ht, hr⟩)
    · exact hcase.isSome (hold (.inl hs))
    · rcases List.mem_append.mp he with he | he
      · exact hcase.isSome (hold (.inr ⟨e, he, ht, hr⟩))
      · exact hcase.request_known he ht hr
  have hhonest : ∀ e ∈ s'.inbox i.other, Honest (addr i) e := by
    intro e he
    rw [hj] at he
    rcases List.mem_append.mp he with he | he
    · simpa using h.honest i.other e he
    · exact hcase.honest e he
  refine ⟨fun k => ?_, fun k => ?_, fun k => ?_⟩
  · rcases i.eq_or_eq_other k with rfl | rfl
    · rw [hi]
      exact h.honest _
    · simpa using hhonest
  · rcases i.eq_or_eq_other k with rfl | rfl
    · exact hknown
    · simpa using hknown'
  · rcases i.eq_or_eq_other k with rfl | rfl
    · exact hagree
    · simpa using hagree.symm

theorem Pair.Consistent.deliver {e : Envelope} {rest : List Envelope} (h : s.Consistent addr)
    (hin : s.inbox i = e :: rest) (hi : s'.inbox i = rest)
    (hj : s'.inbox i.other = s.inbox i.other)
    (hpi : s'.peerState addr i = receive (addr i.other) (s.peerState addr i) e)
    (hpj : s'.peerState addr i.other = s.peerState addr i.other) : s'.Consistent addr := by
  have he : Honest (addr i.other) e := h.honest i e (by simp [hin])
  have hsettled : ∀ k, s'.settled addr k = s.settled addr k := by
    intro k
    rcases i.eq_or_eq_other k with rfl | rfl
    · simp only [Pair.settled, hi, hpi, hin, List.foldl_cons]
    · simp only [Pair.settled, hj, hpj]
  refine ⟨fun k e' he' => ?_, fun k hk => ?_, fun k => ?_⟩
  · rcases i.eq_or_eq_other k with rfl | rfl
    · exact h.honest k e' (by simp [hin, hi ▸ he'])
    · exact h.honest _ e' (hj ▸ he')
  · rcases i.eq_or_eq_other k with rfl | rfl
    · rw [hpj]
      rw [hi, hpi] at hk
      refine h.known k ?_
      rcases hk with hs | ⟨e', he', ht⟩
      · cases hr : e.refused with
        | true => exact .inl (by rwa [receive_refused _ he hr] at hs)
        | false =>
          rcases receive_effective (s.peerState addr k) he hr with ⟨ht, _⟩ | ⟨_, h'⟩ | ⟨_, h'⟩
          · exact .inr ⟨e, by simp [hin], ht, hr⟩
          · rw [h'] at hs
            cases s.peerState addr k <;> simp at hs
          · rw [h'] at hs
            cases s.peerState addr k <;> simp at hs
      · exact .inr ⟨e', by simp [hin, he'], ht⟩
    · rw [hj, hpj] at hk
      have hold := h.known i.other hk
      rw [Side.other_other] at hold ⊢
      rw [hpi]
      exact receive_isSome he hold
  · rw [hsettled, hsettled]
    exact h.agree k

end Act

theorem Pair.Consistent.step {s s' : Pair} {x : PairLabel} (h : s.Consistent addr)
    (hok : NoCrossing addr s x) (hs : s.step addr x = some s') : s'.Consistent addr := by
  cases x with
  | act i op key now saveError =>
    obtain rfl := Option.some.inj hs
    have hdrop : ((s.agent i).step (i.context addr key now saveError,
        op.event (addr i.other))).outbox.drop (s.agent i).outbox.length =
        (op.event (addr i.other)).sent (i.context addr key now saveError)
          (s.agent i).connectionStore := by
      rw [outbox_step, List.drop_left]
    refine h.act i ((op.event (addr i.other)).sent (i.context addr key now saveError)
      (s.agent i).connectionStore) ?_ ?_ ?_ ?_ hok
    · simp [i.other_ne.symm]
    · simp [hdrop]
    · simp [Pair.peerState]
    · simpa [Pair.peerState] using act_case addr (s.agent i) i (addr i.other) op key now saveError
  | deliver i now saveError =>
    unfold Pair.step at hs
    cases hin : s.inbox i with
    | nil => simp [hin] at hs
    | cons e rest =>
      simp only [hin, Option.some.injEq] at hs
      subst hs
      refine h.deliver (i := i) hin ?_ ?_ ?_ ?_
      · simp
      · simp
      · simp [Pair.peerState, stateOf_step, receive, ConnectionEvent.effect]
      · simp [Pair.peerState]

/-- In a run without crossings the two ends agree whenever nothing is under way. -/
theorem active_iff_active {labels : List PairLabel} {s : Pair}
    (h : Run (Pair.step addr) (NoCrossing addr) Pair.initial labels s)
    (hquiet : ∀ i, s.inbox i = []) :
    s.peerState addr .alice = some .active ↔ s.peerState addr .bob = some .active := by
  have hinit : Pair.initial.Consistent addr := by
    refine ⟨fun i e he => ?_, fun i hi => ?_, fun i => ?_⟩
    · simp [Pair.initial] at he
    · simp [Pair.initial, Pair.peerState, Agent.stateOf, Agent.initial,
        ConnectionStore.getConnection] at hi
    · simp [Pair.initial, Pair.settled, Pair.peerState, Agent.stateOf, Agent.initial,
        ConnectionStore.getConnection]
  have hc : s.Consistent addr := h.invariant hinit fun _ _ _ hi hok hs => hi.step hok hs
  simpa [Pair.settled, hquiet, Side.other] using hc.agree .alice

end

def pairAddress : Side → String
  | .alice => "pinch:alice@relay"
  | .bob => "pinch:bob@relay"

def handshake : List PairLabel :=
  [.act .alice (.sendRequest "hello") none 0 none, .deliver .bob 0 none,
   .act .bob .approveRequest none 0 none, .deliver .alice 0 none]

theorem active_iff_active_handshake :
    ∃ s, Run (Pair.step pairAddress) (NoCrossing pairAddress) Pair.initial handshake s ∧
      s.peerState pairAddress .alice = some .active ∧
      (s.peerState pairAddress .alice = some .active ↔
        s.peerState pairAddress .bob = some .active) := by
  have h : (exec (Pair.step pairAddress) (NoCrossing pairAddress) Pair.initial handshake).map
      (fun s => (s.inbox .alice, s.inbox .bob, s.peerState pairAddress .alice)) =
      some ([], [], some .active) := by decide +kernel
  obtain ⟨s, hs, heq⟩ := Option.map_eq_some_iff.mp h
  simp only [Prod.mk.injEq] at heq
  have hrun := Run.of_exec hs
  exact ⟨s, hrun, heq.2.2, active_iff_active hrun fun i => by cases i <;> simp [heq]⟩

def crossing : List PairLabel :=
  [.act .alice (.sendRequest "hello") none 0 none, .deliver .bob 0 none,
   .act .bob .approveRequest none 0 none, .act .alice .revokeConnection none 0 none,
   .deliver .alice 0 none, .deliver .bob 0 none]

theorem crossing_disagrees :
    ∃ s, Run (Pair.step pairAddress) (fun _ _ => True) Pair.initial crossing s ∧
      (∀ i, s.inbox i = []) ∧ s.peerState pairAddress .alice = some .active ∧
      s.peerState pairAddress .bob = some .revoked := by
  have h : (exec (Pair.step pairAddress) (fun _ _ => True) Pair.initial crossing).map
      (fun s => (s.inbox .alice, s.inbox .bob, s.peerState pairAddress .alice,
        s.peerState pairAddress .bob)) =
      some ([], [], some .active, some .revoked) := by decide +kernel
  obtain ⟨s, hs, heq⟩ := Option.map_eq_some_iff.mp h
  simp only [Prod.mk.injEq] at heq
  exact ⟨s, Run.of_exec hs, fun i => by cases i <;> simp [heq], heq.2.2.1, heq.2.2.2⟩

end Pinch
