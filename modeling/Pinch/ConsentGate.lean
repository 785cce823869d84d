import Pinch.ConnectionStep
import Mathlib.Data.List.Induction

/-! Which steps make a connection active. Calls are taken in any order from an
empty store, so a record's past is the list of calls before the step. -/

namespace Pinch

open ConnectionManager

abbrev Call := CallContext × ConnectionEvent

def Agent.stateOf (a : Agent) (p : String) : Option ConnectionState :=
  (a.connectionStore.getConnection p).map (·.state)

def stateAfter (calls : List Call) (p : String) : Option ConnectionState :=
  (Agent.initial.run calls).stateOf p

def RecordEffect.onState (st : Option ConnectionState) : RecordEffect → Option ConnectionState
  | .keep => st
  | .create c => some c.state
  | .update u => st.map (fun s => u.state.getD s)

theorem stateOf_step (a : Agent) (ctx : CallContext) (ev : ConnectionEvent) (p : String) :
    (a.step (ctx, ev)).stateOf p = (ev.effect ctx p (a.stateOf p)).onState (a.stateOf p) := by
  simp only [Agent.stateOf, getConnection_step]
  cases ev.effect ctx p _ with
  | keep => rfl
  | create c => rfl
  | update u =>
    simp [RecordEffect.apply, RecordEffect.onState, ConnectionStore.assign, Function.comp_def]

theorem stateAfter_snoc (calls : List Call) (ctx : CallContext) (ev : ConnectionEvent)
    (p : String) :
    stateAfter (calls ++ [(ctx, ev)]) p =
      (ev.effect ctx p (stateAfter calls p)).onState (stateAfter calls p) := by
  simpa only [stateAfter, Agent.run, List.foldl_append, List.foldl_cons, List.foldl_nil] using
    stateOf_step _ ctx ev p

/-- The record of `p` is blocked, and was in state `st` when the block that still
holds was made. -/
def BlockedFrom (st : ConnectionState) (p : String) (calls : List Call) : Prop :=
  ∃ before ctx since, calls = before ++ (ctx, .blockConnection p) :: since ∧
    stateAfter before p = some st ∧ st ≠ .blocked ∧
    ∀ mid, mid <+: since → stateAfter (before ++ (ctx, .blockConnection p) :: mid) p = some .blocked

/-- The three ways in which a connection may become active. -/
def MayActivate (before : List Call) (ev : ConnectionEvent) (p : String) : Prop :=
  (ev = .approveRequest p ∧ stateAfter before p = some .pendingInbound) ∨
  (∃ e r, ev = .incoming e ∧ e.type = .connectionResponse ∧ e.payload = .connectionResponse r ∧
    r.accepted = true ∧ r.fromAddress = p ∧ stateAfter before p = some .pendingOutbound) ∨
  (ev = .unblockConnection p ∧ BlockedFrom .active p before)

def Consented (calls : List Call) : Prop :=
  ∀ before ctx ev after p, calls = before ++ (ctx, ev) :: after →
    stateAfter before p ≠ some .active → stateAfter (before ++ [(ctx, ev)]) p = some .active →
    MayActivate before ev p

/-- The step is neither an acceptance by a peer whose record is pending inbound,
blocked or revoked, nor an unblocking of a record that is pending, revoked, or
was so when it was blocked. Addresses are meant that no object inherits as names. -/
def GateKept (before : List Call) (ctx : CallContext) (ev : ConnectionEvent) : Prop :=
  (∀ e r, ev = .incoming e → e.type = .connectionResponse → e.payload = .connectionResponse r →
    r.accepted = true → ∀ st, stateAfter before r.fromAddress = some st →
      st ≠ .pendingInbound ∧ st ≠ .blocked ∧ st ≠ .revoked) ∧
  (∀ p, ev = .unblockConnection p → ctx.own.isSome →
    (∀ st, stateAfter before p = some st →
      st ≠ .pendingOutbound ∧ st ≠ .pendingInbound ∧ st ≠ .revoked) ∧
    ∀ st, BlockedFrom st p before → st = .active)

theorem BlockedFrom.blocked {st : ConnectionState} {p : String} {calls : List Call}
    (h : BlockedFrom st p calls) : stateAfter calls p = some .blocked := by
  obtain ⟨before, ctx, since, rfl, _, _, hsince⟩ := h
  exact hsince since (List.prefix_refl _)

theorem becomes_blocked {ctx : CallContext} {ev : ConnectionEvent} {p : String}
    {st : Option ConnectionState} (hne : st ≠ some .blocked)
    (h : (ev.effect ctx p st).onState st = some .blocked) :
    ev = .blockConnection p ∧ st.isSome := by
  have hc := ConnectionEvent.effect_case ctx p st ev
  cases st with
  | none =>
    generalize ev.effect ctx p none = eff at h hc
    cases hc <;> simp [RecordEffect.onState, outboundRecord, inboundRecord] at h
  | some s =>
    generalize ev.effect ctx p (some s) = eff at h hc
    cases hc with
    | keep => exact absurd h hne
    | blockConnection => exact ⟨rfl, rfl⟩
    | response e r =>
      cases hr : r.accepted <;> simp [RecordEffect.onState, responseUpdate_state, hr] at h
    | _ => simp [RecordEffect.onState, outboundRecord, inboundRecord] at h

theorem becomes_active {ctx : CallContext} {ev : ConnectionEvent} {p : String}
    {st : Option ConnectionState} (hne : st ≠ some .active)
    (h : (ev.effect ctx p st).onState st = some .active) :
    (ev = .approveRequest p ∧ st = some .pendingInbound) ∨
    (∃ e r, ev = .incoming e ∧ e.type = .connectionResponse ∧ e.payload = .connectionResponse r ∧
      r.accepted = true ∧ r.fromAddress = p ∧ st.isSome) ∨
    (ev = .unblockConnection p ∧ ctx.own.isSome ∧ st.isSome) := by
  have hc := ConnectionEvent.effect_case ctx p st ev
  cases st with
  | none =>
    generalize ev.effect ctx p none = eff at h hc
    cases hc <;> simp [RecordEffect.onState, outboundRecord, inboundRecord] at h
  | some s =>
    generalize ev.effect ctx p (some s) = eff at h hc
    cases hc with
    | keep => exact absurd h hne
    | approveRequest hs => exact .inl ⟨rfl, hs⟩
    | unblockConnection ho => exact .inr (.inr ⟨rfl, ho, rfl⟩)
    | response e r ht hp hq =>
      cases hr : r.accepted with
      | false => simp [RecordEffect.onState, responseUpdate_state, hr] at h
      | true => exact .inr (.inl ⟨e, r, rfl, ht, hp, hr, hq, rfl⟩)
    | _ => simp [RecordEffect.onState, outboundRecord, inboundRecord] at h

theorem activates_of_response {before : List Call} {ctx : CallContext} {e : Envelope}
    {r : ConnectionResponse} {st : ConnectionState} (ht : e.type = .connectionResponse)
    (hp : e.payload = .connectionResponse r) (hr : r.accepted = true)
    (hs : stateAfter before r.fromAddress = some st) :
    stateAfter (before ++ [(ctx, .incoming e)]) r.fromAddress = some .active := by
  rw [stateAfter_snoc, hs]
  simp [ConnectionEvent.effect, incomingEffect, ht, hp, responseUpdate, hr, RecordEffect.onState]

theorem activates_of_unblock {before : List Call} {ctx : CallContext} {p : String}
    {st : ConnectionState} (ho : ctx.own.isSome) (hs : stateAfter before p = some st) :
    stateAfter (before ++ [(ctx, .unblockConnection p)]) p = some .active := by
  rw [stateAfter_snoc, hs]
  simp [ConnectionEvent.effect, ho, RecordEffect.onState]

theorem exists_blockedFrom {calls : List Call} {p : String}
    (h : stateAfter calls p = some .blocked) : ∃ st, BlockedFrom st p calls := by
  induction calls using List.reverseRecOn with
  | nil =>
    simp [stateAfter, Agent.run, Agent.initial, Agent.stateOf, ConnectionStore.getConnection] at h
  | append_singleton calls call ih =>
    obtain ⟨ctx, ev⟩ := call
    by_cases hb : stateAfter calls p = some .blocked
    · obtain ⟨st, before, ctx', since, rfl, hst, hne, hsince⟩ := ih hb
      refine ⟨st, before, ctx', since ++ [(ctx, ev)], by simp, hst, hne, ?_⟩
      intro mid hmid
      rcases List.prefix_concat_iff.mp hmid with rfl | hmid
      · simpa using h
      · exact hsince mid hmid
    · have hk := stateAfter_snoc calls ctx ev p
      rw [h] at hk
      obtain ⟨rfl, hs⟩ := becomes_blocked hb hk.symm
      obtain ⟨st, hst⟩ := Option.isSome_iff_exists.mp hs
      refine ⟨st, calls, ctx, [], rfl, hst, fun he => hb (by rw [hst, he]), ?_⟩
      intro mid hmid
      rw [List.prefix_nil.mp hmid]
      exact h

theorem prefix_cases {α : Type*} {l₁ l₂ t₁ t₂ : List α} {x₁ x₂ : α}
    (h : l₁ ++ x₁ :: t₁ = l₂ ++ x₂ :: t₂) :
    (l₁ = l₂ ∧ x₁ = x₂) ∨ (∃ mid, mid <+: t₁ ∧ l₂ = l₁ ++ x₁ :: mid) ∨
      ∃ mid, mid <+: t₂ ∧ l₁ = l₂ ++ x₂ :: mid := by
  rcases List.append_eq_append_iff.mp h with ⟨a, rfl, ha⟩ | ⟨a, rfl, ha⟩
  · cases a with
    | nil => exact .inl ⟨by simp, by simpa using (List.cons.inj ha).1⟩
    | cons y a =>
      obtain ⟨rfl, rfl⟩ := List.cons.inj ha
      exact .inr (.inl ⟨a, List.prefix_append _ _, rfl⟩)
  · cases a with
    | nil => exact .inl ⟨by simp, by simpa using (List.cons.inj ha).1.symm⟩
    | cons y a =>
      obtain ⟨rfl, rfl⟩ := List.cons.inj ha
      exact .inr (.inr ⟨a, List.prefix_append _ _, rfl⟩)

theorem BlockedFrom.unique {st st' : ConnectionState} {p : String} {calls : List Call}
    (h : BlockedFrom st p calls) (h' : BlockedFrom st' p calls) : st = st' := by
  obtain ⟨before, ctx, since, rfl, hst, hne, hsince⟩ := h
  obtain ⟨before', ctx', since', he, hst', hne', hsince'⟩ := h'
  rcases prefix_cases he with ⟨rfl, _⟩ | ⟨mid, hmid, rfl⟩ | ⟨mid, hmid, rfl⟩
  · exact Option.some.inj (hst.symm.trans hst')
  · exact absurd (Option.some.inj (hst'.symm.trans (hsince mid hmid))) hne'
  · exact absurd (Option.some.inj (hst.symm.trans (hsince' mid hmid))) hne

theorem gateKept_of_mayActivate {before : List Call} {ctx : CallContext} {ev : ConnectionEvent}
    (h : ∀ p, stateAfter before p ≠ some .active →
      stateAfter (before ++ [(ctx, ev)]) p = some .active → MayActivate before ev p) :
    GateKept before ctx ev := by
  constructor
  · rintro e r rfl ht hp hr st hs
    by_contra hst
    have hne : stateAfter before r.fromAddress ≠ some .active := by
      rw [hs]
      rintro ⟨⟩
      exact hst (by simp)
    rcases h r.fromAddress hne (activates_of_response ht hp hr hs) with
      ⟨hc, _⟩ | ⟨_, _, _, _, _, _, _, hs'⟩ | ⟨hc, _⟩
    · simp at hc
    · rw [hs] at hs'
      cases hs'
      exact hst (by simp)
    · simp at hc
  · rintro p rfl ho
    have key : ∀ st, stateAfter before p = some st → st ≠ .active →
        BlockedFrom .active p before := by
      intro st hs hst
      rcases h p (by rw [hs]; simpa using hst) (activates_of_unblock ho hs) with
        ⟨hc, _⟩ | ⟨_, _, hc, _⟩ | ⟨_, hb⟩
      · simp at hc
      · simp at hc
      · exact hb
    constructor
    · intro st hs
      by_contra hst
      have hb := (key st hs (by rintro rfl; exact hst (by simp))).blocked
      rw [hs] at hb
      cases hb
      exact hst (by simp)
    · intro st hb
      exact hb.unique (key .blocked hb.blocked (by simp))

theorem GateKept.mayActivate {before : List Call} {ctx : CallContext} {ev : ConnectionEvent}
    {p : String} (h : GateKept before ctx ev) (hne : stateAfter before p ≠ some .active)
    (hact : stateAfter (before ++ [(ctx, ev)]) p = some .active) : MayActivate before ev p := by
  obtain ⟨hresp, hunblock⟩ := h
  rw [stateAfter_snoc] at hact
  rcases becomes_active hne hact with ⟨rfl, hs⟩ | ⟨e, r, rfl, ht, hp, hr, rfl, hs⟩ | ⟨rfl, ho, hs⟩
  · exact .inl ⟨rfl, hs⟩
  · obtain ⟨st, hst⟩ := Option.isSome_iff_exists.mp hs
    obtain ⟨hpi, hbl, hre⟩ := hresp e r rfl ht hp hr st hst
    refine .inr (.inl ⟨e, r, rfl, ht, hp, hr, rfl, ?_⟩)
    cases st with
    | pendingOutbound => exact hst
    | active => exact absurd hst hne
    | pendingInbound => exact absurd rfl hpi
    | blocked => exact absurd rfl hbl
    | revoked => exact absurd rfl hre
  · obtain ⟨st, hst⟩ := Option.isSome_iff_exists.mp hs
    obtain ⟨hpo, hpi, hre⟩ := (hunblock p rfl ho).1 st hst
    have hb : stateAfter before p = some .blocked := by
      cases st with
      | blocked => exact hst
      | active => exact absurd hst hne
      | pendingOutbound => exact absurd rfl hpo
      | pendingInbound => exact absurd rfl hpi
      | revoked => exact absurd rfl hre
    obtain ⟨st', hb'⟩ := exists_blockedFrom hb
    have ha := (hunblock p rfl ho).2 st' hb'
    exact .inr (.inr ⟨rfl, ha ▸ hb'⟩)

/-- The consent gate, exactly: a history makes records active only in the three
consented ways if and only if each of its steps keeps the gate. -/
theorem consented_iff_gateKept (calls : List Call) :
    Consented calls ↔
      ∀ before ctx ev after, calls = before ++ (ctx, ev) :: after → GateKept before ctx ev := by
  constructor
  · intro h before ctx ev after he
    exact gateKept_of_mayActivate fun p => h before ctx ev after p he
  · intro h before ctx ev after p he hne hact
    exact (h before ctx ev after he).mayActivate hne hact

def aliceContext : CallContext where
  assignedAddress := some "pinch:alice@relay.example"
  connected := true
  publicKey := none
  now := 1700000000000
  saveError := none

def malloryRequest : Envelope where
  type := .connectionRequest
  payload := .connectionRequest ⟨"pinch:mallory@relay.example", "pinch:alice@relay.example", "hi", [], 0⟩

def malloryAcceptance : Envelope where
  type := .connectionResponse
  payload := .connectionResponse ⟨"pinch:mallory@relay.example", "pinch:alice@relay.example", true, []⟩

def acceptanceAfterRejection : List Call :=
  [(aliceContext, .incoming malloryRequest),
   (aliceContext, .rejectRequest "pinch:mallory@relay.example"),
   (aliceContext, .incoming malloryAcceptance)]

theorem not_consented_acceptanceAfterRejection : ¬ Consented acceptanceAfterRejection := by
  intro h
  have hrev : stateAfter (acceptanceAfterRejection.take 2) "pinch:mallory@relay.example" =
      some .revoked := by decide
  have hact : stateAfter (acceptanceAfterRejection.take 2 ++
      [(aliceContext, .incoming malloryAcceptance)]) "pinch:mallory@relay.example" =
      some .active := by decide
  rcases h (acceptanceAfterRejection.take 2) aliceContext (.incoming malloryAcceptance) []
    "pinch:mallory@relay.example" rfl (by rw [hrev]; simp) hact with
    ⟨hc, _⟩ | ⟨_, _, _, _, _, _, _, hs⟩ | ⟨hc, _⟩
  · simp at hc
  · simp [hrev] at hs
  · simp at hc

end Pinch
