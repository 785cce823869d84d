import Pinch.Rejections
import Pinch.SameMessage
import Pinch.Tools

/-! The calls of an agent's owner that fail. A call that throws before its first write leaves
everything as it was; what is behind the first write must not throw. -/

namespace Pinch

open ConnectionManager MessageManager Transition

/-- The calls of the two managers that are made locally. -/
inductive Operation
  | sendRequest (toAddress message : String)
  | approveRequest (peerAddress : String)
  | rejectRequest (peerAddress : String)
  | blockConnection (peerAddress : String)
  | unblockConnection (peerAddress : String)
  | revokeConnection (peerAddress : String)
  | sendMessage (params : SendMessageParams)

namespace Operation

def perform (setup : SendSetup) (ctx : SendContext) : Operation → SenderOp Unit
  | .sendRequest toAddress message =>
    Sender.onAgent (ConnectionManager.sendRequest ctx.toCallContext toAddress message)
  | .approveRequest p => Sender.onAgent (ConnectionManager.approveRequest ctx.toCallContext p)
  | .rejectRequest p => Sender.onAgent (ConnectionManager.rejectRequest ctx.toCallContext p)
  | .blockConnection p => Sender.onAgent (ConnectionManager.blockConnection ctx.toCallContext p)
  | .unblockConnection p => Sender.onAgent (ConnectionManager.unblockConnection ctx.toCallContext p)
  | .revokeConnection p => Sender.onAgent (ConnectionManager.revokeConnection ctx.toCallContext p)
  | .sendMessage params => discard (MessageManager.sendMessage setup ctx params)

end Operation

/-- The number that `nextSequence` gives. -/
def Sender.taken (s : Sender) (connectionAddress : String) : Nat :=
  toDouble (toDouble ((s.sequences.lookup connectionAddress).getD 1 + 1) - 1)

/-- The call gets as far as writing the row: the peer is connected and its key known, the message
can be sealed and encoded and is not too large, and its id is new. -/
def MessageManager.Stores (setup : SendSetup) (ctx : SendContext) (params : SendMessageParams)
    (s : Sender) : Prop :=
  ∃ connection peerKey ciphertext fromAddress envelopeBytes,
    s.connectionStore.getConnection params.recipient = some connection ∧
    connection.state = .active ∧
    s.connectionStore.getPeerPublicKey setup.lib.sha256 params.recipient = some peerKey ∧
    Sealed setup ctx params peerKey (resolveThread ctx params s.messageStore)
      (s.taken params.recipient) ciphertext ∧
    ctx.own = some fromAddress ∧
    setup.lib.envelopeToBinary
      (messageEnvelope setup ctx params fromAddress (ctx.nonce ++ ciphertext)) =
        some envelopeBytes ∧
    envelopeBytes.length ≤ maxEnvelopeSize ∧ ctx.messageId ∉ s.messageStore.ids

/-- Nothing behind the first write of the call throws, or what is written was there. -/
def Operation.Safe (setup : SendSetup) (ctx : SendContext) (s : Sender) : Operation → Prop
  | .sendRequest _ message => utf16Length message ≤ 280 → ctx.own.isSome = true →
      ctx.connected = true →
      (toISOString (requestExpiry ctx.now * 1000)).isSome = true ∧ ctx.saveError = none
  | .approveRequest p =>
      (s.connectionStore.getConnection p).map (·.state) = some .pendingInbound →
      ctx.own.isSome = true → ctx.connected = true → ctx.saveError = none
  | .rejectRequest p =>
      (s.connectionStore.getConnection p).map (·.state) = some .pendingInbound →
      ctx.saveError = none
  | .blockConnection p => SafeUpdate p .blocked
  | .unblockConnection p => SafeUpdate p .active
  | .revokeConnection p => ctx.own.isSome = true → ctx.connected = true →
      (s.connectionStore.getConnection p).isSome = true ∧ ctx.saveError = none
  | .sendMessage params => Stores setup ctx params s → ctx.connected = true
where
  /-- A record that is to be blocked or unblocked is written first and sent then. -/
  SafeUpdate (p : String) (state : ConnectionState) : Prop :=
    ctx.own.isSome = true → ∀ c, s.connectionStore.getConnection p = some c →
      if ctx.connected then ctx.saveError = none
      else c.state = state ∧ c.lastActivity = isoString ctx.now

/-! ### The connection manager -/

/-- The records and the envelopes that were handed over are the same. -/
def Agent.Alike (a b : Agent) : Prop :=
  (∀ p, b.connectionStore.getConnection p = a.connectionStore.getConnection p) ∧
    b.outbox = a.outbox

section Connections

variable {ctx : CallContext} {a : Agent} {P : Agent → Prop} {f : Unit → Op Unit}

theorem Agent.alike_refl (a : Agent) : a.Alike a := ⟨fun _ => rfl, rfl⟩

theorem Agent.not_alike {b : Agent} {e : Envelope} (h : b.outbox = a.outbox ++ [e]) :
    ¬ a.Alike b := by
  intro halike
  rw [halike.2] at h
  simp at h

theorem failsOnly_save : FailsOnly (save ctx) a P ↔ (ctx.saveError ≠ none → P a) := by
  unfold save
  cases ctx.saveError with
  | none => exact iff_of_true (failsOnly_of_run rfl) (by simp)
  | some e => exact (failsOnly_of_error rfl).trans (by simp)

theorem failsOnly_own {f : String → Op Unit} (hP : P a) :
    FailsOnly (ownAddress ctx >>= f) a P ↔ ∀ own, ctx.own = some own → FailsOnly (f own) a P := by
  have hrun := ownAddress_run ctx a
  cases hown : ctx.own with
  | none =>
    rw [hown] at hrun
    exact iff_of_true ((failsOnly_bind_of_error hrun).2 hP) (by simp)
  | some own =>
    rw [hown] at hrun
    rw [failsOnly_bind_of_run hrun]
    simp

theorem failsOnly_send (e : Envelope) : FailsOnly (ConnectionManager.sendEnvelope ctx e >>= f) a P ↔
    if ctx.connected then FailsOnly (f ()) (a.sending e) P else P a := by
  have hrun := sendEnvelope_run ctx a e
  split
  · rename_i hconnected
    rw [if_pos hconnected] at hrun
    exact failsOnly_bind_of_run hrun
  · rename_i hconnected
    rw [if_neg hconnected] at hrun
    exact failsOnly_bind_of_error hrun

theorem failsOnly_pendingInbound (verb p : String) (hP : P a) :
    FailsOnly (requirePendingInbound verb p >>= f) a P ↔
      ((a.connectionStore.getConnection p).map (·.state) = some .pendingInbound →
        FailsOnly (f ()) a P) := by
  have hget : (ConnectionManager.getConnection p).run a =
      .ok (a.connectionStore.getConnection p) a := rfl
  unfold requirePendingInbound
  rw [bind_assoc, failsOnly_bind_of_run hget]
  cases hc : a.connectionStore.getConnection p with
  | none => exact iff_of_true ((failsOnly_bind_of_error rfl).2 hP) (by simp)
  | some c =>
    by_cases hstate : c.state = .pendingInbound
    · rw [Option.map_some, hstate, imp_iff_right rfl]
      dsimp only
      rw [if_neg (not_not.2 hstate)]
      exact failsOnly_bind_of_run rfl
    · have hthrow : (if c.state ≠ .pendingInbound then throw ("Cannot " ++ verb ++
          " connection in state: " ++ c.state.name) else pure () : Op Unit).run a =
          .error ("Cannot " ++ verb ++ " connection in state: " ++ c.state.name) a := by
        rw [if_pos hstate]
        rfl
      exact iff_of_true ((failsOnly_bind_of_error hthrow).2 hP) (by simp [hstate])

theorem failsOnly_update (p : String) (u : ConnectionUpdates) :
    FailsOnly (ConnectionManager.updateConnection ctx p u >>= f) a P ↔
      if (a.connectionStore.getConnection p).isSome then
        FailsOnly (f ()) (a.updated ctx.now p u) P
      else P a := by
  have hrun := updateConnection_run ctx a p u
  unfold Agent.updated
  cases hc : a.connectionStore.getConnection p with
  | none =>
    rw [hc] at hrun
    exact failsOnly_bind_of_error hrun
  | some c =>
    rw [hc] at hrun
    exact failsOnly_bind_of_run hrun

theorem failsOnly_sendRequest (toAddress message : String) :
    FailsOnly (ConnectionManager.sendRequest ctx toAddress message) a a.Alike ↔
      (utf16Length message ≤ 280 → ctx.own.isSome = true → ctx.connected = true →
        (toISOString (requestExpiry ctx.now * 1000)).isSome = true ∧ ctx.saveError = none) := by
  unfold ConnectionManager.sendRequest
  split
  · rename_i hlength
    exact iff_of_true ((failsOnly_of_error rfl).2 a.alike_refl) fun h => absurd hlength (not_lt.2 h)
  · rename_i hlength
    have hshort : utf16Length message ≤ 280 := not_lt.1 hlength
    rw [imp_iff_right hshort]
    refine (failsOnly_own a.alike_refl).trans ?_
    cases hown : ctx.own with
    | none => simp
    | some own =>
      simp only [Option.some.injEq, forall_eq', failsOnly_send, Option.isSome_some, true_imp_iff]
      by_cases hconnected : ctx.connected = true
      · rw [if_pos hconnected, imp_iff_right hconnected]
        have hiso := isoOrThrow_run (a.sending (requestEnvelope own toAddress message
          (ctx.publicKey.getD []) (requestExpiry ctx.now))) (requestExpiry ctx.now * 1000)
        cases hdate : toISOString (requestExpiry ctx.now * 1000) with
        | none =>
          rw [hdate] at hiso
          exact iff_of_false (mt (failsOnly_bind_of_error hiso).1 (Agent.not_alike rfl)) (by simp)
        | some expiry =>
          rw [hdate] at hiso
          have hadd := addConnection_run ctx (a.sending (requestEnvelope own toAddress message
            (ctx.publicKey.getD []) (requestExpiry ctx.now))) (outboundRecord toAddress message expiry)
          rw [if_neg (show ¬ 280 < utf16Length
            ((outboundRecord toAddress message expiry).shortMessage.getD "") from hlength)] at hadd
          refine (failsOnly_bind_of_run hiso).trans ((failsOnly_bind_of_run hadd).trans ?_)
          rw [failsOnly_save, imp_iff_not (Agent.not_alike rfl)]
          simp
      · simp [hconnected, a.alike_refl]

theorem failsOnly_approveRequest (p : String) :
    FailsOnly (ConnectionManager.approveRequest ctx p) a a.Alike ↔
      ((a.connectionStore.getConnection p).map (·.state) = some .pendingInbound →
        ctx.own.isSome = true → ctx.connected = true → ctx.saveError = none) := by
  refine (failsOnly_pendingInbound "approve" p a.alike_refl).trans (imp_congr_right fun hp => ?_)
  have hknown : (a.connectionStore.getConnection p).isSome = true := by
    obtain ⟨c, hc, -⟩ := Option.map_eq_some_iff.1 hp
    simp [hc]
  refine (failsOnly_own a.alike_refl).trans ?_
  cases hown : ctx.own with
  | none => simp
  | some own =>
    simp only [Option.some.injEq, forall_eq', failsOnly_send, Option.isSome_some, true_imp_iff]
    by_cases hconnected : ctx.connected = true
    · rw [if_pos hconnected, imp_iff_right hconnected, failsOnly_update]
      rw [if_pos (show ((a.sending _).connectionStore.getConnection p).isSome = true from hknown)]
      rw [failsOnly_save, imp_iff_not (Agent.not_alike (Agent.updated_outbox _ _ _ _)), not_not]
    · simp [hconnected, a.alike_refl]

/-- A record is as it was if its state and the time of its last activity are. -/
theorem assign_state_eq_self {c : Connection} {state : ConnectionState} {now : Int} :
    ConnectionStore.assign c { state := some state } now = c ↔
      c.state = state ∧ c.lastActivity = isoString now := by
  constructor
  · intro h
    rw [← h]
    exact ⟨rfl, rfl⟩
  · rintro ⟨rfl, hlast⟩
    simp [ConnectionStore.assign, ← hlast]

theorem alike_updated {p : String} {u : ConnectionUpdates} {now : Int} {c : Connection}
    (hc : a.connectionStore.getConnection p = some c) :
    a.Alike (a.updated now p u) ↔ ConnectionStore.assign c u now = c := by
  constructor
  · rintro ⟨hsame, -⟩
    have hp := hsame p
    rw [Agent.getConnection_updated, if_pos rfl, hc] at hp
    exact Option.some.inj hp
  · intro h
    refine ⟨fun q => ?_, Agent.updated_outbox _ _ _ _⟩
    rw [Agent.getConnection_updated]
    split
    · rename_i hq
      rw [← hq, hc, Option.map_some, h]
    · rfl

theorem failsOnly_rejectRequest (p : String) :
    FailsOnly (ConnectionManager.rejectRequest ctx p) a a.Alike ↔
      ((a.connectionStore.getConnection p).map (·.state) = some .pendingInbound →
        ctx.saveError = none) := by
  refine (failsOnly_pendingInbound "reject" p a.alike_refl).trans (imp_congr_right fun hp => ?_)
  obtain ⟨c, hc, hstate⟩ := Option.map_eq_some_iff.1 hp
  have hchanged : ¬ a.Alike (a.updated ctx.now p { state := some .revoked }) := by
    rw [alike_updated hc, assign_state_eq_self, hstate]
    simp
  rw [failsOnly_update, hc, Option.isSome_some, if_pos rfl, failsOnly_save, imp_iff_not hchanged,
    not_not]

theorem failsOnly_setBlocked (p : String) (state : ConnectionState)
    (notification : String → String → Envelope) :
    FailsOnly (setBlocked ctx p state notification) a a.Alike ↔
      (ctx.own.isSome = true → ∀ c, a.connectionStore.getConnection p = some c →
        if ctx.connected then ctx.saveError = none
        else c.state = state ∧ c.lastActivity = isoString ctx.now) := by
  refine (failsOnly_own a.alike_refl).trans ?_
  cases hown : ctx.own with
  | none => simp
  | some own =>
    simp only [Option.some.injEq, forall_eq', failsOnly_update, Option.isSome_some, true_imp_iff]
    cases hc : a.connectionStore.getConnection p with
    | none => simp [a.alike_refl]
    | some c =>
      simp only [Option.isSome_some, if_true, Option.some.injEq, forall_eq', failsOnly_send]
      split
      · have houtbox : ((a.updated ctx.now p { state := some state }).sending
            (notification own p)).outbox = a.outbox ++ [notification own p] :=
          congrArg (· ++ [notification own p]) (Agent.updated_outbox _ _ _ _)
        rw [failsOnly_save, imp_iff_not (Agent.not_alike houtbox), not_not]
      · rw [alike_updated hc, assign_state_eq_self]

theorem failsOnly_revokeConnection (p : String) :
    FailsOnly (ConnectionManager.revokeConnection ctx p) a a.Alike ↔
      (ctx.own.isSome = true → ctx.connected = true →
        (a.connectionStore.getConnection p).isSome = true ∧ ctx.saveError = none) := by
  refine (failsOnly_own a.alike_refl).trans ?_
  cases hown : ctx.own with
  | none => simp
  | some own =>
    simp only [Option.some.injEq, forall_eq', failsOnly_send, Option.isSome_some, true_imp_iff]
    by_cases hconnected : ctx.connected = true
    · rw [if_pos hconnected, imp_iff_right hconnected, failsOnly_update]
      have hstore : (a.sending (revokeEnvelope own p)).connectionStore = a.connectionStore := rfl
      rw [hstore]
      cases hc : a.connectionStore.getConnection p with
      | none => exact iff_of_false (Agent.not_alike rfl) (by simp)
      | some c =>
        simp only [Option.isSome_some, if_true, true_and]
        rw [failsOnly_save, imp_iff_not (Agent.not_alike (Agent.updated_outbox _ _ _ _)), not_not]
    · simp [hconnected, a.alike_refl]

end Connections

/-! ### The message manager -/

section Messages

variable {n : Node} {α : Type}

theorem Sender.onNode_ok {x : NodeOp α} {s : Sender} {a : α} (h : x.run s.toNode = .ok a n) :
    (Sender.onNode x).run s = .ok a { s with toNode := n } := by
  simp only [Sender.onNode, EStateM.run] at h ⊢
  rw [h]

theorem Sender.onNode_error {x : NodeOp α} {s : Sender} {e : String}
    (h : x.run s.toNode = .error e n) :
    (Sender.onNode x).run s = .error e { s with toNode := n } := by
  simp only [Sender.onNode, EStateM.run] at h ⊢
  rw [h]

theorem saveMessage_spec (message : MessageRecord) :
    Spec (fun m => m = n) (Node.saveMessage message)
      (fun _ m => ∃ store, n.messageStore.saveMessage message = .ok store ∧
        m = { n with messageStore := store }) (fun _ m => m = n) := by
  refine Spec.get_bind fun m => ?_
  split
  · rename_i store hstore
    refine Spec.modify ?_
    rintro _ ⟨rfl, rfl⟩
    exact ⟨store, hstore, rfl⟩
  · exact Spec.throw fun _ h => h.2

/-- A message has been stored and its envelope handed to the relay connection. -/
def HandsOver (n n' : Node) : Prop :=
  ∃ message store envelope, n.messageStore.saveMessage message = .ok store ∧
    n' = { n with messageStore := store, outbox := n.outbox ++ [envelope] } ∧
    envelope.type = .message ∧ envelope.messageId = textEncode message.id ∧
    envelope.toAddress = message.connectionAddress

theorem handsOver_of_ok {setup : SendSetup} {ctx : SendContext} {params : SendMessageParams}
    {s t : Sender} {id : String}
    (h : (MessageManager.sendMessage setup ctx params).run s = .ok id t) :
    HandsOver s.toNode t.toNode := by
  obtain ⟨-, peerKey, threadId, sequence, fromAddress, ciphertext, hsent⟩ := sendMessage_ok h
  obtain ⟨store, hstore, hnode⟩ := hsent.node
  exact ⟨_, store, _, hstore, hnode, rfl, rfl, rfl⟩

/-- The records, the rows and the envelopes that were handed over are the same. -/
def Sender.Alike (s t : Sender) : Prop :=
  s.toAgent.Alike t.toAgent ∧ t.messageStore = s.messageStore

section Trace

variable {setup : SendSetup} {ctx : SendContext} {params : SendMessageParams} {s : Sender}
  {P : Sender → Prop} {β : Type}

theorem failsOnly_orThrow {error : String} {o : Option α} {f : α → SenderOp β} (hP : P s) :
    FailsOnly (Sender.orThrow error o >>= f) s P ↔ ∀ a, o = some a → FailsOnly (f a) s P := by
  cases o with
  | none => exact iff_of_true ((failsOnly_bind_of_error rfl).2 hP) (by simp)
  | some a =>
    refine (failsOnly_bind_of_run rfl).trans ?_
    simp

theorem failsOnly_seal {peerKey : Bytes} {threadId : String} {sequence : Nat}
    {f : Bytes → SenderOp β} (hP : P s) :
    FailsOnly (sealMessage setup ctx params peerKey threadId sequence >>= f) s P ↔
      ∀ ciphertext, Sealed setup ctx params peerKey threadId sequence ciphertext →
        FailsOnly (f (ctx.nonce ++ ciphertext)) s P := by
  simp only [sealMessage, bind_assoc, failsOnly_orThrow hP, encrypt, Option.map_eq_some_iff, Sealed]
  constructor
  · rintro h ciphertext ⟨wrapped, plaintext, x, y, hw, hp, hx, hy, hbox⟩
    exact h wrapped hw plaintext hp x hx y hy _ ⟨ciphertext, hbox, rfl⟩
  · rintro h wrapped hw plaintext hp x hx y hy _ ⟨ciphertext, hbox, rfl⟩
    exact h ciphertext ⟨wrapped, plaintext, x, y, hw, hp, hx, hy, hbox⟩

/-- The row is written first, the envelope handed over then. -/
theorem failsOnly_store_send {message : MessageRecord} {envelope : Envelope} {t : Sender}
    (hnode : t.toNode = s.toNode) :
    FailsOnly (do
      Sender.onNode (Node.saveMessage message)
      Sender.onNode (MessageManager.sendEnvelope ctx.toCallContext envelope)
      return ctx.messageId : SenderOp String) t s.Alike ↔
      (message.id ∉ s.messageStore.ids → ctx.connected = true) := by
  have halike : s.Alike t := ⟨by rw [hnode]; exact s.toAgent.alike_refl, by rw [hnode]⟩
  by_cases hid : message.id ∈ s.messageStore.ids
  · have hsave : t.messageStore.saveMessage message =
        .error "UNIQUE constraint failed: messages.id" := by
      rw [hnode]
      exact dif_pos hid
    have hrun : (Node.saveMessage message).run t.toNode =
        .error "UNIQUE constraint failed: messages.id" t.toNode := by
      simp [Node.saveMessage, hsave]
    refine iff_of_true ((failsOnly_bind_of_error (Sender.onNode_error hrun)).2 ?_) (absurd hid)
    exact halike
  · obtain ⟨store, hstore⟩ : ∃ store, s.messageStore.saveMessage message = .ok store :=
      ⟨_, dif_neg hid⟩
    have hrun : (Node.saveMessage message).run t.toNode =
        .ok () { t.toNode with messageStore := store } := by
      rw [← hnode] at hstore
      simp [Node.saveMessage, hstore]
    rw [imp_iff_right hid]
    refine (failsOnly_bind_of_run (Sender.onNode_ok hrun)).trans ?_
    by_cases hconnected : ctx.connected = true
    · have hsend : (MessageManager.sendEnvelope ctx.toCallContext envelope).run
          { t.toNode with messageStore := store } = .ok () { t.toNode with
            messageStore := store
            outbox := t.outbox ++ [envelope] } := by
        rw [MessageManager.sendEnvelope, if_pos hconnected]
        rfl
      refine iff_of_true ((failsOnly_bind_of_run (Sender.onNode_ok hsend)).2 ?_) hconnected
      exact failsOnly_of_run rfl
    · have hsend : (MessageManager.sendEnvelope ctx.toCallContext envelope).run
          { t.toNode with messageStore := store } =
            .error "not connected" { t.toNode with messageStore := store } := by
        rw [MessageManager.sendEnvelope, if_neg hconnected]
        rfl
      refine iff_of_false (mt (failsOnly_bind_of_error (Sender.onNode_error hsend)).1 ?_) hconnected
      rintro ⟨-, hsame⟩
      obtain rfl : store = s.messageStore := hsame
      obtain ⟨hnone, hall⟩ := MessageStore.getMessage_saveMessage hstore
      cases hnone.symm.trans ((hall message.id).trans (if_pos rfl))

theorem failsOnly_sendMessage :
    FailsOnly (MessageManager.sendMessage setup ctx params) s s.Alike ↔
      (Stores setup ctx params s → ctx.connected = true) := by
  have halike : s.Alike s := ⟨s.toAgent.alike_refl, rfl⟩
  obtain ⟨t, hnext, hnode⟩ : ∃ t, (Sender.nextSequence params.recipient).run s =
      .ok (s.taken params.recipient) t ∧ t.toNode = s.toNode := ⟨_, rfl, rfl⟩
  have halike' : s.Alike t := ⟨by rw [hnode]; exact s.toAgent.alike_refl, by rw [hnode]⟩
  have hget : (get : SenderOp Sender).run s = .ok s s := rfl
  refine (failsOnly_bind_of_run hget).trans ((failsOnly_orThrow halike).trans ?_)
  constructor
  · rintro h ⟨connection, peerKey, ciphertext, fromAddress, bytes, hc, hactive, hkey, hsealed, hown,
      hbytes, hsize, hid⟩
    have h := (failsOnly_orThrow halike).1 (h connection (by simp [hc, hactive])) peerKey hkey
    have h := (failsOnly_seal halike').1 ((failsOnly_bind_of_run hnext).1 h) ciphertext hsealed
    have h := (failsOnly_orThrow halike').1 h fromAddress hown
    have h := (failsOnly_orThrow halike').1 h bytes hbytes
    rw [if_neg (not_lt.2 hsize)] at h
    exact (failsOnly_store_send hnode).1 h hid
  · intro h connection hconnection
    obtain ⟨hc, hactive⟩ := Option.filter_eq_some_iff.1 hconnection
    refine (failsOnly_orThrow halike).2 fun peerKey hkey => ?_
    refine (failsOnly_bind_of_run hnext).2 ((failsOnly_seal halike').2 fun ciphertext hsealed => ?_)
    refine (failsOnly_orThrow halike').2 fun fromAddress hown => ?_
    refine (failsOnly_orThrow halike').2 fun bytes hbytes => ?_
    split
    · exact (failsOnly_of_error rfl).2 halike'
    · rename_i hsize
      refine (failsOnly_store_send hnode).2 fun hid => h ?_
      exact ⟨connection, peerKey, ciphertext, fromAddress, bytes, hc, by simpa using hactive, hkey,
        hsealed, hown, hbytes, not_lt.1 hsize, hid⟩

theorem run_discard {x : SenderOp β} :
    (discard x).run s = (x >>= fun _ => pure () : SenderOp Unit).run s := rfl

theorem failsOnly_discard {x : SenderOp β} : FailsOnly (discard x) s P ↔ FailsOnly x s P := by
  have hbind : FailsOnly (x >>= fun _ => pure () : SenderOp Unit) s P ↔ FailsOnly x s P := by
    cases hx : x.run s with
    | ok b t =>
      exact iff_of_true ((failsOnly_bind_of_run hx).2 (failsOnly_of_run rfl)) (failsOnly_of_run hx)
    | error e t => rw [failsOnly_bind_of_error hx, failsOnly_of_error hx]
  unfold FailsOnly at hbind ⊢
  rwa [run_discard]

theorem finalState_discard {x : SenderOp β} :
    finalState ((discard x).run s) = finalState (x.run s) := by
  rw [run_discard, EStateM.run_bind]
  cases x.run s <;> rfl

end Trace

end Messages

/-- A call leaves everything as it was where it fails, exactly if it is safe. -/
theorem Operation.failsOnly_iff (setup : SendSetup) (ctx : SendContext) (s : Sender)
    (op : Operation) : FailsOnly (op.perform setup ctx) s s.Alike ↔ op.Safe setup ctx s := by
  have hagent {x : Op Unit} : FailsOnly (Sender.onAgent x) s s.Alike ↔
      FailsOnly x s.toAgent s.toAgent.Alike := by
    refine failsOnly_zoom.trans (forall₃_congr fun e b _ => ?_)
    exact and_iff_left rfl
  cases op with
  | sendRequest toAddress message => exact hagent.trans (failsOnly_sendRequest toAddress message)
  | approveRequest p => exact hagent.trans (failsOnly_approveRequest p)
  | rejectRequest p => exact hagent.trans (failsOnly_rejectRequest p)
  | blockConnection p => exact hagent.trans (failsOnly_setBlocked p .blocked _)
  | unblockConnection p => exact hagent.trans (failsOnly_setBlocked p .active _)
  | revokeConnection p => exact hagent.trans (failsOnly_revokeConnection p)
  | sendMessage params => exact failsOnly_discard.trans failsOnly_sendMessage

/-! ### Sent rows -/

/-- Every outbound row has its envelope among those that were handed over. -/
def Backed (store : MessageStore) (outbox : List Envelope) : Prop :=
  ∀ id r, store.getMessage id = some r → r.direction = .outbound →
    ∃ e ∈ outbox, e.type = .message ∧ e.messageId = textEncode id ∧
      e.toAddress = r.connectionAddress

theorem Backed.send {store : MessageStore} {outbox : List Envelope} (h : Backed store outbox)
    (sent : List Envelope) : Backed store (outbox ++ sent) := by
  intro id r hr hdirection
  obtain ⟨e, he, hrest⟩ := h id r hr hdirection
  exact ⟨e, List.mem_append_left sent he, hrest⟩

theorem Backed.updateState {store : MessageStore} {outbox : List Envelope}
    (h : Backed store outbox) (now : Int) (id state : String) (reason : Option String) :
    Backed (store.updateState now id state reason) outbox := by
  intro j r hr hdirection
  rw [MessageStore.getMessage_updateState, Option.map_eq_some_iff] at hr
  obtain ⟨row, hrow, rfl⟩ := hr
  simpa using h j row hrow (by simpa using hdirection)

/-- A row that was stored besides needs an envelope only if it is outbound. -/
theorem Backed.saveMessage {store store' : MessageStore} {outbox : List Envelope}
    {message : MessageRecord} (h : Backed store outbox)
    (hstore : store.saveMessage message = .ok store')
    (hmessage : message.direction = .outbound → ∃ e ∈ outbox, e.type = .message ∧
      e.messageId = textEncode message.id ∧ e.toAddress = message.connectionAddress) :
    Backed store' outbox := by
  intro id r hr hdirection
  rw [(MessageStore.getMessage_saveMessage hstore).2] at hr
  split at hr
  · rename_i hid
    obtain rfl := Option.some.inj hr
    rw [hid]
    exact hmessage hdirection
  · exact h id r hr hdirection

theorem HandsOver.backed {n n' : Node} (h : HandsOver n n')
    (hn : Backed n.messageStore n.outbox) : Backed n'.messageStore n'.outbox := by
  obtain ⟨message, store, envelope, hstore, rfl, htype, hid, haddress⟩ := h
  refine (hn.send [envelope]).saveMessage hstore fun _ => ?_
  exact ⟨envelope, by simp, htype, hid, haddress⟩

/-- An agent that is running, with the sequence table of its database. -/
structure Messenger where
  process : Process
  sequences : AList fun _ : String => Nat

inductive MessengerLabel
  | call (ctx : SendContext) (op : Operation)
  | input (x : InputLabel)
  | approveMessage (now : Int) (messageId : String) (action : InboundRouter.ApproveAction)

namespace Messenger

def performed (setup : HostSetup) (m : Messenger) (ctx : SendContext) (op : Operation) : Sender :=
  finalState ((op.perform setup.send ctx).run ⟨m.process.node, m.sequences⟩)

def step (setup : HostSetup) (m : Messenger) : MessengerLabel → Option Messenger
  | .call ctx op =>
    let s := m.performed setup ctx op
    some ⟨{ m.process with node := s.toNode }, s.sequences⟩
  | .input x => (m.process.input setup.receive x).map fun process => { m with process := process }
  | .approveMessage now messageId action =>
    (m.process.step setup.receive (.approveMessage now messageId action)).map fun process =>
      { m with process := process }

/-- A message whose row is written is sent over an open connection. -/
def Online (setup : HostSetup) (m : Messenger) : MessengerLabel → Prop
  | .call ctx (.sendMessage params) =>
    Stores setup.send ctx params ⟨m.process.node, m.sequences⟩ → ctx.connected = true
  | _ => True

def Backed (m : Messenger) : Prop :=
  Pinch.Backed m.process.node.messageStore m.process.node.outbox

end Messenger

section Steps

variable {setup : HostSetup} {m m' : Messenger}

theorem stable_backed (config : CircuitBreakerConfig) :
    Stable config (fun n => Backed n.messageStore n.outbox) :=
  .of_messages Backed config (fun _ _ _ _ _ _ h => h.updateState _ _ _ _)
    fun _ _ envelope h => h.send [envelope]

theorem saveMessage_backed {message : MessageRecord} (h : message.direction = .inbound) :
    Keeps (fun n : Node => Backed n.messageStore n.outbox) (Node.saveMessage message) := by
  intro n hn
  refine (saveMessage_spec message).conseq (fun _ h => h) ?_ ?_ n rfl
  · rintro _ _ ⟨store, hstore, rfl⟩
    exact hn.saveMessage hstore fun hdirection => absurd (h.symm.trans hdirection) (by decide)
  · rintro _ _ rfl
    exact hn

/-- The calls of the connection manager leave the messages alone and add to what was sent. -/
theorem backed_onAgent {s : Sender} {ctx : CallContext} (event : ConnectionEvent)
    (h : Backed s.messageStore s.outbox) :
    Backed (finalState ((Sender.onAgent (event.perform ctx)).run s)).messageStore
      (finalState ((Sender.onAgent (event.perform ctx)).run s)).outbox := by
  have hfinal : finalState ((Sender.onAgent (event.perform ctx)).run s) =
      { s with toAgent := s.toAgent.step (ctx, event) } := by
    simp only [Sender.onAgent, zoom, EStateM.run, Agent.step]
    cases event.perform ctx s.toAgent <;> rfl
  rw [hfinal]
  show Backed s.messageStore (s.toAgent.step (ctx, event)).outbox
  rw [outbox_step]
  exact h.send _

theorem backed_performed (h : m.Backed) {ctx : SendContext} {op : Operation}
    (hok : m.Online setup (.call ctx op)) :
    Backed (m.performed setup ctx op).messageStore (m.performed setup ctx op).outbox := by
  cases op with
  | sendRequest toAddress message => exact backed_onAgent (.sendRequest toAddress message) h
  | approveRequest p => exact backed_onAgent (.approveRequest p) h
  | rejectRequest p => exact backed_onAgent (.rejectRequest p) h
  | blockConnection p => exact backed_onAgent (.blockConnection p) h
  | unblockConnection p => exact backed_onAgent (.unblockConnection p) h
  | revokeConnection p => exact backed_onAgent (.revokeConnection p) h
  | sendMessage params =>
    have hfails := failsOnly_sendMessage.2 hok
    unfold Messenger.performed Operation.perform
    rw [finalState_discard]
    cases hrun : (MessageManager.sendMessage setup.send ctx params).run
        ⟨m.process.node, m.sequences⟩ with
    | ok id t => exact (handsOver_of_ok hrun).backed h
    | error e t =>
      obtain ⟨⟨-, houtbox⟩, hstore⟩ := hfails e t hrun
      show Backed t.messageStore t.outbox
      rw [hstore, houtbox]
      exact h

theorem backed_step {x : MessengerLabel} (h : m.Backed) (hok : m.Online setup x)
    (hs : m.step setup x = some m') : m'.Backed := by
  have hstable := stable_backed setup.receive.breakerConfig
  cases x with
  | call ctx op =>
    obtain rfl := Option.some.inj hs
    exact backed_performed h hok
  | input x =>
    obtain ⟨process, hprocess, rfl⟩ := Option.map_eq_some_iff.mp hs
    cases x with
    | incoming ctx envelope =>
      obtain rfl := Option.some.inj hprocess
      have hreceive : Backed (m.process.node.receive ctx envelope).messageStore
          (m.process.node.receive ctx envelope).outbox := by
        show Backed m.process.node.messageStore
          (m.process.node.toAgent.step (ctx, .incoming envelope)).outbox
        rw [outbox_step]
        exact h.send _
      have hkeeps : Keeps (fun n : Node => Backed n.messageStore n.outbox)
          (dispatch setup.receive ctx envelope) :=
        hstable.quiet.dispatch fun _ message _ hdirection => saveMessage_backed hdirection
      exact hkeeps.finalState hreceive
    | resume task ctx verdict =>
      obtain ⟨t, -, rfl⟩ := Option.map_eq_some_iff.mp hprocess
      exact (hstable.resume verdict t).finalState h
  | approveMessage now messageId action =>
    obtain rfl := Option.some.inj hs
    exact (hstable.approveMessage messageId action).finalState h

end Steps

/-- A call that fails leaves the records, the messages and the relay connection alone exactly if
it is safe. As long as messages whose rows are written are sent over an open connection, every
outbound row is that of an envelope that was handed over. -/
theorem failed_call_leaves_no_trace_iff (setup : HostSetup) :
    (∀ (op : Operation) ctx s, (∀ e t, (op.perform setup.send ctx).run s = .error e t →
        (∀ p, t.connectionStore.getConnection p = s.connectionStore.getConnection p) ∧
        t.messageStore = s.messageStore ∧ t.outbox = s.outbox) ↔ op.Safe setup.send ctx s) ∧
    ∀ labels m m', Run (Messenger.step setup) (Messenger.Online setup) m labels m' → m.Backed →
      ∀ id r, m'.process.node.messageStore.getMessage id = some r → r.direction = .outbound →
        r.state = "sent" → ∃ e ∈ m'.process.node.outbox, e.type = .message ∧
          e.messageId = textEncode id ∧ e.toAddress = r.connectionAddress := by
  constructor
  · intro op ctx s
    rw [← Operation.failsOnly_iff setup.send ctx s op]
    refine forall₃_congr fun e t _ => ?_
    exact ⟨fun h => ⟨⟨h.1, h.2.2⟩, h.2.1⟩, fun h => ⟨h.1.1, h.2, h.1.2⟩⟩
  · intro labels m m' hrun hm id r hr hdirection _
    have hm' : m'.Backed := hrun.invariant hm fun _ _ _ h hok hs => backed_step h hok hs
    exact hm' id r hr hdirection

def helloHost : HostSetup := ⟨⟨helloLibraries.toLibraries, vectorPrivateKey, {}⟩, helloSetup⟩

def attempted (ctx : SendContext) (op : Operation) : EStateM.Result String Sender Unit :=
  (op.perform helloSetup ctx).run helloSender

def nobody : String := "pinch:nobody@relay"

def helloMessenger : Messenger := ⟨.idle helloSender.toNode, ∅⟩

def helloPerformed : Sender :=
  helloMessenger.performed helloHost helloContext (.sendMessage (hello none))

def helloDone : Messenger :=
  ⟨{ helloMessenger.process with node := helloPerformed.toNode }, helloPerformed.sequences⟩

theorem run_hello : Run (Messenger.step helloHost) (Messenger.Online helloHost) helloMessenger
    [.call helloContext (.sendMessage (hello none))] helloDone :=
  .snoc .nil (fun _ => rfl) rfl

theorem backed_helloMessenger : helloMessenger.Backed := by
  show Backed .empty []
  intro id r hr
  cases hr

/-- Blocking a stranger fails without a trace; a message that is sent is handed over. -/
theorem failed_call_leaves_no_trace_iff_hello :
    (∃ e t, attempted helloContext (.blockConnection nobody) = .error e t ∧
      (∀ p, t.connectionStore.getConnection p = helloSender.connectionStore.getConnection p) ∧
      t.messageStore = helloSender.messageStore ∧ t.outbox = helloSender.outbox) ∧
    ∃ r, helloDone.process.node.messageStore.getMessage sentId = some r ∧
      ∃ e ∈ helloDone.process.node.outbox, e.type = .message ∧
        e.messageId = textEncode sentId ∧ e.toAddress = r.connectionAddress := by
  have hmain := failed_call_leaves_no_trace_iff helloHost
  constructor
  · cases hrun : attempted helloContext (.blockConnection nobody) with
    | ok a t =>
      have hreturned : returned (attempted helloContext (.blockConnection nobody)) = none := by
        decide +kernel
      rw [hrun] at hreturned
      cases hreturned
    | error e t =>
      have hsafe : (Operation.blockConnection nobody).Safe helloSetup helloContext helloSender :=
        fun _ _ _ => rfl
      exact ⟨e, t, rfl, (hmain.1 _ helloContext helloSender).2 hsafe e t hrun⟩
  · have hrow : (helloDone.process.node.messageStore.getMessage sentId).map
        (fun r => (r.direction, r.state)) = some (.outbound, "sent") := by decide +kernel
    obtain ⟨r, hr, hfields⟩ := Option.map_eq_some_iff.mp hrow
    obtain ⟨hdirection, hstate⟩ := Prod.mk.inj hfields
    exact ⟨r, hr, hmain.2 _ _ _ run_hello backed_helloMessenger sentId r hr hdirection hstate⟩

/-- The socket is gone, but the address that the relay assigned is still known. -/
def lostContext : SendContext := { helloContext with connected := false }

/-- A message that was never handed over is recorded as sent, a block that the relay does not
know of is recorded, and a peer without a record is told of a revocation. -/
theorem failed_calls_leave_traces :
    (returned (attempted lostContext (.sendMessage (hello none))) = none ∧
      ((finalState (attempted lostContext (.sendMessage (hello none)))).messageStore.getMessage
        sentId).map (fun r => (r.direction, r.state)) = some (.outbound, "sent") ∧
      (finalState (attempted lostContext (.sendMessage (hello none)))).outbox = []) ∧
    (returned (attempted lostContext (.blockConnection otherAddress)) = none ∧
      (helloSender.connectionStore.getConnection otherAddress).map (·.state) = some .active ∧
      ((finalState (attempted lostContext
        (.blockConnection otherAddress))).connectionStore.getConnection otherAddress).map
        (·.state) = some .blocked) ∧
    returned (attempted helloContext (.revokeConnection nobody)) = none ∧
      (finalState (attempted helloContext (.revokeConnection nobody))).outbox =
        [revokeEnvelope vectorAddress nobody] := by
  have hsend : (returned (attempted lostContext (.sendMessage (hello none))),
      ((finalState (attempted lostContext (.sendMessage (hello none)))).messageStore.getMessage
        sentId).map (fun r => (r.direction, r.state)),
      (finalState (attempted lostContext (.sendMessage (hello none)))).outbox) =
      (none, some (.outbound, "sent"), []) := by decide +kernel
  simp only [Prod.mk.injEq] at hsend
  refine ⟨hsend, ⟨?_, ?_, ?_⟩, ?_, ?_⟩ <;> decide +kernel

end Pinch
