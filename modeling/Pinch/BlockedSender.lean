import Pinch.QueueOrder

/-! What a block stops. `RouteMessage` looks at the block store once, before it looks for
the recipient; a message that is past that point, or in the queue, is not looked at again. -/

namespace Pinch

def Item.sender : Item → Option String
  | .direct sender _ | .queued _ sender _ => some sender
  | .control _ => none

inductive BlockAction
  | block
  | unblock
  deriving DecidableEq

structure BlockCommand where
  action : BlockAction
  blockerAddr : String
  blockedAddr : String
  deriving DecidableEq

def BlockStore.perform (b : BlockStore) (cmd : BlockCommand) : BlockStore :=
  match cmd.action with
  | .block => b.block cmd.blockerAddr cmd.blockedAddr
  | .unblock => b.unblock cmd.blockerAddr cmd.blockedAddr

def RoutePc.command (sender : String) : RoutePc → Option BlockCommand
  | .block target => some ⟨.block, sender, target⟩
  | .unblock target => some ⟨.unblock, sender, target⟩
  | _ => none

namespace Hub

open Transition

variable {s t : Hub} {label : HubLabel} {a b : String} {c r : ℕ}

/-- The address a call is bound for once it has passed the block store. -/
def bound (s : Hub) : RoutePc → Option String
  | .lookupClient toAddress | .enqueue toAddress => some toAddress
  | .isFlushing _ recipient | .deliver recipient => some (s.heap recipient).address
  | _ => none

/-- What `b` has had placed in channels of `a`. -/
def lettersTo (s : Hub) (a b : String) : List Placement :=
  s.placed.filter fun p => p.address = a ∧ p.item.sender = some b

/-- Nothing of `b` waits for `a`, and no call of `b` to `a` has passed the block store. -/
structure Clear (s : Hub) (a b : String) : Prop where
  queued : ∀ e, Queued s a e → e.senderAddr ≠ b
  called : ∀ c call, (s.heap c).address = b → (s.heap c).route = some call →
    s.bound call.pc ≠ some a

/-- The block store is read for a message of `b` to `a`, and no unblocking deletes the
entry of the two. -/
def keepsBlock (s : Hub) (a b : String) : HubLabel → Bool
  | .routeStep c _ ok =>
    match (s.heap c).route with
    | some ⟨_, .isBlocked toAddress⟩ => ok || !(toAddress = a && (s.heap c).address = b)
    | some ⟨_, .unblock target⟩ =>
      !ok || BlockStore.key (s.heap c).address target ≠ BlockStore.key a b
    | _ => true
  | _ => true

/-- A call that has looked up its recipient is bound for the address it asked for. -/
structure Aimed (s : Hub) : Prop where
  born : ∀ c r, (s.heap c).recipient = some r → r < s.nextClient
  address : ∀ c parcel a r, (s.heap c).route = some ⟨parcel, .isFlushing a r⟩ →
    (s.heap r).address = a

theorem Aimed.start (mq : MessageQueue Parcel) (blockStore : BlockStore) :
    Aimed (start mq blockStore) := by
  constructor <;> simp [Hub.start, Client.recipient]

/-- Only clients that have registered have a flush or a call. -/
theorem Tidy.clear (h : Tidy s)
    (hqueue : ∀ x ∈ (s.mq.bucket a).messages, ∀ msg ∈ x.2, msg.senderAddr ≠ b)
    (hflush : ∀ c < s.nextClient, (s.heap c).address = a → ∀ e ∈ (s.heap c).unsent,
      e.senderAddr ≠ b)
    (hcall : ∀ c < s.nextClient, (s.heap c).address = b → ∀ call ∈ (s.heap c).route,
      s.bound call.pc ≠ some a) : Clear s a b where
  queued e he := by
    rcases he with ⟨msg, hmem, he⟩ | ⟨c, hc, he⟩
    · rw [he]
      exact hqueue _ hmem msg rfl
    · refine hflush c (h.born_flush c fun hnone => ?_) hc e he
      simp [Client.unsent, hnone] at he
  called c call hc hroute := hcall c (h.born_route (by simp [hroute])) hc call hroute

theorem isBlocked_block (store : BlockStore) (a b : String) :
    (store.block a b).isBlocked a b = true := by
  simp [BlockStore.block, BlockStore.isBlocked]

namespace Step

theorem aimed (hs : Step s label t) (htidy : Tidy s) (h : Aimed s) : Aimed t where
  born c r hr := by
    refine lt_of_lt_of_le ?_ hs.nextClient_le
    rcases hs.recipient_before hr with hold | ⟨-, -, a, -, htable, -⟩
    · exact h.born c r hold
    · exact htidy.born a r htable
  address c parcel a r hroute := by
    have hold : (s.heap c).route = some ⟨parcel, .isFlushing a r⟩ → (t.heap r).address = a := by
      intro hold
      rw [hs.address_eq (h.born c r (by simp [Client.recipient, hold, RoutePc.recipient]))]
      exact h.address c parcel a r hold
    cases hs.routeView c with
    | same hsame haddr => exact hold (hsame ▸ hroute)
    | fresh hc hnone | ended hl hnone => simp [hnone] at hroute
    | called hl hnone ht =>
      rename_i frame allowed
      subst ht
      obtain ⟨hpc, -⟩ : routeMessage frame allowed = some (.isFlushing a r) ∧ _ := by
        simpa using hroute
      rcases routeMessage_eq_some hpc with ⟨_, hne⟩ | ⟨_, hne⟩ | ⟨_, hne⟩ | ⟨_, hne⟩ <;> cases hne
    | moved hl hcall hmove ht =>
      rename_i call p
      obtain ⟨parcel', pc⟩ := call
      subst ht
      obtain ⟨rfl, rfl⟩ : p = some (.isFlushing a r) ∧ parcel' = parcel := by simpa using hroute
      cases hmove with
      | online hlock htable => simpa using htidy.address a r htable

/-- A call is bound for an address because it was so before, or because it has just passed
the block store. -/
theorem bound_before (hs : Step s label t) (htidy : Tidy s) (haimed : Aimed s) {call : RouteCall}
    (hcall : (t.heap c).route = some call) (hbound : t.bound call.pc = some a) :
    (t.heap c).address = (s.heap c).address ∧ ((∃ call', (s.heap c).route = some call' ∧
      s.bound call'.pc = some a) ∨ ∃ now ok parcel, label = .routeStep c now ok ∧
        (s.heap c).route = some ⟨parcel, .isBlocked a⟩) := by
  cases hs.routeView c with
  | same hroute haddr =>
    rw [hroute] at hcall
    refine ⟨haddr, .inl ⟨call, hcall, ?_⟩⟩
    obtain ⟨parcel, pc⟩ := call
    cases pc with
    | isFlushing x r | deliver r =>
      have hborn := haimed.born c r (by simp [Client.recipient, hcall, RoutePc.recipient])
      simpa [bound, hs.address_eq hborn] using hbound
    | _ => exact hbound
  | fresh hc hroute | ended hl hroute => simp [hroute] at hcall
  | called hl hold ht =>
    subst ht
    obtain ⟨pc, hpc, rfl⟩ := Option.map_eq_some_iff.mp (by simpa using hcall)
    rcases routeMessage_eq_some hpc with ⟨_, rfl⟩ | ⟨_, rfl⟩ | ⟨_, rfl⟩ | ⟨_, rfl⟩ <;>
      simp [bound] at hbound
  | moved hl hold hmove ht =>
    rename_i call' p
    obtain ⟨parcel, pc⟩ := call'
    subst ht
    refine ⟨by simp, ?_⟩
    obtain ⟨pc', rfl, rfl⟩ := Option.map_eq_some_iff.mp (by simpa using hcall)
    cases hmove with
    | unblocked =>
      obtain rfl := Option.some.inj hbound
      exact .inr ⟨_, _, parcel, hl, hold⟩
    | offline hlock htable => exact .inl ⟨_, hold, hbound⟩
    | online hlock htable =>
      refine .inl ⟨_, hold, ?_⟩
      simpa [bound, htidy.address _ _ htable] using hbound
    | flushing hflag =>
      refine .inl ⟨_, hold, ?_⟩
      simpa [bound, haimed.address _ _ _ _ hold] using hbound
    | live hflag => exact .inl ⟨_, hold, by simpa [bound] using hbound⟩
    | full => simp [bound] at hbound

end Step

/-- A blocked call that has read the block store is over. -/
theorem route_of_blocked {now : Int64} {parcel : Parcel}
    (hstep : s.step (.routeStep c now true) = some t)
    (hroute : (s.heap c).route = some ⟨parcel, .isBlocked a⟩)
    (hblocked : s.blockStore.isBlocked a (s.heap c).address = true) : (t.heap c).route = none := by
  simp only [step, routeStep, hroute, Option.bind_some, hblocked, Bool.and_true, if_true] at hstep
  obtain ⟨-, hstep⟩ := Option.ite_none_left_eq_some.mp hstep
  obtain rfl := Option.some.inj hstep
  simp

@[simp] theorem modify_blockStore {f : Client → Client} :
    (s.modify c f).blockStore = s.blockStore := rfl

@[simp] theorem send_blockStore {item : Item} : (s.send c item).blockStore = s.blockStore := by
  simp [send_eq]

/-- The change that a step makes to the block store. -/
def performed (s : Hub) : HubLabel → Option BlockCommand
  | .routeStep c _ true => (s.heap c).route.bind fun call => call.pc.command (s.heap c).address
  | _ => none

theorem blockStore_routeStep {now : Int64} {ok : Bool} (h : s.routeStep c now ok = some t) :
    t.blockStore = (s.performed (.routeStep c now ok)).elim s.blockStore s.blockStore.perform := by
  unfold routeStep at h
  obtain ⟨⟨parcel, pc⟩, hroute, h⟩ := Option.bind_eq_some_iff.mp h
  have hperformed : s.performed (.routeStep c now ok) =
      if ok then pc.command (s.heap c).address else none := by
    cases ok <;> simp [performed, hroute]
  have hsame {t' : Hub} (h : some t' = some t) (heq : t'.blockStore = s.blockStore) :
      t.blockStore = s.blockStore := Option.some.inj h ▸ heq
  rw [hperformed]
  cases pc with
  | block target | unblock target =>
    obtain rfl := Option.some.inj h
    cases ok <;> rfl
  | reply | isBlocked | isFlushing | deliver =>
    simpa only [RoutePc.command, ite_self, Option.elim_none] using hsame h (by simp)
  | lookupClient x =>
    simp only [RoutePc.command, ite_self, Option.elim_none]
    dsimp only at h
    split at h
    · cases h
    · split at h
      · exact hsame h (by simp)
      · exact hsame h (by simp)
  | enqueue x =>
    simp only [RoutePc.command, ite_self, Option.elim_none]
    dsimp only at h
    split at h
    · split at h
      · exact hsame h (by simp)
      · exact hsame h (by simp)
    · exact hsame h (by simp)

/-- The block store changes only with a block or an unblock of the calling client. -/
inductive BlockChange (s : Hub) (c : ℕ) (ok : Bool) (t : Hub) : Prop
  | same (h : t.blockStore = s.blockStore) : BlockChange s c ok t
  | blocked {parcel : Parcel} {target : String} (hok : ok = true)
      (hroute : (s.heap c).route = some ⟨parcel, .block target⟩)
      (h : t.blockStore = s.blockStore.block (s.heap c).address target) : BlockChange s c ok t
  | unblocked {parcel : Parcel} {target : String} (hok : ok = true)
      (hroute : (s.heap c).route = some ⟨parcel, .unblock target⟩)
      (h : t.blockStore = s.blockStore.unblock (s.heap c).address target) : BlockChange s c ok t

theorem blockChange_routeStep {now : Int64} {ok : Bool} (h : s.routeStep c now ok = some t) :
    BlockChange s c ok t := by
  have heq := blockStore_routeStep h
  obtain ⟨⟨parcel, pc⟩, hroute, -⟩ := Option.bind_eq_some_iff.mp h
  cases ok with
  | false => exact .same heq
  | true =>
    simp only [performed, hroute, Option.bind_some] at heq
    cases pc with
    | block target => exact .blocked rfl hroute heq
    | unblock target => exact .unblocked rfl hroute heq
    | _ => exact .same heq

theorem step_routeStep {now : Int64} {ok : Bool} (h : s.step (.routeStep c now ok) = some t) :
    s.routeStep c now ok = some t :=
  (Option.ite_none_left_eq_some.mp h).2

theorem blocked_after (hstep : s.step label = some t) (hok : s.keepsBlock a b label = true)
    (h : s.blockStore.isBlocked a b = true) : t.blockStore.isBlocked a b = true := by
  obtain ⟨-, hs⟩ := Step.of_step hstep
  cases hs with
  | blockChanged =>
    cases blockChange_routeStep (step_routeStep hstep) with
    | same heq => rwa [heq]
    | blocked _ _ heq =>
      rw [heq]
      simp only [BlockStore.isBlocked, BlockStore.block, List.mem_cons, decide_eq_true_eq] at h ⊢
      exact .inr h
    | unblocked hdone hroute heq =>
      rename_i c _ _ _ _ _ _ target
      have hne : BlockStore.key (s.heap c).address target ≠ BlockStore.key a b := by
        simpa [keepsBlock, hroute, hdone] using hok
      rw [heq]
      simp only [BlockStore.isBlocked, BlockStore.unblock, decide_eq_true_eq, List.mem_filter] at h ⊢
      exact ⟨h, hne.symm⟩
  | _ => simpa using h

/-- The state between a block and its unblock. -/
structure Barred (s : Hub) (a b : String) : Prop extends Clear s a b where
  blocked : s.blockStore.isBlocked a b = true

theorem Clear.step (hs : Step s label t) (htidy : Tidy s) (haimed : Aimed s) (h : Clear s a b)
    (hread : ∀ c now ok parcel, label = .routeStep c now ok → (s.heap c).address = b →
      (s.heap c).route = some ⟨parcel, .isBlocked a⟩ → (t.heap c).route = none) : Clear t a b where
  queued e he := by
    rcases hs.queued_before he with hold | ⟨d, now, henq⟩
    · exact h.queued e hold
    · intro heq
      exact h.called d _ (henq.sender.symm.trans heq) henq.route rfl
  called c call haddr hcall hbound := by
    obtain ⟨hsame, ⟨call', hcall', hbound'⟩ | ⟨now, ok, parcel, hl, hroute⟩⟩ :=
      hs.bound_before htidy haimed hcall hbound
    · exact h.called c call' (hsame ▸ haddr) hcall' hbound'
    · simp [hread c now ok parcel hl (hsame ▸ haddr) hroute] at hcall

theorem Barred.step (hstep : s.step label = some t) (htidy : Tidy s) (haimed : Aimed s)
    (h : Barred s a b) (hok : s.keepsBlock a b label = true) : Barred t a b where
  toClear := by
    refine .step (Step.of_step hstep).2 htidy haimed h.toClear ?_
    rintro c now ok parcel rfl haddr hroute
    obtain rfl : ok = true := by simpa [keepsBlock, hroute, haddr] using hok
    exact route_of_blocked hstep hroute (haddr ▸ h.blocked)
  blocked := blocked_after hstep hok h.blocked

/-- A block that is processed bars the sender. -/
theorem Clear.barred {now : Int64} {parcel : Parcel} (h : Clear s a b) (htidy : Tidy s)
    (haimed : Aimed s) (ha : (s.heap c).address = a)
    (hroute : (s.heap c).route = some ⟨parcel, .block b⟩)
    (hstep : s.step (.routeStep c now true) = some t) : Barred t a b where
  toClear := by
    refine h.step (Step.of_step hstep).2 htidy haimed ?_
    rintro d _ _ parcel' hl - hcall
    obtain ⟨rfl, -⟩ : c = d ∧ _ := by simpa using hl
    cases hroute.symm.trans hcall
  blocked := by
    have h := step_routeStep hstep
    simp only [routeStep, hroute, Option.bind_some, if_true] at h
    rw [← Option.some.inj h, ha]
    exact isBlocked_block _ _ _

theorem Barred.lettersTo_eq (h : Barred s a b) (hs : Step s label t) :
    t.lettersTo a b = s.lettersTo a b := by
  rcases hs.placed_cases with heq | ⟨p, heq, hp⟩
  · rw [lettersTo, heq, lettersTo]
  · have hnot : ¬ (p.address = a ∧ p.item.sender = some b) := by
      rintro ⟨ha, hb⟩
      cases hp with
      | control hacc => cases hb
      | direct hl hacc hroute ht =>
        exact h.called _ _ (Option.some.inj hb) hroute (congrArg some ha)
      | queued hl hacc hflush ht =>
        rename_i c _ _ e rest
        exact h.queued e (.inr ⟨c, ha, by simp [Client.unsent, FlushPc.unsent, hflush]⟩)
          (Option.some.inj hb)
    simp [lettersTo, heq, hnot]

theorem FreeRun.tidy_aimed {mq : MessageQueue Parcel} {blockStore : BlockStore} {l : List HubLabel}
    (h : FreeRun (start mq blockStore) l s) : Tidy s ∧ Aimed s := by
  refine h.invariant (P := fun s => Tidy s ∧ Aimed s)
    ⟨.start mq blockStore, .start mq blockStore⟩ ?_
  rintro s label t ⟨htidy, haimed⟩ - hstep
  obtain ⟨-, hs⟩ := Step.of_step hstep
  exact ⟨hs.tidy htidy, hs.aimed htidy haimed⟩

/-- From a block that found nothing of `b` on its way to `a`, as long as the block store is
read and keeps the entry, nothing of `b` is placed in a channel of `a`. -/
theorem block_stops_letters {mq : MessageQueue Parcel} {blockStore : BlockStore}
    {before after : List HubLabel} {s₁ s₂ : Hub} {now : Int64} {parcel : Parcel}
    (hbefore : FreeRun (start mq blockStore) before s)
    (ha : (s.heap c).address = a) (hroute : (s.heap c).route = some ⟨parcel, .block b⟩)
    (hclear : Clear s a b) (hblock : s.step (.routeStep c now true) = some s₁)
    (hafter : Run step (fun s x => s.keepsBlock a b x) s₁ after s₂) :
    s₂.lettersTo a b = s₁.lettersTo a b := by
  have hstart := hbefore.tidy_aimed
  refine (hafter.invariant (P := fun t => Tidy t ∧ Aimed t ∧ Barred t a b ∧
    t.lettersTo a b = s₁.lettersTo a b) ?_ ?_).2.2.2
  · obtain ⟨-, hs⟩ := Step.of_step hblock
    exact ⟨hs.tidy hstart.1, hs.aimed hstart.1 hstart.2,
      hclear.barred hstart.1 hstart.2 ha hroute hblock, rfl⟩
  · rintro s label t ⟨htidy, haimed, hb, heq⟩ hok hstep
    obtain ⟨-, hs⟩ := Step.of_step hstep
    exact ⟨hs.tidy htidy, hs.aimed htidy haimed, hb.step hstep htidy haimed hok,
      (hb.lettersTo_eq hs).trans heq⟩

def blockOf (target : String) : Frame :=
  ⟨40, some { type := .blockNotification, payload := .blockNotification ⟨"", target⟩ }⟩

/-- Both are connected, and "bob" has sent a block of "alice". -/
def blockSent : List HubLabel :=
  [.register "alice", .run true, .authResult 0 true, .register "bob", .run true, .authResult 1 true,
    .route 1 (blockOf "alice") true]

def beforeBlock : Hub :=
  (exec step (fun _ _ => True) (start (.new 1000 100) ⟨[]⟩) blockSent).get (by decide +kernel)

def afterBlock : Hub := (beforeBlock.step (.routeStep 1 0 true)).get (by decide +kernel)

def afterLetter : Hub :=
  (exec step (fun s x => s.keepsBlock "bob" "alice" x) afterBlock
    [.route 0 toBob true, .routeStep 0 0 true]).get (by decide +kernel)

theorem block_stops_letters_online :
    (afterLetter.heap 0).route = none ∧
      afterLetter.lettersTo "bob" "alice" = afterBlock.lettersTo "bob" "alice" := by
  have hbefore : FreeRun (start (.new 1000 100) ⟨[]⟩) blockSent beforeBlock :=
    .of_exec (Option.some_get _).symm
  have hclear : Clear beforeBlock "bob" "alice" :=
    hbefore.tidy_aimed.1.clear (by decide +kernel) (by decide +kernel) (by decide +kernel)
  have hroute : (beforeBlock.heap 1).route = some ⟨⟨blockOf "alice", 0⟩, .block "alice"⟩ := by
    decide +kernel
  refine ⟨by decide +kernel, ?_⟩
  exact block_stops_letters hbefore (by decide +kernel) hroute hclear
    (Option.some_get _).symm (.of_exec (Option.some_get _).symm)

/-- A letter of "alice" that is placed for "bob" after their block, with every database
operation succeeding and no unblocking. -/
def PassesBlock (before after : List HubLabel) : Prop :=
  ∃ s s₁ s₂, Run step (fun _ x => x.succeeds) (start (.new 1000 100) ⟨[]⟩) before s ∧
    (s.heap 1).address = "bob" ∧
    (s.heap 1).route = some ⟨⟨blockOf "alice", 1⟩, .block "alice"⟩ ∧
    s.step (.routeStep 1 0 true) = some s₁ ∧
    Run step (fun s x => (x.succeeds && s.keepsBlock "bob" "alice" x) = true) s₁ after s₂ ∧
    s₁.lettersTo "bob" "alice" = [] ∧ (s₂.lettersTo "bob" "alice").length = 1

/-- The letter waits in the queue. -/
def queuedBefore : List HubLabel :=
  [.register "alice", .run true, .authResult 0 true, .route 0 toBob true, .routeStep 0 0 true,
    .routeStep 0 0 true, .routeStep 0 0 true, .register "bob", .run true, .run true, .run true,
    .authResult 1 true, .route 1 (blockOf "alice") true]

/-- The call has read the block store. -/
def readBefore : List HubLabel :=
  [.register "alice", .run true, .authResult 0 true, .register "bob", .run true, .authResult 1 true,
    .route 0 toBob true, .routeStep 0 0 true, .route 1 (blockOf "alice") true]

theorem blocked_letters_placed :
    PassesBlock queuedBefore (List.replicate 3 (.flushStep 1 0 true)) ∧
      PassesBlock readBefore (List.replicate 3 (.routeStep 0 0 true)) := by
  constructor
  · exact ⟨_, _, _, .of_exec (Option.some_get (by decide +kernel)).symm, by decide +kernel,
      by decide +kernel, (Option.some_get (by decide +kernel)).symm,
      .of_exec (Option.some_get (by decide +kernel)).symm, by decide +kernel, by decide +kernel⟩
  · exact ⟨_, _, _, .of_exec (Option.some_get (by decide +kernel)).symm, by decide +kernel,
      by decide +kernel, (Option.some_get (by decide +kernel)).symm,
      .of_exec (Option.some_get (by decide +kernel)).symm, by decide +kernel, by decide +kernel⟩

end Hub

end Pinch
