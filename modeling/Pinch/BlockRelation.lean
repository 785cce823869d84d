import Mathlib.Data.List.Induction
import Pinch.BlockedSender
import Pinch.Identity
import Pinch.Separator

/-! The block store as a relation between addresses. A blocker's address has its first `@` in
front of the relay's host, so a key determines the blocker and the target it was made of,
whatever text the target is. -/

namespace Pinch

/-- The addresses that a relay gives to its clients. -/
def Canonical (sha256 : Bytes → Bytes) (relayHost addr : String) : Prop :=
  ∃ pubKey : Bytes, pubKey.length = 32 ∧ addr = generateAddress sha256 pubKey relayHost

namespace BlockStore

variable {sha256 : Bytes → Bytes} {relayHost b b' : String} {log : List BlockCommand}

def performAll (log : List BlockCommand) : BlockStore := log.foldl perform ⟨[]⟩

/-- What the last command of a blocker for a target was. -/
def lastAction (log : List BlockCommand) (blockerAddr target : String) : Option BlockAction :=
  (log.filter fun cmd => cmd.blockerAddr = blockerAddr ∧ cmd.blockedAddr = target).getLast?.map
    BlockCommand.action

theorem key_inj (hb : Canonical sha256 relayHost b) (hb' : Canonical sha256 relayHost b')
    {t t' : String} (h : key b t = key b' t') : b = b' ∧ t = t' := by
  obtain ⟨pubKey, -, rfl⟩ := hb
  obtain ⟨pubKey', -, rfl⟩ := hb'
  have hlist := congrArg String.toList h
  simp only [key, generateAddress, String.toList_append, List.append_assoc] at hlist
  obtain ⟨hpayload, hrest⟩ := Separator.split_unique (Base58.at_notMem_encode _)
    (Base58.at_notMem_encode _) (List.append_cancel_left hlist)
  refine ⟨?_, String.toList_inj.1 ?_⟩
  · rw [generateAddress, generateAddress, String.toList_inj.1 hpayload]
  · exact List.append_cancel_left (List.append_cancel_left hrest)

theorem isBlocked_perform (store : BlockStore) (cmd : BlockCommand) (b t : String) :
    (store.perform cmd).isBlocked b t = if key cmd.blockerAddr cmd.blockedAddr = key b t then
      decide (cmd.action = .block) else store.isBlocked b t := by
  obtain ⟨action, blocker, target⟩ := cmd
  cases action with
  | block =>
    by_cases hkey : key blocker target = key b t
    · simp [perform, block, isBlocked, hkey]
    · simp [perform, block, isBlocked, hkey, Ne.symm hkey]
  | unblock =>
    by_cases hkey : key blocker target = key b t
    · simp [perform, unblock, isBlocked, hkey]
    · simp [perform, unblock, isBlocked, hkey, Ne.symm hkey]

theorem lastAction_concat (log : List BlockCommand) (cmd : BlockCommand) (b t : String) :
    lastAction (log ++ [cmd]) b t =
      if cmd.blockerAddr = b ∧ cmd.blockedAddr = t then some cmd.action else lastAction log b t := by
  by_cases hcmd : cmd.blockerAddr = b ∧ cmd.blockedAddr = t
  · simp [lastAction, hcmd]
  · simp [lastAction, hcmd]

theorem performAll_concat (log : List BlockCommand) (cmd : BlockCommand) :
    performAll (log ++ [cmd]) = (performAll log).perform cmd := by
  simp [performAll]

theorem isBlocked_performAll (hlog : ∀ cmd ∈ log, Canonical sha256 relayHost cmd.blockerAddr)
    (hb : Canonical sha256 relayHost b) (t : String) :
    (performAll log).isBlocked b t = true ↔ lastAction log b t = some .block := by
  induction log using List.reverseRecOn with
  | nil => simp [performAll, isBlocked, lastAction]
  | append_singleton log cmd ih =>
    have hcmd : Canonical sha256 relayHost cmd.blockerAddr := hlog cmd (by simp)
    have hrest := ih fun cmd' h => hlog cmd' (by simp [h])
    have hkey : key cmd.blockerAddr cmd.blockedAddr = key b t ↔
        cmd.blockerAddr = b ∧ cmd.blockedAddr = t :=
      ⟨key_inj hcmd hb, fun h => by rw [h.1, h.2]⟩
    rw [performAll_concat, isBlocked_perform, lastAction_concat]
    by_cases h : cmd.blockerAddr = b ∧ cmd.blockedAddr = t
    · simp [h]
    · rw [if_neg (mt hkey.1 h), if_neg h]
      exact hrest

/-- Whatever targets its clients have chosen, the store answers for an address by the last
command that the address itself has issued. -/
theorem relation_of_commands
    (hlog : ∀ cmd ∈ log, Canonical sha256 relayHost cmd.blockerAddr)
    (hb : Canonical sha256 relayHost b) :
    (∀ s, (performAll log).isBlocked b s = true ↔ lastAction log b s = some .block) ∧
      ∀ b' t t', Canonical sha256 relayHost b' → key b t = key b' t' → b = b' ∧ t = t' :=
  ⟨isBlocked_performAll hlog hb, fun _ _ _ hb' => key_inj hb hb'⟩

/-- The address of an agent whose key repeats one byte. -/
def agentAddress (byte : UInt8) : String :=
  generateAddress (fun _ => [9, 8, 7, 6]) (List.replicate 32 byte) "relay.example.com"

/-- Two agents give commands for one target, whose text holds both separators. -/
def mixedCommands : List BlockCommand :=
  [⟨.block, agentAddress 1, "pinch:x@y:z"⟩, ⟨.block, agentAddress 2, "pinch:x@y:z"⟩,
    ⟨.unblock, agentAddress 2, "pinch:x@y:z"⟩]

theorem relation_of_mixedCommands :
    (performAll mixedCommands).isBlocked (agentAddress 1) "pinch:x@y:z" = true ∧
      (performAll mixedCommands).isBlocked (agentAddress 2) "pinch:x@y:z" = false := by
  have hagent (byte : UInt8) :
      Canonical (fun _ => [9, 8, 7, 6]) "relay.example.com" (agentAddress byte) :=
    ⟨List.replicate 32 byte, by simp, rfl⟩
  have hlog : ∀ cmd ∈ mixedCommands,
      Canonical (fun _ => [9, 8, 7, 6]) "relay.example.com" cmd.blockerAddr := by
    intro cmd hcmd
    simp only [mixedCommands, List.mem_cons, List.not_mem_nil, or_false] at hcmd
    rcases hcmd with rfl | rfl | rfl
    · exact hagent 1
    · exact hagent 2
    · exact hagent 2
  refine ⟨((relation_of_commands hlog (hagent 1)).1 _).2 (by decide +kernel), ?_⟩
  rw [Bool.eq_false_iff]
  exact mt ((relation_of_commands hlog (hagent 2)).1 _).1 (by decide +kernel)

end BlockStore

namespace Hub

open Transition

variable {s t : Hub} {label : HubLabel} {A : String → Prop}

theorem blockStore_step (h : s.step label = some t) :
    t.blockStore = (s.performed label).elim s.blockStore s.blockStore.perform := by
  obtain ⟨-, hs⟩ := Step.of_step h
  cases label with
  | routeStep c now ok => exact blockStore_routeStep (step_routeStep h)
  | _ => cases hs <;> simp [performed]

theorem Step.address_after (hs : Step s label t) (hlabel : ∀ a, label = .register a → A a)
    (h : ∀ c < s.nextClient, A (s.heap c).address) : ∀ c < t.nextClient, A (t.heap c).address := by
  intro c hc
  by_cases hold : c < s.nextClient
  · rw [hs.address_eq hold]
    exact h c hold
  · cases hs with
    | registered hrun ha =>
      obtain rfl : c = s.nextClient := by simp at hc; omega
      simpa using hlabel _ rfl
    | _ => exact absurd (by simpa using hc) hold

theorem performed_eq_some {cmd : BlockCommand} (h : s.performed label = some cmd) :
    ∃ c, (s.heap c).route ≠ none ∧ cmd.blockerAddr = (s.heap c).address := by
  unfold performed at h
  split at h
  · rename_i c _
    obtain ⟨call, hroute, hcmd⟩ := Option.bind_eq_some_iff.mp h
    refine ⟨c, by simp [hroute], ?_⟩
    unfold RoutePc.command at hcmd
    split at hcmd
    · rw [← Option.some.inj hcmd]
    · rw [← Option.some.inj hcmd]
    · cases hcmd
  · cases h

/-- The block store of a hub holds what its clients' commands make of it, and only addresses
that were registered have issued one. -/
theorem blockStore_eq_performAll {mq : MessageQueue Parcel} {l : List HubLabel}
    {log : List BlockCommand}
    (h : Run (logged step performed) (fun _ x => ∀ a, x = .register a → A a)
      (start mq ⟨[]⟩, []) l (s, log)) :
    s.blockStore = BlockStore.performAll log ∧ ∀ cmd ∈ log, A cmd.blockerAddr := by
  refine (h.invariant (P := fun x => Tidy x.1 ∧ (∀ c < x.1.nextClient, A (x.1.heap c).address) ∧
    x.1.blockStore = BlockStore.performAll x.2 ∧ ∀ cmd ∈ x.2, A cmd.blockerAddr) ?_ ?_).2.2
  · exact ⟨.start mq ⟨[]⟩, by simp [start], rfl, by simp⟩
  · rintro ⟨s, log⟩ label ⟨t, log'⟩ ⟨htidy, haddr, hstore, hlog⟩ hok hlogged
    obtain ⟨hstep, rfl⟩ := logged_eq_some.1 hlogged
    obtain ⟨-, hs⟩ := Step.of_step hstep
    refine ⟨hs.tidy htidy, hs.address_after hok haddr, ?_⟩
    dsimp only at hstore hlog ⊢
    rw [blockStore_step hstep, hstore]
    cases hcmd : s.performed label with
    | none => exact ⟨by simp, by simpa using hlog⟩
    | some cmd =>
      obtain ⟨c, hroute, hblocker⟩ := performed_eq_some hcmd
      refine ⟨(BlockStore.performAll_concat log cmd).symm, ?_⟩
      intro cmd' hmem
      rcases List.mem_append.1 hmem with hmem | hmem
      · exact hlog cmd' hmem
      · obtain rfl : cmd' = cmd := by simpa using hmem
        rw [hblocker]
        exact haddr c (htidy.born_route hroute)

/-- Every run of a relay whose clients are registered under the addresses of their keys. -/
theorem isBlocked_iff_lastAction {sha256 : Bytes → Bytes} {relayHost : String}
    {mq : MessageQueue Parcel} {l : List HubLabel}
    (h : Run step (fun _ x => ∀ a, x = .register a → Canonical sha256 relayHost a)
      (start mq ⟨[]⟩) l s) :
    ∃ log, Run (logged step performed)
      (fun _ x => ∀ a, x = .register a → Canonical sha256 relayHost a)
        (start mq ⟨[]⟩, []) l (s, log) ∧
      ∀ b target, Canonical sha256 relayHost b → (s.blockStore.isBlocked b target = true ↔
        BlockStore.lastAction log b target = some .block) := by
  obtain ⟨log, hlogged⟩ := h.logged performed
  obtain ⟨hstore, hlog⟩ := blockStore_eq_performAll hlogged
  refine ⟨log, hlogged, fun b target hb => ?_⟩
  rw [hstore]
  exact BlockStore.isBlocked_performAll hlog hb target

end Hub

end Pinch
