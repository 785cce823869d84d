import Mathlib.Data.List.AList
import Pinch.RoutingTable

/-! The event loop of the hub, with the routing table and the send channels alone. Clients are
values of an arbitrary type, since the loop compares client objects and not their contents. -/

namespace Pinch

open Transition

inductive RegisterError
  | addressInUse
  deriving DecidableEq

/-- `closed` lists the clients whose send channel was closed, in that order. Closing a channel
again panics, and `Run` returns after the shutdown. -/
structure RunLoop (κ : Type) where
  clients : AList (fun _ : String => κ)
  closed : List κ
  panicked : Bool
  stopped : Bool

inductive RunEvent (κ : Type)
  | register (client : κ)
  | unregister (client : κ)
  | shutdown

def RunEvent.registers {κ : Type} : RunEvent κ → Option κ
  | .register client => some client
  | _ => none

namespace RunLoop

variable {κ : Type} (address : κ → String)

def new : RunLoop κ := ⟨∅, [], false, false⟩

section Operations

variable [DecidableEq κ]

def closeSend (s : RunLoop κ) (client : κ) : RunLoop κ :=
  if client ∈ s.closed then { s with panicked := true }
  else { s with closed := s.closed ++ [client] }

def register (s : RunLoop κ) (client : κ) : RunLoop κ × Option RegisterError :=
  match s.clients.lookup (address client) with
  | some existing =>
    if existing ≠ client then (s, some .addressInUse)
    else ({ s with clients := s.clients.insert (address client) client }, none)
  | none => ({ s with clients := s.clients.insert (address client) client }, none)

def unregister (s : RunLoop κ) (client : κ) : RunLoop κ :=
  if s.clients.lookup (address client) = some client then
    { s with clients := s.clients.erase (address client) }.closeSend client
  else s

/-- One round of the loop over the table. -/
def shutdownClient (s : RunLoop κ) (e : Sigma fun _ : String => κ) : RunLoop κ :=
  { s.closeSend e.2 with clients := (s.closeSend e.2).clients.erase e.1 }

def shutdown (s : RunLoop κ) : RunLoop κ :=
  { s.clients.entries.foldl shutdownClient s with stopped := true }

def step (s : RunLoop κ) (event : RunEvent κ) : Option (RunLoop κ) :=
  if s.panicked ∨ s.stopped then none
  else match event with
    | .register client => some (s.register address client).1
    | .unregister client => some (s.unregister address client)
    | .shutdown => some s.shutdown

end Operations

/-- The table files clients under their own addresses and holds open channels only, and no
channel was closed twice. -/
structure Consistent (s : RunLoop κ) : Prop where
  address : ∀ a c, s.clients.lookup a = some c → address c = a
  opened : ∀ a c, s.clients.lookup a = some c → c ∉ s.closed
  once : s.closed.Nodup
  alive : s.panicked = false

/-- The client was in the table and is not any more. -/
def Leaves (s t : RunLoop κ) (c : κ) : Prop :=
  s.clients.lookup (address c) = some c ∧ ∀ a, t.clients.lookup a ≠ some c

/-- Every client that the loop has seen was registered. -/
def Known (s : RunLoop κ) (registered : List κ) : Prop :=
  ∀ c, c ∈ s.closed ∨ (∃ a, s.clients.lookup a = some c) → c ∈ registered

variable {address} {s t : RunLoop κ} {c d : κ} {a : String}

theorem consistent_new : Consistent address (new : RunLoop κ) :=
  ⟨by simp [new], by simp [new], List.nodup_nil, rfl⟩

theorem lookup_insert_cases {b : String} (h : (s.clients.insert b d).lookup a = some c) :
    a = b ∧ c = d ∨ a ≠ b ∧ s.clients.lookup a = some c := by
  by_cases hab : a = b
  · subst hab
    exact .inl ⟨rfl, by simpa using h.symm⟩
  · exact .inr ⟨hab, by rwa [AList.lookup_insert_ne hab] at h⟩

theorem lookup_erase_cases {b : String} (h : (s.clients.erase b).lookup a = some c) :
    a ≠ b ∧ s.clients.lookup a = some c := by
  by_cases hab : a = b
  · subst hab
    simp at h
  · exact ⟨hab, by rwa [AList.lookup_erase_ne hab] at h⟩

variable [DecidableEq κ]

section Register

theorem register_taken (h : s.clients.lookup (address c) = some d) (hne : d ≠ c) :
    s.register address c = (s, some .addressInUse) := by
  simp [register, h, hne]

theorem register_eq (h : ∀ d, s.clients.lookup (address c) = some d → d = c) :
    s.register address c = ({ s with clients := s.clients.insert (address c) c }, none) := by
  cases hc : s.clients.lookup (address c) with
  | none => simp [register, hc]
  | some d =>
    obtain rfl := h d hc
    simp [register, hc]

theorem register_closed (s : RunLoop κ) (c : κ) : (s.register address c).1.closed = s.closed := by
  unfold register
  split
  · split <;> rfl
  · rfl

theorem Consistent.register (h : Consistent address s) (hc : c ∉ s.closed) :
    Consistent address (s.register address c).1 := by
  by_cases htaken : ∀ d, s.clients.lookup (address c) = some d → d = c
  · rw [register_eq htaken]
    refine ⟨?_, ?_, h.once, h.alive⟩
    · intro a d hd
      rcases lookup_insert_cases hd with ⟨rfl, rfl⟩ | ⟨-, hold⟩
      · rfl
      · exact h.address a d hold
    · intro a d hd
      rcases lookup_insert_cases hd with ⟨-, rfl⟩ | ⟨-, hold⟩
      · exact hc
      · exact h.opened a d hold
  · push Not at htaken
    obtain ⟨d, hd, hne⟩ := htaken
    rw [register_taken hd hne]
    exact h

theorem Known.register {l : List κ} (h : Known s l) (c : κ) :
    Known (s.register address c).1 (l ++ [c]) := by
  intro d hd
  rw [List.mem_append, List.mem_singleton]
  rcases hd with hd | ⟨a, hd⟩
  · rw [register_closed] at hd
    exact .inl (h d (.inl hd))
  · by_cases htaken : ∀ d, s.clients.lookup (address c) = some d → d = c
    · rw [register_eq htaken] at hd
      rcases lookup_insert_cases hd with ⟨-, rfl⟩ | ⟨-, hold⟩
      · exact .inr rfl
      · exact .inl (h d (.inr ⟨a, hold⟩))
    · push Not at htaken
      obtain ⟨e, he, hne⟩ := htaken
      rw [register_taken he hne] at hd
      exact .inl (h d (.inr ⟨a, hd⟩))

/-- A registration takes no client out of the table. -/
theorem not_leaves_register : ¬ Leaves address s (s.register address c).1 d := by
  rintro ⟨hd, hgone⟩
  refine hgone (address d) ?_
  by_cases htaken : ∀ d, s.clients.lookup (address c) = some d → d = c
  · rw [register_eq htaken]
    by_cases heq : address d = address c
    · obtain rfl := htaken d (heq ▸ hd)
      simp
    · rw [AList.lookup_insert_ne heq]
      exact hd
  · push Not at htaken
    obtain ⟨e, he, hne⟩ := htaken
    rw [register_taken he hne]
    exact hd

end Register

section Unregister

theorem unregister_stale (h : s.clients.lookup (address c) ≠ some c) :
    s.unregister address c = s := if_neg h

theorem Consistent.unregister_eq (h : Consistent address s)
    (hc : s.clients.lookup (address c) = some c) :
    s.unregister address c =
      { s with clients := s.clients.erase (address c), closed := s.closed ++ [c] } := by
  rw [unregister, if_pos hc, closeSend, if_neg (h.opened _ c hc)]

end Unregister

section Shutdown

/-- The loop over the table closes the channels of the clients it meets and empties their
places. -/
theorem foldl_shutdownClient (es : List (Sigma fun _ : String => κ)) (s : RunLoop κ)
    (hopen : ∀ e ∈ es, e.2 ∉ s.closed) (hnodup : (es.map (·.2)).Nodup) :
    (es.foldl shutdownClient s).closed = s.closed ++ es.map (·.2) ∧
    (es.foldl shutdownClient s).panicked = s.panicked ∧
    ∀ a, (es.foldl shutdownClient s).clients.lookup a =
      if a ∈ es.map (·.1) then none else s.clients.lookup a := by
  induction es generalizing s with
  | nil => simp
  | cons e es ih =>
    rw [List.map_cons, List.nodup_cons] at hnodup
    have hstep : s.shutdownClient e =
        { s with clients := s.clients.erase e.1, closed := s.closed ++ [e.2] } := by
      rw [shutdownClient, closeSend, if_neg (hopen e (by simp))]
    rw [List.foldl_cons, hstep]
    obtain ⟨hclosed, hpanicked, hlookup⟩ := ih
      { s with clients := s.clients.erase e.1, closed := s.closed ++ [e.2] } (by
        intro e' he'
        simp only [List.mem_append, List.mem_singleton, not_or]
        refine ⟨hopen e' (by simp [he']), fun heq => hnodup.1 ?_⟩
        exact heq ▸ List.mem_map_of_mem he') hnodup.2
    refine ⟨by rw [hclosed]; simp, hpanicked, fun a => ?_⟩
    rw [hlookup a]
    by_cases ha : a = e.1
    · subst ha
      simp
    · rw [List.map_cons, AList.lookup_erase_ne ha]
      simp only [List.mem_cons, ha, false_or]

theorem Consistent.shutdown (h : Consistent address s) :
    s.shutdown.closed = s.closed ++ s.clients.entries.map (·.2) ∧
    s.shutdown.panicked = false ∧ (∀ a, s.shutdown.clients.lookup a = none) ∧
    (s.clients.entries.map (·.2)).Nodup := by
  have hlookup : ∀ e ∈ s.clients.entries, s.clients.lookup e.1 = some e.2 := fun e he =>
    AList.mem_lookup_iff.2 he
  have hkeys : s.clients.entries.map (fun e => address e.2) = s.clients.entries.map (·.1) :=
    List.map_congr_left fun e he => h.address e.1 e.2 (hlookup e he)
  have hnodup : (s.clients.entries.map (·.2)).Nodup := by
    refine List.Nodup.of_map address ?_
    rw [List.map_map]
    exact hkeys ▸ s.clients.nodupKeys
  obtain ⟨hclosed, hpanicked, htable⟩ := foldl_shutdownClient s.clients.entries s
    (fun e he => h.opened e.1 e.2 (hlookup e he)) hnodup
  refine ⟨hclosed, hpanicked.trans h.alive, fun a => ?_, hnodup⟩
  rw [RunLoop.shutdown, htable]
  by_cases ha : a ∈ s.clients.entries.map (·.1)
  · rw [if_pos ha]
  · rw [if_neg ha]
    exact AList.lookup_eq_none.2 ha

end Shutdown

/-- What one event keeps: the loop stays consistent, and the channels it closes are those of
the clients that leave the table. -/
structure Handled (address : κ → String) (s t : RunLoop κ) (registered : List κ) : Prop where
  consistent : Consistent address t
  known : Known t registered
  closes : ∀ c, c ∈ t.closed ∧ c ∉ s.closed ↔ Leaves address s t c

theorem Consistent.handles_register (h : Consistent address s) {l : List κ} (hl : Known s l)
    (hc : c ∉ l) : Handled address s (s.register address c).1 (l ++ [c]) where
  consistent := h.register fun hclosed => hc (hl c (.inl hclosed))
  known := hl.register c
  closes d := by
    rw [register_closed]
    exact ⟨fun hd => absurd hd.1 hd.2, fun hd => absurd hd not_leaves_register⟩

theorem Consistent.handles_stale (h : Consistent address s) {l : List κ} (hl : Known s l)
    (hc : s.clients.lookup (address c) ≠ some c) :
    Handled address s (s.unregister address c) l := by
  rw [unregister_stale hc]
  exact ⟨h, hl, fun d => ⟨fun hd => absurd hd.1 hd.2, fun hd => absurd hd.1 (hd.2 _)⟩⟩

theorem Consistent.handles_unregister (h : Consistent address s) {l : List κ} (hl : Known s l)
    (hc : s.clients.lookup (address c) = some c) :
    Handled address s (s.unregister address c) l := by
  have hleft : ∀ {a d}, (s.clients.erase (address c)).lookup a = some d →
      d ≠ c ∧ s.clients.lookup a = some d := by
    intro a d hd
    obtain ⟨hne, hold⟩ := lookup_erase_cases hd
    refine ⟨?_, hold⟩
    rintro rfl
    exact hne (h.address a d hold).symm
  rw [h.unregister_eq hc]
  refine ⟨⟨fun a d hd => h.address a d (hleft hd).2, ?_, ?_, h.alive⟩, ?_, fun d => ?_⟩
  · intro a d hd
    obtain ⟨hne, hold⟩ := hleft hd
    simp [hne, h.opened a d hold]
  · refine List.nodup_append.2 ⟨h.once, List.nodup_singleton _, ?_⟩
    rintro d hd _ hdc rfl
    exact h.opened _ c hc (List.mem_singleton.1 hdc ▸ hd)
  · rintro d (hd | ⟨a, hd⟩)
    · rcases List.mem_append.1 hd with hd | hd
      · exact hl d (.inl hd)
      · exact hl d (.inr ⟨_, List.mem_singleton.1 hd ▸ hc⟩)
    · exact hl d (.inr ⟨a, (hleft hd).2⟩)
  · simp only [Leaves, List.mem_append, List.mem_singleton]
    constructor
    · rintro ⟨hd | rfl, hnot⟩
      · exact absurd hd hnot
      · exact ⟨hc, fun a ha => (hleft ha).1 rfl⟩
    · rintro ⟨hd, hgone⟩
      refine ⟨.inr ?_, h.opened _ d hd⟩
      by_contra hne
      have haddr : address d ≠ address c := by
        intro heq
        rw [heq, hc] at hd
        exact hne (Option.some.inj hd).symm
      exact hgone (address d) (by rw [AList.lookup_erase_ne haddr]; exact hd)

theorem Consistent.handles_shutdown (h : Consistent address s) {l : List κ} (hl : Known s l) :
    Handled address s s.shutdown l := by
  obtain ⟨hclosed, hpanicked, htable, hnodup⟩ := h.shutdown
  have hlisted : ∀ c, c ∈ s.clients.entries.map (·.2) ↔
      s.clients.lookup (address c) = some c := by
    intro c
    constructor
    · intro hc
      obtain ⟨e, he, rfl⟩ := List.mem_map.1 hc
      have hlookup : s.clients.lookup e.1 = some e.2 := AList.mem_lookup_iff.2 he
      rwa [h.address e.1 e.2 hlookup]
    · intro hc
      exact List.mem_map.2 ⟨⟨address c, c⟩, AList.mem_lookup_iff.1 hc, rfl⟩
  refine ⟨⟨by simp [htable], by simp [htable], ?_, hpanicked⟩, ?_, fun c => ?_⟩
  · rw [hclosed]
    refine List.nodup_append.2 ⟨h.once, hnodup, ?_⟩
    rintro c hc _ hc' rfl
    exact h.opened _ c ((hlisted c).1 hc') hc
  · rintro c (hc | ⟨a, hc⟩)
    · rw [hclosed, List.mem_append, hlisted] at hc
      exact hl c (hc.imp_right fun hc => ⟨_, hc⟩)
    · simp [htable] at hc
  · simp only [Leaves, hclosed, htable, List.mem_append, hlisted, ne_eq, reduceCtorEq,
      not_false_eq_true, implies_true, and_true]
    constructor
    · rintro ⟨hc | hc, hnot⟩
      · exact absurd hc hnot
      · exact hc
    · exact fun hc => ⟨.inr hc, h.opened _ c hc⟩

/-- One event, for a client that is not registered a second time. -/
theorem Consistent.handles (h : Consistent address s) {x : RunEvent κ} {l : List κ}
    (hl : Known s l) (hx : ∀ c ∈ x.registers, c ∉ l) (hs : s.step address x = some t) :
    Handled address s t (l ++ x.registers.toList) := by
  unfold RunLoop.step at hs
  split at hs
  · simp at hs
  cases x with
  | register c =>
    obtain rfl := Option.some.inj hs
    exact h.handles_register hl (hx c rfl)
  | unregister c =>
    obtain rfl := Option.some.inj hs
    simp only [RunEvent.registers, Option.toList_none, List.append_nil]
    by_cases hc : s.clients.lookup (address c) = some c
    · exact h.handles_unregister hl hc
    · exact h.handles_stale hl hc
  | shutdown =>
    obtain rfl := Option.some.inj hs
    simp only [RunEvent.registers, Option.toList_none, List.append_nil]
    exact h.handles_shutdown hl

theorem consistent_run {l : List (RunEvent κ)}
    (hrun : Run (step address) (fun _ _ => True) new l s)
    (honce : (l.filterMap RunEvent.registers).Nodup) :
    Consistent address s ∧ Known s (l.filterMap RunEvent.registers) := by
  induction hrun with
  | nil => exact ⟨consistent_new, by simp [Known, new]⟩
  | snoc hrun hok hs ih =>
    rename_i l t u x
    rw [List.filterMap_append, List.nodup_append] at honce
    obtain ⟨hold, -, hfresh⟩ := honce
    obtain ⟨hcons, hknown⟩ := ih hold
    have hx : ∀ c ∈ x.registers, c ∉ l.filterMap RunEvent.registers := fun c hc hmem =>
      hfresh c hmem c (List.mem_filterMap.2 ⟨x, by simp, hc⟩) rfl
    have hsplit : (l ++ [x]).filterMap RunEvent.registers =
        l.filterMap RunEvent.registers ++ x.registers.toList := by
      cases hreg : x.registers <;> simp [hreg]
    have hnext := hcons.handles hknown hx hs
    exact ⟨hnext.consistent, hsplit ▸ hnext.known⟩

/-- Over every sequence of events in which no client is registered twice: the table and the
channels stay consistent, a registration for a held address fails and changes nothing, a stale
unregistration changes nothing, and a channel is closed exactly when its client leaves. -/
theorem routing_table_kept (address : κ → String) {l : List (RunEvent κ)} {s : RunLoop κ}
    (hrun : Run (step address) (fun _ _ => True) new l s)
    (honce : (l.filterMap RunEvent.registers).Nodup) :
    Consistent address s ∧
    (∀ c d, s.clients.lookup (address c) = some d → d ≠ c →
      s.register address c = (s, some .addressInUse)) ∧
    (∀ c, s.clients.lookup (address c) ≠ some c → s.unregister address c = s) ∧
    ∀ x t, s.step address x = some t →
      (∀ c ∈ x.registers, c ∉ l.filterMap RunEvent.registers) →
      ∀ c, c ∈ t.closed ∧ c ∉ s.closed ↔ Leaves address s t c := by
  obtain ⟨hcons, hknown⟩ := consistent_run hrun honce
  exact ⟨hcons, fun c d hd hne => register_taken hd hne, fun c hc => unregister_stale hc,
    fun x t hs hx => (hcons.handles hknown hx hs).closes⟩

/-- Two clients of one address and a third: the second is refused, leaves without harm, and the
shutdown closes the other two. -/
def sharedAddress : List (RunEvent (Fin 3)) :=
  [.register 0, .register 1, .unregister 1, .register 2, .unregister 0, .unregister 0, .shutdown]

def sharedLoop : RunLoop (Fin 3) :=
  (exec (step fun c => if c = 2 then "b" else "a") (fun _ _ => True) new sharedAddress).get
    (by decide +kernel)

theorem routing_table_kept_shared :
    sharedLoop.closed = [0, 2] ∧
      Consistent (fun c => if c = 2 then "b" else "a") sharedLoop := by
  have hrun : Run (step fun c : Fin 3 => if c = 2 then "b" else "a") (fun _ _ => True) new
      sharedAddress sharedLoop := .of_exec (Option.some_get _).symm
  exact ⟨by decide +kernel, (routing_table_kept _ hrun (by decide +kernel)).1⟩

end RunLoop

namespace Hub

variable {s t : Hub} {label : HubLabel}

/-- The table and the channels of the hub as the loop sees them. -/
structure Shows (s : Hub) (r : RunLoop ℕ) : Prop where
  table : ∀ a, r.clients.lookup a = s.clients a
  closed : ∀ c, c ∈ r.closed ↔ c < s.nextClient ∧ (s.heap c).closed = true
  running : r.panicked = false ∧ r.stopped = false

theorem Shows.of_same {r : RunLoop ℕ} (h : Shows s r) (hclients : t.clients = s.clients)
    (hnext : t.nextClient = s.nextClient) (hclosed : ∀ c, (t.heap c).closed = (s.heap c).closed) :
    Shows t r :=
  ⟨fun a => by rw [h.table, hclients], fun c => by rw [h.closed, hnext, hclosed], h.running⟩

theorem Shows.register {r : RunLoop ℕ} {a : String} {address : ℕ → String} {run : RunPc}
    {x : Client} (h : Shows s r) (ha : s.clients a = none) (haddr : address s.nextClient = a)
    (hx : x.closed = false := by rfl) :
    Shows ({ s with
      clients := Function.update s.clients a (some s.nextClient)
      nextClient := s.nextClient + 1
      run := run }.modify s.nextClient fun _ => x) (r.register address s.nextClient).1 := by
  rw [RunLoop.register_eq (by simp [haddr, h.table, ha]), haddr]
  refine ⟨fun b => ?_, fun c => ?_, h.running⟩
  · by_cases hb : b = a
    · subst hb
      simp
    · simp [AList.lookup_insert_ne hb, hb, h.table]
  · by_cases hc : c = s.nextClient
    · simp [hc, h.closed, hx]
    · have hlt : c < s.nextClient + 1 ↔ c < s.nextClient := by omega
      simp [h.closed, heap_modify_of_ne hc, hlt]

/-- The loop takes out a client that the hub closes. -/
theorem Shows.unregister {r : RunLoop ℕ} {c : ℕ} {f : Client → Client} {address : ℕ → String}
    {run : RunPc} (h : Shows s r) (htidy : Tidy s)
    (htable : s.clients (s.heap c).address = some c) (haddr : address c = (s.heap c).address)
    (hf : ∀ x, (f x).closed = true := by intro; rfl) :
    Shows ({ s with
      clients := Function.update s.clients (s.heap c).address none
      run := run }.modify c f) (r.unregister address c) := by
  have hopen := htidy.opened _ c htable
  have hc : c ∉ r.closed := by simp [h.closed, hopen]
  have hlookup : r.clients.lookup (address c) = some c := by rw [h.table, haddr, htable]
  rw [RunLoop.unregister, if_pos hlookup, RunLoop.closeSend, if_neg hc]
  refine ⟨fun a => ?_, fun d => ?_, h.running⟩
  · by_cases ha : a = address c
    · subst ha
      rw [AList.lookup_erase, haddr]
      simp
    · rw [AList.lookup_erase_ne ha, h.table]
      simp [haddr ▸ ha]
  · rw [List.mem_append, List.mem_singleton, h.closed]
    by_cases hd : d = c
    · subst hd
      simp [hf, htidy.born _ d htable]
    · simp [hd, heap_modify_of_ne hd]

/-- Every run of the hub is one of the loop. -/
theorem shown_by_loop {mq : MessageQueue Parcel} {blockStore : BlockStore} {l : List HubLabel}
    (h : FreeRun (start mq blockStore) l s) (address : ℕ → String)
    (haddr : ∀ c < s.nextClient, address c = (s.heap c).address) :
    Tidy s ∧ ∃ events r, Run (RunLoop.step address) (fun _ _ => True) .new events r ∧
      events.filterMap RunEvent.registers = List.range s.nextClient ∧ Shows s r := by
  induction h with
  | nil =>
    exact ⟨.start mq blockStore, [], .new, .nil, rfl, ⟨by simp [RunLoop.new, Hub.start],
      by simp [RunLoop.new, Hub.start], rfl, rfl⟩⟩
  | snoc hrun hok hstep ih =>
    rename_i l s t label
    obtain ⟨-, hs⟩ := Step.of_step hstep
    have hbefore : ∀ c < s.nextClient, address c = (s.heap c).address := fun c hc => by
      rw [haddr c (hc.trans_le hs.nextClient_le), hs.address_eq hc]
    obtain ⟨htidy, events, r, hevents, hregisters, hshows⟩ := ih hbefore
    refine ⟨hs.tidy htidy, ?_⟩
    have hrunning : ¬ (r.panicked = true ∨ r.stopped = true) := by simp [hshows.running]
    have hsame (hclients : t.clients = s.clients) (hnext : t.nextClient = s.nextClient)
        (hclosed : ∀ c, (t.heap c).closed = (s.heap c).closed) :
        ∃ events r, Run (RunLoop.step address) (fun _ _ => True) .new events r ∧
          events.filterMap RunEvent.registers = List.range t.nextClient ∧ Shows t r :=
      ⟨events, r, hevents, by rw [hregisters, hnext], hshows.of_same hclients hnext hclosed⟩
    have hleaves (c : ℕ) (hnext : t.nextClient = s.nextClient)
        (hshown : Shows t (r.unregister address c)) :
        ∃ events r, Run (RunLoop.step address) (fun _ _ => True) .new events r ∧
          events.filterMap RunEvent.registers = List.range t.nextClient ∧ Shows t r :=
      ⟨_, _, .snoc (x := .unregister c) hevents trivial (by rw [RunLoop.step, if_neg hrunning]),
        by simp [hregisters, hnext, RunEvent.registers], hshown⟩
    cases hs with
    | registered hrun ha =>
      rename_i a
      have hnew : address s.nextClient = a := by simpa using haddr s.nextClient (by simp)
      refine ⟨_, _, .snoc (x := .register s.nextClient) hevents trivial
        (by rw [RunLoop.step, if_neg hrunning]), ?_, hshows.register ha hnew⟩
      simp [hregisters, RunEvent.registers, List.range_succ]
    | unregistered hrun hstage htable =>
      rename_i c
      exact hleaves c rfl (hshows.unregister htidy htable (hbefore c (htidy.born _ c htable)))
    | shutdownClosed hrun htable =>
      rename_i c
      exact hleaves c rfl (hshows.unregister htidy htable (hbefore c (htidy.born _ c htable)))
    | _ => exact hsame (by simp) (by simp) (by simp)

end Hub

end Pinch
