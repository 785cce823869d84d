import Pinch.QueueOrder

/-! Who a forwarded envelope says it is from. The relay knows the authenticated address of
the client that sent it, and forwards the bytes as they are. -/

namespace Pinch

/-- The types that agents send each other through the relay. -/
def MessageType.betweenClients : MessageType → Bool
  | .message | .deliveryConfirm | .connectionRequest | .connectionResponse | .connectionRevoke =>
    true
  | _ => false

/-- The call is on its way to a recipient. -/
def RoutePc.forwards : RoutePc → Bool
  | .reply _ | .block _ | .unblock _ => false
  | _ => true

/-- The authenticated sender of a forwarded frame, and the frame. -/
def Item.origin : Item → Option (String × Frame)
  | .direct sender parcel | .queued _ sender parcel => some (sender, parcel.frame)
  | .control _ => none

namespace Hub

open Transition

variable {s t : Hub} {label : HubLabel} {Q : String → Frame → Prop}

/-- Whatever is on its way, waits or was placed has a property that the sender and the
frame were checked for. -/
structure Vouched (Q : String → Frame → Prop) (s : Hub) : Prop where
  called : ∀ c call, (s.heap c).route = some call → call.pc.forwards = true →
    Q (s.heap c).address call.parcel.frame
  queued : ∀ a e, Queued s a e → Q e.senderAddr e.envelope.frame
  placed : ∀ p ∈ s.placed, ∀ o ∈ p.item.origin, Q o.1 o.2

def vouches (Q : String → Frame → Prop) (s : Hub) : HubLabel → Prop
  | .route c frame allowed => (routeMessage frame allowed).any RoutePc.forwards = true →
      Q (s.heap c).address frame
  | _ => True

theorem RouteMove.forwards {sender : String} {pc : RoutePc} {p : Option RoutePc}
    (h : RouteMove s sender pc p) : pc.forwards = true := by
  cases h <;> rfl

namespace Step

theorem vouched_called (hs : Step s label t) (h : Vouched Q s) (hok : s.vouches Q label) :
    ∀ c call, (t.heap c).route = some call → call.pc.forwards = true →
      Q (t.heap c).address call.parcel.frame := by
  intro c call hcall hforwards
  cases hs.routeView c with
  | same hroute haddr =>
    rw [haddr]
    exact h.called c call (hroute ▸ hcall) hforwards
  | fresh hc hroute | ended hl hroute => simp [hroute] at hcall
  | called hl hold ht =>
    subst ht hl
    obtain ⟨pc, hpc, rfl⟩ := Option.map_eq_some_iff.mp (by simpa using hcall)
    simpa using hok (by simpa [hpc] using hforwards)
  | moved hl hold hmove ht =>
    have hq := h.called c _ hold hmove.forwards
    subst ht
    obtain ⟨pc, -, rfl⟩ := Option.map_eq_some_iff.mp (by simpa using hcall)
    simpa using hq

theorem vouched_placed (hs : Step s label t) (h : Vouched Q s) :
    ∀ p ∈ t.placed, ∀ o ∈ p.item.origin, Q o.1 o.2 := by
  rcases hs.placed_cases with heq | ⟨q, heq, hq⟩
  · rw [heq]
    exact h.placed
  · intro p hp o ho
    rw [heq, List.mem_append, List.mem_singleton] at hp
    rcases hp with hp | rfl
    · exact h.placed p hp o ho
    · cases hq with
      | control hacc => simp [Item.origin] at ho
      | direct hl hacc hroute ht =>
        obtain rfl := Option.some.inj ho
        exact h.called _ _ hroute rfl
      | queued hl hacc hflush ht =>
        rename_i c _ _ e rest
        obtain rfl := Option.some.inj ho
        exact h.queued _ e (.inr ⟨c, rfl, by simp [Client.unsent, FlushPc.unsent, hflush]⟩)

theorem vouched (hs : Step s label t) (h : Vouched Q s) (hok : s.vouches Q label) :
    Vouched Q t where
  called := hs.vouched_called h hok
  queued a e he := by
    rcases hs.queued_before he with hold | ⟨d, now, henq⟩
    · exact h.queued a e hold
    · rw [henq.sender]
      exact h.called d _ henq.route rfl
  placed := hs.vouched_placed h

end Step

theorem Vouched.start {mq : MessageQueue Parcel}
    (h : ∀ a key msg, (key, some msg) ∈ (mq.bucket a).messages → Q msg.senderAddr msg.envelope.frame)
    (blockStore : BlockStore) : Vouched Q (start mq blockStore) where
  called := by simp [Hub.start]
  queued a e he := by
    rcases he with ⟨msg, hmem, he⟩ | ⟨c, -, he⟩
    · rw [he]
      exact h a _ msg hmem
    · simp [Hub.start, Client.unsent] at he
  placed := by simp [Hub.start]

/-- The frame, if it is for another client, names its sender. -/
def Genuine (sender : String) (frame : Frame) : Prop :=
  ∀ env ∈ frame.envelope, env.type.betweenClients = true → env.fromAddress = sender

instance (sender : String) (frame : Frame) : Decidable (Genuine sender frame) :=
  inferInstanceAs (Decidable (∀ env ∈ frame.envelope, _))

instance (s : Hub) (x : HubLabel) : Decidable (s.vouches Genuine x) :=
  match x with
  | .route .. => inferInstanceAs (Decidable (_ → _))
  | .register _ | .run _ | .unregister _ | .signal | .propagate _ | .beginShutdown | .closeNext _
  | .stop | .authResult .. | .readError _ | .routeStep .. | .flushStep .. | .write _ | .sweep _ =>
    isTrue trivial

/-- Where every forwarded frame names its sender when it is handed to `RouteMessage`, so does
every frame that is placed in a channel. -/
theorem placed_genuine {mq : MessageQueue Parcel} {blockStore : BlockStore} {l : List HubLabel}
    (hmq : ∀ a key msg, (key, some msg) ∈ (mq.bucket a).messages →
      Genuine msg.senderAddr msg.envelope.frame)
    (h : Run step (fun s x => s.vouches Genuine x) (start mq blockStore) l s) :
    ∀ p ∈ s.placed, ∀ o ∈ p.item.origin, Genuine o.1 o.2 := by
  refine (h.invariant (P := Vouched Genuine) (.start hmq blockStore) ?_).placed
  intro s label t hv hok hstep
  obtain ⟨-, hs⟩ := Step.of_step hstep
  exact hs.vouched hv hok

/-- A message to "bob" that says it is from `sender`. -/
def signedAs (sender : String) : Frame :=
  ⟨40, some { fromAddress := sender, toAddress := "bob", type := .message }⟩

/-- "mallory" sends while "bob" is away, and again when they are back. -/
def sendTwice (frame : Frame) : List HubLabel :=
  [.register "mallory", .run true, .authResult 0 true, .route 0 frame true, .routeStep 0 0 true,
    .routeStep 0 0 true, .routeStep 0 0 true, .register "bob", .run true, .run true, .run true,
    .flushStep 1 0 true, .flushStep 1 0 true, .flushStep 1 0 true, .flushStep 1 0 true,
    .flushStep 1 0 true, .flushStep 1 0 true, .flushStep 1 0 true, .flushStep 1 0 true,
    .route 0 frame true, .routeStep 0 0 true, .routeStep 0 0 true, .routeStep 0 0 true,
    .routeStep 0 0 true]

def honestLetters : Hub :=
  (exec step (fun s x => s.vouches Genuine x) (start (.new 1000 100) ⟨[]⟩)
    (sendTwice (signedAs "mallory"))).get (by decide +kernel)

theorem placed_genuine_honest :
    honestLetters.placed.filterMap (·.item.origin) =
      [("mallory", signedAs "mallory"), ("mallory", signedAs "mallory")] ∧
    ∀ p ∈ honestLetters.placed, ∀ o ∈ p.item.origin, Genuine o.1 o.2 :=
  ⟨by decide +kernel, placed_genuine (by simp [Bucket.empty])
    (.of_exec (Option.some_get _).symm)⟩

/-- Both ways to "bob" forward what "mallory" sends in the name of "alice". -/
theorem placed_in_anothers_name : ∃ l s,
    Run step (fun _ x => x.succeeds) (start (.new 1000 100) ⟨[]⟩) l s ∧
      s.placed.filterMap (·.item.origin) =
        [("mallory", signedAs "alice"), ("mallory", signedAs "alice")] ∧
      ¬ ∀ p ∈ s.placed, ∀ o ∈ p.item.origin, Genuine o.1 o.2 := by
  refine ⟨_, _, .of_exec (l := sendTwice (signedAs "alice"))
    (Option.some_get (by decide +kernel)).symm, by decide +kernel, by decide +kernel⟩

end Hub

end Pinch
