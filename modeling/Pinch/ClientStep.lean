import Pinch.RelayClient

/-! What one event of a socket, of a timer or of the user does to the client. Most events only move
a handshake on; a promise that is settled may set a reconnect loop going. -/

namespace Pinch

def Socket.alive (x : Socket) : Prop := x.readyState = .opened ∨ x.readyState = .closing

def Socket.shut (x : Socket) : Prop := x.readyState = .closing ∨ x.readyState = .closed

namespace RelayClient

variable {s t : RelayClient} {n m : ℕ} {f : Socket → Socket} {e : ClientEvent}

section Sockets

@[simp]
theorem sockets_modify_self : (s.modify n f).sockets n = f (s.sockets n) := by
  simp [modify]

theorem sockets_modify_of_ne (h : m ≠ n) : (s.modify n f).sockets m = s.sockets m := by
  simp [modify, h]

/-- What holds of every socket still does if the changed one keeps it. -/
theorem forall_sockets_modify {P : ℕ → Socket → Prop} (h : ∀ m, P m (s.sockets m))
    (hf : P n (s.sockets n) → P n (f (s.sockets n))) (m : ℕ) : P m ((s.modify n f).sockets m) :=
  (Function.forall_update_iff s.sockets P).2 ⟨hf (h n), fun m _ => h m⟩ m

theorem forall_sockets_newSocket {P : ℕ → Socket → Prop} {caller : Caller}
    (h : ∀ m, P m (s.sockets m)) (hnew : P s.nextSocket { caller := caller }) (m : ℕ) :
    P m ((s.newSocket caller).sockets m) :=
  (Function.forall_update_iff s.sockets P).2 ⟨hnew, fun m _ => h m⟩ m

/-- A socket that has closed, and the client after its `cleanup()`. -/
def ended (s : RelayClient) (n : ℕ) : RelayClient :=
  (s.modify n fun x => { x with readyState := .closed, authTimer := false, closers := 0 }).cleanup

theorem onClose_eq (s : RelayClient) (n : ℕ) : s.onClose n =
    if (s.sockets n).authState ≠ .done then
      (s.ended n).rejectOnce n "connection closed during auth handshake"
    else if s.authenticated && s.autoReconnect then (s.ended n).attemptReconnect
    else s.ended n := rfl

theorem forall_sockets_ended {P : ℕ → Socket → Prop} (h : ∀ m, P m (s.sockets m))
    (hn : P n (s.sockets n) → P n { s.sockets n with
      readyState := .closed, authTimer := false, closers := 0 }) (m : ℕ) :
    P m ((s.ended n).sockets m) :=
  (Function.forall_update_iff s.sockets P).2 ⟨hn (h n), fun m _ => h m⟩ m

/-- The client once the handshake on `n` has succeeded, before its promise is settled. -/
def authenticate (s : RelayClient) (n : ℕ) (assignedAddress : String) (now : ℤ) : RelayClient :=
  ({ s with
    assignedAddress := some assignedAddress
    authenticated := true
    lastPongTime := now }.modify n fun x =>
      { x with authState := .done, authTimer := false }).startHeartbeat

theorem accept_eq (s : RelayClient) (n : ℕ) (addr : String) (now : ℤ) :
    s.accept n addr now = (s.authenticate n addr now).resolveOnce n := rfl

theorem forall_sockets_authenticate {P : ℕ → Socket → Prop} {addr : String} {now : ℤ}
    (h : ∀ m, P m (s.sockets m))
    (hn : P n (s.sockets n) → P n { s.sockets n with authState := .done, authTimer := false })
    (m : ℕ) : P m ((s.authenticate n addr now).sockets m) :=
  (Function.forall_update_iff s.sockets P).2 ⟨hn (h n), fun m _ => h m⟩ m

theorem sockets_authenticate_self {addr : String} {now : ℤ} :
    (s.authenticate n addr now).sockets n =
      { s.sockets n with authState := .done, authTimer := false } :=
  Function.update_self ..

theorem sockets_authenticate_of_ne {addr : String} {now : ℤ} (h : m ≠ n) :
    (s.authenticate n addr now).sockets m = s.sockets m :=
  Function.update_of_ne h ..

end Sockets

theorem alive_of_receives (h : s.receives n = true) : (s.sockets n).alive := by
  simp only [receives, Bool.and_eq_true, Bool.or_eq_true, decide_eq_true_eq] at h
  exact h.2

theorem shut_sockets_shut : ((s.shut n).sockets n).shut := by
  by_cases hclosed : (s.sockets n).readyState = .closed
  · exact .inr (by simp [shut, hclosed])
  · exact .inl (by simp [shut, hclosed])

/-- A heartbeat at `now` finds no open socket, or no pong in time. -/
def givesUp (s : RelayClient) (now : ℤ) : Bool :=
  match s.ws with
  | none => true
  | some n => (s.sockets n).readyState ≠ .opened ||
    s.heartbeatInterval + s.pongTimeout < now - s.lastPongTime

/-- `t` differs from `s` only in how far its sockets and their handshakes are. -/
structure Quiet (s t : RelayClient) : Prop where
  ws : t.ws = s.ws
  nextSocket : t.nextSocket = s.nextSocket
  userPreparing : t.userPreparing = s.userPreparing
  loopPreparing : t.loopPreparing = s.loopPreparing
  waiting : t.waiting = s.waiting
  authenticated : t.authenticated = s.authenticated
  autoReconnect : t.autoReconnect = s.autoReconnect
  disconnectHandler : s.disconnectHandler = true → t.disconnectHandler = true
  handlerCalled : t.handlerCalled = s.handlerCalled
  caller : ∀ n, (t.sockets n).caller = (s.sockets n).caller
  outcome : ∀ n, (t.sockets n).outcome = (s.sockets n).outcome
  closers : ∀ n, (s.sockets n).closers = 0 → (t.sockets n).closers = 0
  done : ∀ n, (t.sockets n).authState = .done ↔ (s.sockets n).authState = .done
  alive : ∀ n, (s.sockets n).alive → (t.sockets n).alive
  shut : ∀ n, (s.sockets n).shut → (t.sockets n).shut

namespace Quiet

theorem refl (s : RelayClient) : Quiet s s :=
  ⟨rfl, rfl, rfl, rfl, rfl, rfl, rfl, id, rfl, fun _ => rfl, fun _ => rfl, fun _ => id,
    fun _ => Iff.rfl, fun _ => id, fun _ => id⟩

theorem trans {u : RelayClient} (h : Quiet s t) (h' : Quiet t u) : Quiet s u where
  ws := h'.ws.trans h.ws
  nextSocket := h'.nextSocket.trans h.nextSocket
  userPreparing := h'.userPreparing.trans h.userPreparing
  loopPreparing := h'.loopPreparing.trans h.loopPreparing
  waiting := h'.waiting.trans h.waiting
  authenticated := h'.authenticated.trans h.authenticated
  autoReconnect := h'.autoReconnect.trans h.autoReconnect
  disconnectHandler := h'.disconnectHandler ∘ h.disconnectHandler
  handlerCalled := h'.handlerCalled.trans h.handlerCalled
  caller n := (h'.caller n).trans (h.caller n)
  outcome n := (h'.outcome n).trans (h.outcome n)
  closers n := h'.closers n ∘ h.closers n
  done n := (h'.done n).trans (h.done n)
  alive n := h'.alive n ∘ h.alive n
  shut n := h'.shut n ∘ h.shut n

theorem modify (hcaller : (f (s.sockets n)).caller = (s.sockets n).caller)
    (houtcome : (f (s.sockets n)).outcome = (s.sockets n).outcome)
    (hclosers : (s.sockets n).closers = 0 → (f (s.sockets n)).closers = 0)
    (hdone : (f (s.sockets n)).authState = .done ↔ (s.sockets n).authState = .done)
    (halive : (s.sockets n).alive → (f (s.sockets n)).alive)
    (hshut : (s.sockets n).shut → (f (s.sockets n)).shut) : Quiet s (s.modify n f) := by
  have hkeeps := forall_sockets_modify (s := s) (n := n) (f := f)
    (P := fun m x => x.caller = (s.sockets m).caller ∧ x.outcome = (s.sockets m).outcome ∧
      ((s.sockets m).closers = 0 → x.closers = 0) ∧
      (x.authState = .done ↔ (s.sockets m).authState = .done) ∧
      ((s.sockets m).alive → x.alive) ∧ ((s.sockets m).shut → x.shut))
    (fun _ => ⟨rfl, rfl, id, Iff.rfl, id, id⟩)
    (fun _ => ⟨hcaller, houtcome, hclosers, hdone, halive, hshut⟩)
  exact { refl s with
    caller := fun m => (hkeeps m).1
    outcome := fun m => (hkeeps m).2.1
    closers := fun m => (hkeeps m).2.2.1
    done := fun m => (hkeeps m).2.2.2.1
    alive := fun m => (hkeeps m).2.2.2.2.1
    shut := fun m => (hkeeps m).2.2.2.2.2 }

theorem clearAuthTimer (s : RelayClient) (n : ℕ) : Quiet s (s.clearAuthTimer n) :=
  modify rfl rfl id Iff.rfl id id

theorem shutSocket (s : RelayClient) (n : ℕ) : Quiet s (s.shut n) := by
  refine modify rfl rfl id Iff.rfl ?_ ?_
  · rintro (h | h)
    · exact .inr (by simp [h])
    · exact .inr (by simp [h])
  · rintro (h | h)
    · exact .inl (by simp [h])
    · exact .inr (by simp [h])

theorem shutCurrent (s : RelayClient) : Quiet s s.shutCurrent := by
  unfold RelayClient.shutCurrent
  split
  · exact refl s
  · exact shutSocket s _

end Quiet

/-- What one event does. -/
inductive Effect (s : RelayClient) : ClientEvent → RelayClient → Prop
  | quiet {e : ClientEvent} {t : RelayClient} (h : Quiet s t) : Effect s e t
  | rejected {e : ClientEvent} {t : RelayClient} {n : ℕ} {err : String} (h : Quiet s t) :
      Effect s e (t.rejectOnce n err)
  | accepted {n : ℕ} {m : HandshakeMessage} {now : ℤ} {addr : String}
      (hreceives : s.receives n = true) (hstate : (s.sockets n).authState ≠ .done) :
      Effect s (.message n m now) (s.accept n addr now)
  | closed {n : ℕ} (hclosed : (s.sockets n).readyState ≠ .closed) :
      Effect s (.closed n) (s.onClose n)
  | gaveUp {now : ℤ} {t : RelayClient} (hgives : s.givesUp now = true) (h : Quiet s t) :
      Effect s (.tick now) t.cleanup
  | called : Effect s .connect { s with userPreparing := s.userPreparing + 1 }
  | dialled (h : 0 < s.userPreparing) :
      Effect s (.ready .user) ({ s with userPreparing := s.userPreparing - 1 }.newSocket .user)
  | redialled (h : 0 < s.loopPreparing) :
      Effect s (.ready .loop) ({ s with loopPreparing := s.loopPreparing - 1 }.newSocket .loop)
  | backedOff (h : 0 < s.waiting) :
      Effect s .backoff { s with waiting := s.waiting - 1, loopPreparing := s.loopPreparing + 1 }
  | disconnected : Effect s .disconnect s.disconnect
  | disconnectedAsync : Effect s .disconnectAsync s.disconnectAsync
  | asyncTimedOut {n : ℕ} (h : 0 < (s.sockets n).closers) :
      Effect s (.asyncTimeout n) (s.onAsyncTimeout n)

namespace Effect

theorem refuse (s : RelayClient) (e : ClientEvent) (n : ℕ) (err : String) :
    Effect s e (s.refuse n err) :=
  .rejected ((Quiet.clearAuthTimer s n).trans (Quiet.shutCurrent _))

theorem of_onMessage {n : ℕ} {m : HandshakeMessage} {now : ℤ} (hreceives : s.receives n = true) :
    Effect s (.message n m now) (s.onMessage n m now) := by
  unfold onMessage
  split
  · rename_i hstate
    split
    · exact refuse s _ n _
    · split
      · exact .quiet (Quiet.modify rfl rfl id (by simp [hstate]) id id)
      · exact refuse s _ n _
  · rename_i hstate
    split
    · exact refuse s _ n _
    · split
      · exact refuse s _ n _
      · exact refuse s _ n _
      · exact refuse s _ n _
      · exact .accepted hreceives (by simp [hstate])
  · exact .quiet (Quiet.refl s)

theorem of_onTick (now : ℤ) : Effect s (.tick now) (s.onTick now) := by
  unfold onTick
  split
  · rename_i hws
    exact .gaveUp (by simp [givesUp, hws]) (Quiet.refl s)
  · rename_i n hws
    split
    · rename_i hopen
      exact .gaveUp (by simp [givesUp, hws, hopen]) (Quiet.refl s)
    · split
      · rename_i hlate
        exact .gaveUp (by simp [givesUp, hws, hlate]) (Quiet.shutSocket s n)
      · exact .quiet (Quiet.refl s)

theorem of_step (h : s.step e = some t) : Effect s e t := by
  cases e with
  | connect =>
    obtain rfl := Option.some.inj h
    exact .called
  | ready caller =>
    cases caller with
    | user =>
      obtain ⟨hpos, ⟨⟩⟩ := Option.ite_none_right_eq_some.1 h
      exact .dialled hpos
    | loop =>
      obtain ⟨hpos, ⟨⟩⟩ := Option.ite_none_right_eq_some.1 h
      exact .redialled hpos
  | opened n =>
    obtain ⟨⟨-, hstate⟩, ⟨⟩⟩ := Option.ite_none_right_eq_some.1 h
    refine .quiet (Quiet.modify rfl rfl id Iff.rfl (fun _ => .inl rfl) ?_)
    rintro (hshut | hshut) <;> simp [hstate] at hshut
  | message n m now =>
    obtain ⟨hreceives, ⟨⟩⟩ := Option.ite_none_right_eq_some.1 h
    exact of_onMessage hreceives
  | pong n now =>
    obtain ⟨-, ⟨⟩⟩ := Option.ite_none_right_eq_some.1 h
    exact .quiet { Quiet.refl s with }
  | peerClose n =>
    obtain ⟨-, ⟨⟩⟩ := Option.ite_none_right_eq_some.1 h
    exact .quiet (Quiet.shutSocket s n)
  | closed n =>
    obtain ⟨⟨-, hclosed⟩, ⟨⟩⟩ := Option.ite_none_right_eq_some.1 h
    exact .closed hclosed
  | error n err =>
    obtain ⟨-, ⟨⟩⟩ := Option.ite_none_right_eq_some.1 h
    exact .rejected ((Quiet.clearAuthTimer s n).trans (Quiet.shutSocket _ n))
  | authTimeout n =>
    obtain ⟨-, ⟨⟩⟩ := Option.ite_none_right_eq_some.1 h
    exact refuse s _ n _
  | tick now =>
    obtain ⟨-, ⟨⟩⟩ := Option.ite_none_right_eq_some.1 h
    exact of_onTick now
  | backoff =>
    obtain ⟨hpos, ⟨⟩⟩ := Option.ite_none_right_eq_some.1 h
    exact .backedOff hpos
  | onDisconnect =>
    obtain rfl := Option.some.inj h
    exact .quiet { Quiet.refl s with disconnectHandler := fun _ => rfl }
  | disconnect =>
    obtain rfl := Option.some.inj h
    exact .disconnected
  | disconnectAsync =>
    obtain rfl := Option.some.inj h
    exact .disconnectedAsync
  | asyncTimeout n =>
    obtain ⟨hpos, ⟨⟩⟩ := Option.ite_none_right_eq_some.1 h
    exact .asyncTimedOut hpos

end Effect

/-- `t` is `s` after a promise was settled, or a loop went on. -/
structure Settling (s t : RelayClient) : Prop where
  ws : t.ws = s.ws
  nextSocket : t.nextSocket = s.nextSocket
  userPreparing : t.userPreparing = s.userPreparing
  loopPreparing : t.loopPreparing = s.loopPreparing
  waiting_le : s.waiting ≤ t.waiting
  authenticated : t.authenticated = s.authenticated
  autoReconnect : t.autoReconnect = s.autoReconnect
  disconnectHandler : t.disconnectHandler = s.disconnectHandler
  handlerCalled : s.handlerCalled = true → t.handlerCalled = true
  caller : ∀ n, (t.sockets n).caller = (s.sockets n).caller
  closers : ∀ n, (t.sockets n).closers = (s.sockets n).closers
  authState : ∀ n, (t.sockets n).authState = (s.sockets n).authState
  readyState : ∀ n, (t.sockets n).readyState = (s.sockets n).readyState
  outcome : ∀ n, (s.sockets n).outcome ≠ none → (t.sockets n).outcome ≠ none

namespace Settling

theorem refl (s : RelayClient) : Settling s s :=
  ⟨rfl, rfl, rfl, rfl, Nat.le_refl _, rfl, rfl, rfl, id, fun _ => rfl, fun _ => rfl, fun _ => rfl,
    fun _ => rfl, fun _ => id⟩

theorem attemptReconnect (s : RelayClient) : Settling s s.attemptReconnect := by
  unfold RelayClient.attemptReconnect
  split
  · exact { refl s with waiting_le := Nat.le_succ _ }
  · split
    · exact { refl s with handlerCalled := fun _ => rfl }
    · exact refl s

theorem settle (s : RelayClient) (n : ℕ) (outcome : Except String Unit) (attempt : ℕ) :
    Settling s { s.settle n outcome with reconnectAttempt := attempt } := by
  have hkeeps := forall_sockets_modify (s := s) (n := n)
    (f := fun x => { x with outcome := some outcome })
    (P := fun m x => x.caller = (s.sockets m).caller ∧ x.closers = (s.sockets m).closers ∧
      x.authState = (s.sockets m).authState ∧ x.readyState = (s.sockets m).readyState ∧
      ((s.sockets m).outcome ≠ none → x.outcome ≠ none))
    (fun _ => ⟨rfl, rfl, rfl, rfl, id⟩) (fun _ => ⟨rfl, rfl, rfl, rfl, fun _ => by simp⟩)
  exact { refl s with
    caller := fun m => (hkeeps m).1
    closers := fun m => (hkeeps m).2.1
    authState := fun m => (hkeeps m).2.2.1
    readyState := fun m => (hkeeps m).2.2.2.1
    outcome := fun m => (hkeeps m).2.2.2.2 }

theorem trans {u : RelayClient} (h : Settling s t) (h' : Settling t u) : Settling s u where
  ws := h'.ws.trans h.ws
  nextSocket := h'.nextSocket.trans h.nextSocket
  userPreparing := h'.userPreparing.trans h.userPreparing
  loopPreparing := h'.loopPreparing.trans h.loopPreparing
  waiting_le := Nat.le_trans h.waiting_le h'.waiting_le
  authenticated := h'.authenticated.trans h.authenticated
  autoReconnect := h'.autoReconnect.trans h.autoReconnect
  disconnectHandler := h'.disconnectHandler.trans h.disconnectHandler
  handlerCalled := h'.handlerCalled ∘ h.handlerCalled
  caller n := (h'.caller n).trans (h.caller n)
  closers n := (h'.closers n).trans (h.closers n)
  authState n := (h'.authState n).trans (h.authState n)
  readyState n := (h'.readyState n).trans (h.readyState n)
  outcome n := h'.outcome n ∘ h.outcome n

theorem rejectOnce (s : RelayClient) (n : ℕ) (err : String) : Settling s (s.rejectOnce n err) := by
  unfold RelayClient.rejectOnce
  split
  · exact refl s
  · exact settle s n _ s.reconnectAttempt
  · exact (settle s n _ _).trans (attemptReconnect _)

theorem resolveOnce (s : RelayClient) (n : ℕ) : Settling s (s.resolveOnce n) := by
  unfold RelayClient.resolveOnce
  split
  · exact refl s
  · exact settle s n _ s.reconnectAttempt
  · exact settle s n _ _

end Settling

theorem rejectOnce_of_loop {err : String} (hcaller : (s.sockets n).caller = .loop)
    (houtcome : (s.sockets n).outcome = none) : s.rejectOnce n err =
      { s.settle n (.error err) with
        reconnectAttempt := s.reconnectAttempt + 1 }.attemptReconnect := by
  rw [rejectOnce, hcaller, houtcome]

/-- A promise that no loop awaits is settled and nothing follows. -/
theorem rejectOnce_waiting {err : String}
    (h : (s.sockets n).caller = .loop → (s.sockets n).outcome ≠ none) :
    (s.rejectOnce n err).waiting = s.waiting := by
  unfold rejectOnce
  split
  · rfl
  · rfl
  · rename_i houtcome hcaller
    exact absurd houtcome (h hcaller)

theorem outcome_settle_of_ne {outcome : Except String Unit} (h : m ≠ n) :
    ((s.settle n outcome).sockets m).outcome = (s.sockets m).outcome := by
  rw [settle, sockets_modify_of_ne h]

theorem sockets_attemptReconnect (s : RelayClient) : s.attemptReconnect.sockets = s.sockets := by
  unfold attemptReconnect
  split
  · rfl
  · split <;> rfl

theorem outcome_rejectOnce_of_ne {err : String} (h : m ≠ n) :
    ((s.rejectOnce n err).sockets m).outcome = (s.sockets m).outcome := by
  unfold rejectOnce
  split
  · rfl
  · exact outcome_settle_of_ne h
  · rw [sockets_attemptReconnect]
    exact outcome_settle_of_ne h

theorem outcome_resolveOnce_of_ne (h : m ≠ n) :
    ((s.resolveOnce n).sockets m).outcome = (s.sockets m).outcome := by
  unfold resolveOnce
  split
  · rfl
  · exact outcome_settle_of_ne h
  · exact outcome_settle_of_ne h

theorem settled_resolveOnce (s : RelayClient) (n : ℕ) :
    ((s.resolveOnce n).sockets n).outcome ≠ none := by
  unfold resolveOnce
  split
  · rename_i outcome _ houtcome
    simp [houtcome]
  · simp [settle]
  · simp [settle]

theorem waiting_resolveOnce (s : RelayClient) (n : ℕ) :
    (s.resolveOnce n).waiting = s.waiting := by
  unfold resolveOnce
  split <;> rfl

theorem userPreparing_onClose (s : RelayClient) (n : ℕ) :
    (s.onClose n).userPreparing = s.userPreparing := by
  rw [onClose_eq]
  split
  · exact (Settling.rejectOnce _ n _).userPreparing
  · split
    · exact (Settling.attemptReconnect _).userPreparing
    · rfl

theorem onTick_of_givesUp {now : ℤ} (h : s.givesUp now = true) :
    ∃ t, Quiet s t ∧ s.onTick now = t.cleanup := by
  unfold onTick
  split
  · exact ⟨s, Quiet.refl s, rfl⟩
  · rename_i n hws
    split
    · exact ⟨s, Quiet.refl s, rfl⟩
    · rename_i hopen
      have hlate : s.heartbeatInterval + s.pongTimeout < now - s.lastPongTime := by
        simpa [givesUp, hws, not_not.1 hopen] using h
      rw [if_pos hlate]
      exact ⟨s.shut n, Quiet.shutSocket s n, rfl⟩

theorem counters_disconnect : s.disconnect.waiting = s.waiting ∧
    s.disconnect.userPreparing = s.userPreparing ∧ s.disconnect.loopPreparing = s.loopPreparing := by
  unfold disconnect
  split <;> exact ⟨rfl, rfl, rfl⟩

theorem counters_disconnectAsync : s.disconnectAsync.waiting = s.waiting ∧
    s.disconnectAsync.userPreparing = s.userPreparing ∧
    s.disconnectAsync.loopPreparing = s.loopPreparing := by
  unfold disconnectAsync
  split <;> exact ⟨rfl, rfl, rfl⟩

end RelayClient

end Pinch
