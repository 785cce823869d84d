import Pinch.ClientStep

/-! What becomes of a connection. As long as no heartbeat gives it up and no failed attempt ends
late, its loss is always followed by a reconnect loop. A client that disconnects while no such loop
is running and no `connect()` is under way stays disconnected. -/

namespace Pinch

namespace RelayClient

open Transition

variable {s t : RelayClient} {n m : ℕ} {e : ClientEvent}
  {heartbeatInterval pongTimeout : ℤ}

/-- A reconnect loop is running: in its back-off, before its socket, or on a socket. -/
def reconnecting (s : RelayClient) : Bool :=
  0 < s.waiting || 0 < s.loopPreparing ||
    (List.range s.nextSocket).any fun n =>
      (s.sockets n).caller = .loop && (s.sockets n).outcome.isNone

def closing (s : RelayClient) : Bool := s.ws.any fun n => (s.sockets n).readyState = .closing

def takenCareOf (s : RelayClient) : Bool :=
  s.isConnected || s.closing || s.reconnecting || s.handlerCalled

/-- The user leaves the client alone, no heartbeat gives the connection up, and the socket of a
failed attempt does not end while the client is authenticated. -/
def attended (s : RelayClient) : ClientEvent → Bool
  | .connect | .disconnect | .disconnectAsync => false
  | .tick now => !s.givesUp now
  | .closed n => !s.authenticated || (s.sockets n).authState = .done
  | _ => true

/-- A client with `autoReconnect` whose user has registered a handler and called `connect()`. -/
def dialled (heartbeatInterval pongTimeout : ℤ) : RelayClient where
  heartbeatInterval := heartbeatInterval
  pongTimeout := pongTimeout
  autoReconnect := true
  disconnectHandler := true
  userPreparing := 1

/-- Why the client will be, or is, connected: someone was told that it will not, a loop is about to
open a socket or is busy with the current one, or the current one is authenticated. -/
inductive Kept (s : RelayClient) : Prop
  | gaveUp (h : s.handlerCalled = true) : Kept s
  | waiting (h : 0 < s.waiting) : Kept s
  | preparing (h : 0 < s.loopPreparing) : Kept s
  | attempting {n : ℕ} (hws : s.ws = some n) (hcaller : (s.sockets n).caller = .loop)
      (houtcome : (s.sockets n).outcome = none) : Kept s
  | connected {n : ℕ} (hws : s.ws = some n) (hauth : s.authenticated = true)
      (hdone : (s.sockets n).authState = .done) (halive : (s.sockets n).alive) : Kept s

section Watch

structure Watched (s : RelayClient) : Prop where
  autoReconnect : s.autoReconnect = true
  disconnectHandler : s.disconnectHandler = true
  closers : ∀ n, (s.sockets n).closers = 0
  settled : ∀ n, (s.sockets n).authState = .done → (s.sockets n).outcome ≠ none
  ws_lt : ∀ n, s.ws = some n → n < s.nextSocket

/-- Before the first authentication there is at most the socket of the user's `connect()`. -/
structure Early (s : RelayClient) : Prop where
  single : s.nextSocket + s.userPreparing = 1
  current : 0 < s.nextSocket → s.ws = some 0
  waiting : s.waiting = 0
  loopPreparing : s.loopPreparing = 0
  caller : ∀ n, (s.sockets n).caller = .user
  authState : ∀ n, (s.sockets n).authState ≠ .done
  authenticated : s.authenticated = false

structure Late (s : RelayClient) : Prop where
  userPreparing : s.userPreparing = 0
  kept : Kept s

theorem Watched.dialled : Watched (dialled heartbeatInterval pongTimeout) :=
  ⟨rfl, rfl, fun _ => rfl, fun _ h => (by cases h), fun _ h => (by cases h)⟩

theorem Early.dialled : Early (dialled heartbeatInterval pongTimeout) :=
  ⟨rfl, fun h => absurd h (Nat.lt_irrefl 0), rfl, rfl, fun _ => rfl, fun _ h => (by cases h), rfl⟩

theorem Watched.quiet (h : Watched s) (hq : Quiet s t) : Watched t where
  autoReconnect := hq.autoReconnect.trans h.autoReconnect
  disconnectHandler := hq.disconnectHandler h.disconnectHandler
  closers n := hq.closers n (h.closers n)
  settled n hdone := by
    rw [hq.outcome]
    exact h.settled n ((hq.done n).1 hdone)
  ws_lt n hws := by
    rw [hq.nextSocket]
    exact h.ws_lt n (hq.ws.symm.trans hws)

theorem Watched.settling (h : Watched s) (hs : Settling s t) : Watched t where
  autoReconnect := hs.autoReconnect.trans h.autoReconnect
  disconnectHandler := hs.disconnectHandler.trans h.disconnectHandler
  closers n := (hs.closers n).trans (h.closers n)
  settled n hdone := hs.outcome n (h.settled n ((hs.authState n).symm.trans hdone))
  ws_lt n hws := by
    rw [hs.nextSocket]
    exact h.ws_lt n (hs.ws.symm.trans hws)

theorem Watched.newSocket (h : Watched s) (caller : Caller) : Watched (s.newSocket caller) where
  autoReconnect := h.autoReconnect
  disconnectHandler := h.disconnectHandler
  closers := forall_sockets_newSocket (P := fun _ x => x.closers = 0) h.closers rfl
  settled := forall_sockets_newSocket (P := fun _ x => x.authState = .done → x.outcome ≠ none)
    h.settled (by simp)
  ws_lt m hws := by
    obtain rfl := Option.some.inj hws
    exact Nat.lt_succ_self _

theorem Watched.ended (h : Watched s) (n : ℕ) : Watched (s.ended n) where
  autoReconnect := h.autoReconnect
  disconnectHandler := h.disconnectHandler
  closers := forall_sockets_ended (P := fun _ x => x.closers = 0) h.closers fun _ => rfl
  settled := forall_sockets_ended (P := fun _ x => x.authState = .done → x.outcome ≠ none)
    h.settled id
  ws_lt := h.ws_lt

theorem Watched.onClose (h : Watched s) (n : ℕ) : Watched (s.onClose n) := by
  rw [onClose_eq]
  split
  · exact (h.ended n).settling (Settling.rejectOnce _ n _)
  · split
    · exact (h.ended n).settling (Settling.attemptReconnect _)
    · exact h.ended n

theorem Watched.accept (h : Watched s) (n : ℕ) (addr : String) (now : ℤ) :
    Watched (s.accept n addr now) := by
  have hs := Settling.resolveOnce (s.authenticate n addr now) n
  rw [accept_eq]
  refine ⟨hs.autoReconnect.trans h.autoReconnect, hs.disconnectHandler.trans h.disconnectHandler,
    fun m => ?_, fun m hdone => ?_, fun m hws => ?_⟩
  · rw [hs.closers]
    exact forall_sockets_authenticate (P := fun _ x => x.closers = 0) h.closers id m
  · by_cases hm : m = n
    · subst hm
      exact settled_resolveOnce _ m
    · refine hs.outcome m ?_
      rw [hs.authState, sockets_authenticate_of_ne hm] at hdone
      rw [sockets_authenticate_of_ne hm]
      exact h.settled m hdone
  · rw [hs.nextSocket]
    exact h.ws_lt m (hs.ws.symm.trans hws)

theorem Watched.step (h : Watched s) (hok : s.attended e = true) (hs : s.step e = some t) :
    Watched t := by
  cases Effect.of_step hs with
  | quiet hq => exact h.quiet hq
  | rejected hq => exact (h.quiet hq).settling (Settling.rejectOnce _ _ _)
  | accepted hreceives hstate => exact h.accept _ _ _
  | closed hclosed => exact h.onClose _
  | gaveUp hgives hq => simp [attended, hgives] at hok
  | called | disconnected | disconnectedAsync => simp [attended] at hok
  | dialled hpos | redialled hpos =>
    apply Watched.newSocket
    exact ⟨h.autoReconnect, h.disconnectHandler, h.closers, h.settled, h.ws_lt⟩
  | backedOff hpos => exact ⟨h.autoReconnect, h.disconnectHandler, h.closers, h.settled, h.ws_lt⟩
  | asyncTimedOut hpos =>
    rw [h.closers] at hpos
    exact absurd hpos (Nat.lt_irrefl 0)

theorem Kept.quiet (h : Kept s) (hq : Quiet s t) : Kept t := by
  cases h with
  | gaveUp h => exact .gaveUp (hq.handlerCalled.trans h)
  | waiting h => exact .waiting (by rwa [hq.waiting])
  | preparing h => exact .preparing (by rwa [hq.loopPreparing])
  | attempting hws hcaller houtcome =>
    exact .attempting (hq.ws.trans hws) ((hq.caller _).trans hcaller) ((hq.outcome _).trans houtcome)
  | connected hws hauth hdone halive =>
    exact .connected (hq.ws.trans hws) (hq.authenticated.trans hauth) ((hq.done _).2 hdone)
      (hq.alive _ halive)

/-- A loop that goes on waits again or tells that it has given up. -/
theorem Kept.attemptReconnect (h : s.disconnectHandler = true) : Kept s.attemptReconnect := by
  unfold RelayClient.attemptReconnect
  split
  · exact .waiting (Nat.succ_pos _)
  · exact .gaveUp rfl

theorem Kept.rejectOnce (h : Kept s) (hw : Watched s) (n : ℕ) (err : String) :
    Kept (s.rejectOnce n err) := by
  have hs := Settling.rejectOnce s n err
  by_cases hloop : (s.sockets n).caller = .loop ∧ (s.sockets n).outcome = none
  · rw [rejectOnce_of_loop hloop.1 hloop.2]
    exact .attemptReconnect hw.disconnectHandler
  · cases h with
    | gaveUp h => exact .gaveUp (hs.handlerCalled h)
    | waiting h => exact .waiting (Nat.lt_of_lt_of_le h hs.waiting_le)
    | preparing h => exact .preparing (by rwa [hs.loopPreparing])
    | attempting hws hcaller houtcome =>
      rename_i m
      have hm : m ≠ n := by
        rintro rfl
        exact hloop ⟨hcaller, houtcome⟩
      refine .attempting (hs.ws.trans hws) ((hs.caller m).trans hcaller) ?_
      rw [outcome_rejectOnce_of_ne hm, houtcome]
    | connected hws hauth hdone halive =>
      refine .connected (hs.ws.trans hws) (hs.authenticated.trans hauth)
        ((hs.authState _).trans hdone) ?_
      rwa [Socket.alive, hs.readyState]

theorem ended_promise (s : RelayClient) (n m : ℕ) :
    ((s.ended n).sockets m).caller = (s.sockets m).caller ∧
      ((s.ended n).sockets m).outcome = (s.sockets m).outcome :=
  forall_sockets_ended
    (P := fun m x => x.caller = (s.sockets m).caller ∧ x.outcome = (s.sockets m).outcome)
    (fun _ => ⟨rfl, rfl⟩) id m

theorem Kept.ended (h : Kept s) (hauth : s.authenticated = false) (n : ℕ) : Kept (s.ended n) := by
  cases h with
  | gaveUp h => exact .gaveUp h
  | waiting h => exact .waiting h
  | preparing h => exact .preparing h
  | attempting hws hcaller houtcome =>
    rename_i m
    obtain ⟨hcaller', houtcome'⟩ := ended_promise s n m
    exact .attempting hws (hcaller'.trans hcaller) (houtcome'.trans houtcome)
  | connected hws hauth' hdone halive => simp [hauth] at hauth'

theorem Kept.onClose (h : Kept s) (hw : Watched s) (hok : s.attended (.closed n) = true) :
    Kept (s.onClose n) := by
  rw [onClose_eq]
  by_cases hdone : (s.sockets n).authState = .done
  · rw [if_neg (not_not.2 hdone), hw.autoReconnect, Bool.and_true]
    cases hauth : s.authenticated with
    | true => exact .attemptReconnect hw.disconnectHandler
    | false => exact h.ended hauth n
  · have hauth : s.authenticated = false := by simpa [attended, hdone] using hok
    rw [if_pos hdone]
    exact (h.ended hauth n).rejectOnce (hw.ended n) n _

/-- A handshake on the current socket makes the connection. -/
theorem Kept.accept_current (hws : s.ws = some n) (hreceives : s.receives n = true) (addr : String)
    (now : ℤ) : Kept (s.accept n addr now) := by
  have hs := Settling.resolveOnce (s.authenticate n addr now) n
  rw [accept_eq]
  refine .connected (hs.ws.trans hws) (hs.authenticated.trans rfl) ?_ ?_
  · rw [hs.authState, sockets_authenticate_self]
  · rw [Socket.alive, hs.readyState, sockets_authenticate_self]
    exact alive_of_receives hreceives

theorem Kept.accept (h : Kept s) (hreceives : s.receives n = true) (addr : String) (now : ℤ) :
    Kept (s.accept n addr now) := by
  by_cases hws : s.ws = some n
  · exact accept_current hws hreceives addr now
  · have hs := Settling.resolveOnce (s.authenticate n addr now) n
    rw [accept_eq]
    cases h with
    | gaveUp h => exact .gaveUp (hs.handlerCalled h)
    | waiting h => exact .waiting (Nat.lt_of_lt_of_le h hs.waiting_le)
    | preparing h => exact .preparing (by rw [hs.loopPreparing]; exact h)
    | attempting hws' hcaller houtcome =>
      rename_i m
      have hm : m ≠ n := by
        rintro rfl
        exact hws hws'
      refine .attempting (hs.ws.trans hws') ?_ ?_
      · rw [hs.caller, sockets_authenticate_of_ne hm, hcaller]
      · rw [outcome_resolveOnce_of_ne hm, sockets_authenticate_of_ne hm, houtcome]
    | connected hws' hauth hdone halive =>
      rename_i m
      have hm : m ≠ n := by
        rintro rfl
        exact hws hws'
      refine .connected (hs.ws.trans hws') (hs.authenticated.trans rfl) ?_ ?_
      · rw [hs.authState, sockets_authenticate_of_ne hm, hdone]
      · rw [Socket.alive, hs.readyState, sockets_authenticate_of_ne hm]
        exact halive

theorem Late.step (h : Late s) (hw : Watched s) (hok : s.attended e = true)
    (hs : s.step e = some t) : Late t := by
  cases Effect.of_step hs with
  | quiet hq => exact ⟨hq.userPreparing.trans h.userPreparing, h.kept.quiet hq⟩
  | rejected hq =>
    exact ⟨((Settling.rejectOnce _ _ _).userPreparing.trans hq.userPreparing).trans h.userPreparing,
      (h.kept.quiet hq).rejectOnce (hw.quiet hq) _ _⟩
  | accepted hreceives hstate =>
    exact ⟨(Settling.resolveOnce _ _).userPreparing.trans h.userPreparing,
      h.kept.accept hreceives _ _⟩
  | closed hclosed =>
    exact ⟨(userPreparing_onClose s _).trans h.userPreparing, h.kept.onClose hw hok⟩
  | gaveUp hgives hq => simp [attended, hgives] at hok
  | called | disconnected | disconnectedAsync => simp [attended] at hok
  | dialled hpos =>
    rw [h.userPreparing] at hpos
    exact absurd hpos (Nat.lt_irrefl 0)
  | redialled hpos =>
    exact ⟨h.userPreparing, .attempting rfl (by simp [newSocket]) (by simp [newSocket])⟩
  | backedOff hpos => exact ⟨h.userPreparing, .preparing (Nat.succ_pos _)⟩
  | asyncTimedOut hpos =>
    rw [hw.closers] at hpos
    exact absurd hpos (Nat.lt_irrefl 0)

theorem Early.quiet (h : Early s) (hq : Quiet s t) : Early t where
  single := by rw [hq.nextSocket, hq.userPreparing, h.single]
  current := by
    rw [hq.nextSocket, hq.ws]
    exact h.current
  waiting := hq.waiting.trans h.waiting
  loopPreparing := hq.loopPreparing.trans h.loopPreparing
  caller n := (hq.caller n).trans (h.caller n)
  authState n hdone := h.authState n ((hq.done n).1 hdone)
  authenticated := hq.authenticated.trans h.authenticated

theorem Early.rejectOnce (h : Early s) (n : ℕ) (err : String) : Early (s.rejectOnce n err) := by
  have hs := Settling.rejectOnce s n err
  refine ⟨?_, ?_, ?_, hs.loopPreparing.trans h.loopPreparing,
    fun m => (hs.caller m).trans (h.caller m), fun m hdone => ?_,
    hs.authenticated.trans h.authenticated⟩
  · rw [hs.nextSocket, hs.userPreparing, h.single]
  · rw [hs.nextSocket, hs.ws]
    exact h.current
  · rw [rejectOnce_waiting fun hloop => by simp [h.caller] at hloop, h.waiting]
  · exact h.authState m ((hs.authState m).symm.trans hdone)

theorem Early.ended (h : Early s) (n : ℕ) : Early (s.ended n) where
  single := h.single
  current := h.current
  waiting := h.waiting
  loopPreparing := h.loopPreparing
  caller := forall_sockets_ended (P := fun _ x => x.caller = .user) h.caller id
  authState := forall_sockets_ended (P := fun _ x => x.authState ≠ .done) h.authState id
  authenticated := rfl

theorem Early.step (h : Early s) (hw : Watched s) (hok : s.attended e = true)
    (hs : s.step e = some t) : Early t ∨ Late t := by
  cases Effect.of_step hs with
  | quiet hq => exact .inl (h.quiet hq)
  | rejected hq => exact .inl ((h.quiet hq).rejectOnce _ _)
  | accepted hreceives hstate =>
    rename_i n _ _ _
    have hlt : n < s.nextSocket := by
      simp only [receives, Bool.and_eq_true, decide_eq_true_eq] at hreceives
      exact hreceives.1
    have hsingle := h.single
    obtain rfl : n = 0 := by omega
    have huser : s.userPreparing = 0 := by omega
    exact .inr ⟨(Settling.resolveOnce _ _).userPreparing.trans huser,
      .accept_current (h.current hlt) hreceives _ _⟩
  | closed hclosed =>
    rename_i n
    rw [onClose_eq, if_pos (h.authState n)]
    exact .inl ((h.ended n).rejectOnce n _)
  | gaveUp hgives hq => simp [attended, hgives] at hok
  | called | disconnected | disconnectedAsync => simp [attended] at hok
  | dialled hpos =>
    have hsingle := h.single
    have hzero : s.nextSocket = 0 := by omega
    refine .inl ⟨?_, fun _ => ?_, h.waiting, h.loopPreparing, ?_, ?_, h.authenticated⟩
    · simp only [newSocket, modify]
      omega
    · simp only [newSocket, modify, hzero]
    · exact forall_sockets_newSocket (P := fun _ x => x.caller = .user) h.caller rfl
    · exact forall_sockets_newSocket (P := fun _ x => x.authState ≠ .done) h.authState (by simp)
  | redialled hpos =>
    rw [h.loopPreparing] at hpos
    exact absurd hpos (Nat.lt_irrefl 0)
  | backedOff hpos =>
    rw [h.waiting] at hpos
    exact absurd hpos (Nat.lt_irrefl 0)
  | asyncTimedOut hpos =>
    rw [hw.closers] at hpos
    exact absurd hpos (Nat.lt_irrefl 0)

theorem Late.takenCareOf (h : Late s) (hw : Watched s) : s.takenCareOf = true := by
  rw [RelayClient.takenCareOf]
  cases h.kept with
  | gaveUp h => simp [h]
  | waiting h => simp [reconnecting, h]
  | preparing h => simp [reconnecting, h]
  | attempting hws hcaller houtcome =>
    rename_i n
    have hrunning : s.reconnecting = true := by
      simp only [reconnecting, Bool.or_eq_true, List.any_eq_true, List.mem_range]
      exact .inr ⟨n, hw.ws_lt n hws, by simp [hcaller, houtcome]⟩
    simp [hrunning]
  | connected hws hauth hdone halive =>
    rcases halive with hopen | hclosing
    · simp [isConnected, hws, hauth, hopen]
    · simp [closing, hws, hclosing]

/-- A connection that a heartbeat gives up is not made again. -/
theorem lost_of_givesUp {now : ℤ} (hw : Watched s) (h : Late s) (hws : s.ws = some n)
    (hidle : s.reconnecting = false) (hcalled : s.handlerCalled = false)
    (hgives : s.givesUp now = true) (hs : s.step (.tick now) = some t) :
    ∃ u, t.step (.closed n) = some u ∧ u.takenCareOf = false := by
  obtain ⟨-, ⟨⟩⟩ := Option.ite_none_right_eq_some.1 hs
  obtain ⟨t, hq, ht⟩ := onTick_of_givesUp hgives
  have hnot := hidle
  simp only [reconnecting, Bool.or_eq_false_iff, decide_eq_false_iff_not] at hnot
  obtain ⟨⟨hwait, hprep⟩, hsockets⟩ := hnot
  rw [ht]
  cases h.kept with
  | gaveUp hgave => simp [hcalled] at hgave
  | waiting hpos => exact absurd hpos hwait
  | preparing hpos => exact absurd hpos hprep
  | attempting hws' hcaller houtcome =>
    rename_i m
    have hany := List.any_eq_false.1 hsockets m (List.mem_range.2 (hw.ws_lt m hws'))
    simp [hcaller, houtcome] at hany
  | connected hws' hauth hdone halive =>
    obtain rfl := Option.some.inj (hws.symm.trans hws')
    have hopen : (t.cleanup.sockets n).readyState ≠ .closed := by
      rcases hq.alive n halive with hstate | hstate <;> simp [cleanup, hstate]
    have hlt : n < t.cleanup.nextSocket := hq.nextSocket ▸ hw.ws_lt n hws
    have hstate : (t.cleanup.sockets n).authState = .done := (hq.done n).2 hdone
    refine ⟨t.cleanup.ended n, ?_, ?_⟩
    · rw [step, if_pos ⟨hlt, hopen⟩, onClose_eq, if_neg (not_not.2 hstate)]
      rfl
    · have hclosed : (t.cleanup.ended n).closing = false := by
        simp [closing, ended, cleanup, modify, hq.ws, hws]
      have hrunning : (t.cleanup.ended n).reconnecting = s.reconnecting := by
        have hsocket : ∀ m, ((t.cleanup.ended n).sockets m).caller = (s.sockets m).caller ∧
            ((t.cleanup.ended n).sockets m).outcome = (s.sockets m).outcome := by
          intro m
          obtain ⟨hcaller, houtcome⟩ := ended_promise t.cleanup n m
          exact ⟨hcaller.trans (hq.caller m), houtcome.trans (hq.outcome m)⟩
        simp only [reconnecting, hsocket]
        simp [ended, cleanup, modify, hq.waiting, hq.loopPreparing, hq.nextSocket]
      have hhandler : (t.cleanup.ended n).handlerCalled = false := hq.handlerCalled.trans hcalled
      rw [takenCareOf, hclosed, hrunning, hhandler, hidle]
      rfl

theorem watched_of_run {l : List ClientEvent} (hw : Watched s) (hphase : Early s ∨ Late s)
    (h : Run step (fun s e => s.attended e = true) s l t) :
    Watched t ∧ (Early t ∨ Late t) ∧ (Late s → Late t) := by
  refine h.invariant (P := fun t => Watched t ∧ (Early t ∨ Late t) ∧ (Late s → Late t))
    ⟨hw, hphase, id⟩ fun t e u ⟨hw, hphase, hlate⟩ hok hs => ⟨hw.step hok hs, ?_, fun hs' => ?_⟩
  · rcases hphase with hearly | hlate
    · exact hearly.step hw hok hs
    · exact .inr (hlate.step hw hok hs)
  · exact (hlate hs').step hw hok hs

/-- Once authenticated, a client is connected, is losing its socket, is reconnecting or has told
that it gave up, as long as no heartbeat gives the connection up. A heartbeat that does ends that. -/
theorem lost_connection_taken_care_of {l₁ l₂ : List ClientEvent} {s₁ : RelayClient}
    (h₁ : Run step (fun s e => s.attended e = true) (dialled heartbeatInterval pongTimeout) l₁ s₁)
    (hauth : s₁.authenticated = true)
    (h₂ : Run step (fun s e => s.attended e = true) s₁ l₂ s) :
    s.takenCareOf = true ∧
    ∀ n now t, s.ws = some n → s.reconnecting = false → s.handlerCalled = false →
      s.givesUp now = true → s.step (.tick now) = some t →
      ∃ u, t.step (.closed n) = some u ∧ u.takenCareOf = false := by
  obtain ⟨hw₁, hphase, -⟩ := watched_of_run .dialled (.inl .dialled) h₁
  have hlate₁ : Late s₁ := hphase.resolve_left fun hearly => by
    simp [hearly.authenticated] at hauth
  obtain ⟨hw, -, hlate⟩ := watched_of_run hw₁ (.inr hlate₁) h₂
  exact ⟨(hlate hlate₁).takenCareOf hw, fun n now t hws hidle hcalled hgives hs =>
    lost_of_givesUp hw (hlate hlate₁) hws hidle hcalled hgives hs⟩

def challenge : HandshakeMessage := ⟨true, .ok (), .ok (.other "authChallenge")⟩

def welcome : HandshakeMessage := ⟨true, .error "expected auth challenge message",
  .ok (.authResult true "" "pinch:bob@relay")⟩

/-- The events of a successful `connect()` on socket `n`. -/
def handshake (n : ℕ) (now : ℤ) : List ClientEvent :=
  [.opened n, .message n challenge now, .message n welcome now]

def online : RelayClient :=
  (exec step (fun s e => s.attended e = true) (dialled 25000 7000)
    (.ready .user :: handshake 0 0)).get (by decide +kernel)

theorem lost_connection_taken_care_of_online : online.takenCareOf = true ∧
    ∃ t u, online.step (.tick 32001) = some t ∧ t.step (.closed 0) = some u ∧
      u.takenCareOf = false := by
  have hrun : Run step (fun s e => s.attended e = true) (dialled 25000 7000) _ online :=
    Run.of_exec (Option.some_get _).symm
  obtain ⟨hcare, hlost⟩ := lost_connection_taken_care_of hrun (by decide +kernel) .nil
  have htick : ∃ t, online.step (.tick 32001) = some t :=
    Option.isSome_iff_exists.1 (by decide +kernel)
  obtain ⟨t, ht⟩ := htick
  obtain ⟨u, hu, hfalse⟩ := hlost 0 32001 t (by decide +kernel) (by decide +kernel)
    (by decide +kernel) (by decide +kernel) ht
  exact ⟨hcare, t, u, ht, hu, hfalse⟩

/-- A connection whose pongs stay away is neither kept nor replaced. -/
theorem heartbeat_timeout_loses_connection :
    ((exec step (fun _ _ => True) (dialled 25000 7000)
      (.ready .user :: handshake 0 0 ++ [.tick 25000, .tick 50000, .closed 0])).map
        fun s => (s.takenCareOf, s.autoReconnect)) = some (false, true) := by
  decide +kernel

end Watch

section Final

/-- No reconnect loop is running and no `connect()` is on its way to its socket. -/
structure Idle (s : RelayClient) : Prop where
  userPreparing : s.userPreparing = 0
  loopPreparing : s.loopPreparing = 0
  waiting : s.waiting = 0
  settled : ∀ n, (s.sockets n).caller = .loop → (s.sockets n).outcome ≠ none

/-- The client has disconnected for good, with `count` sockets. -/
structure Final (count : ℕ) (s : RelayClient) : Prop where
  idle : Idle s
  nextSocket : s.nextSocket = count
  autoReconnect : s.autoReconnect = false
  shut : ∀ n, s.ws = some n → (s.sockets n).shut

variable {count : ℕ}

theorem Idle.quiet (h : Idle s) (hq : Quiet s t) : Idle t where
  userPreparing := hq.userPreparing.trans h.userPreparing
  loopPreparing := hq.loopPreparing.trans h.loopPreparing
  waiting := hq.waiting.trans h.waiting
  settled n hcaller := by
    rw [hq.outcome]
    exact h.settled n ((hq.caller n).symm.trans hcaller)

theorem Final.quiet (h : Final count s) (hq : Quiet s t) : Final count t where
  idle := h.idle.quiet hq
  nextSocket := hq.nextSocket.trans h.nextSocket
  autoReconnect := hq.autoReconnect.trans h.autoReconnect
  shut n hws := hq.shut n (h.shut n (hq.ws.symm.trans hws))

theorem Final.settling (h : Final count s) (hs : Settling s t) (hwait : t.waiting = s.waiting) :
    Final count t where
  idle := ⟨hs.userPreparing.trans h.idle.userPreparing,
    hs.loopPreparing.trans h.idle.loopPreparing, hwait.trans h.idle.waiting,
    fun n hcaller => hs.outcome n (h.idle.settled n ((hs.caller n).symm.trans hcaller))⟩
  nextSocket := hs.nextSocket.trans h.nextSocket
  autoReconnect := hs.autoReconnect.trans h.autoReconnect
  shut n hws := by
    rw [Socket.shut, hs.readyState]
    exact h.shut n (hs.ws.symm.trans hws)

theorem Final.rejectOnce (h : Final count s) (n : ℕ) (err : String) :
    Final count (s.rejectOnce n err) :=
  h.settling (Settling.rejectOnce s n err) (rejectOnce_waiting (h.idle.settled n))

theorem Final.cleanup (h : Final count s) : Final count s.cleanup :=
  ⟨⟨h.idle.userPreparing, h.idle.loopPreparing, h.idle.waiting, h.idle.settled⟩, h.nextSocket,
    h.autoReconnect, h.shut⟩

theorem Final.ended (h : Final count s) (n : ℕ) : Final count (s.ended n) where
  idle := ⟨h.idle.userPreparing, h.idle.loopPreparing, h.idle.waiting,
    forall_sockets_ended (P := fun _ x => x.caller = .loop → x.outcome ≠ none) h.idle.settled id⟩
  nextSocket := h.nextSocket
  autoReconnect := h.autoReconnect
  shut := forall_sockets_ended (P := fun m x => s.ws = some m → x.shut) h.shut fun _ _ => .inr rfl

theorem Final.onClose (h : Final count s) (n : ℕ) : Final count (s.onClose n) := by
  rw [onClose_eq, h.autoReconnect, Bool.and_false]
  split
  · exact (h.ended n).rejectOnce n _
  · exact h.ended n

/-- A handshake that still succeeds does not reopen the socket. -/
theorem Final.accept (h : Final count s) (n : ℕ) (addr : String) (now : ℤ) :
    Final count (s.accept n addr now) := by
  rw [accept_eq]
  refine Final.settling ?_ (Settling.resolveOnce _ n) (waiting_resolveOnce _ n)
  refine ⟨⟨h.idle.userPreparing, h.idle.loopPreparing, h.idle.waiting, ?_⟩, h.nextSocket,
    h.autoReconnect, ?_⟩
  · exact forall_sockets_authenticate (P := fun _ x => x.caller = .loop → x.outcome ≠ none)
      h.idle.settled id
  · exact forall_sockets_authenticate (P := fun m x => s.ws = some m → x.shut) h.shut id

theorem Idle.shut (h : Idle s) (hauto : s.autoReconnect = false) (hws : s.ws = some n) :
    Final s.nextSocket (s.shut n) := by
  refine ⟨h.quiet (Quiet.shutSocket s n), rfl, hauto, fun m hm => ?_⟩
  obtain rfl : n = m := Option.some.inj (hws.symm.trans hm)
  exact shut_sockets_shut

theorem Idle.disconnect (h : Idle s) : Final s.nextSocket s.disconnect := by
  have hoff : Idle { s with autoReconnect := false } :=
    ⟨h.userPreparing, h.loopPreparing, h.waiting, h.settled⟩
  unfold RelayClient.disconnect
  split
  · rename_i hws
    exact ⟨hoff, rfl, rfl, fun n hn => by simp [hws] at hn⟩
  · rename_i n hws
    exact (hoff.shut rfl hws).cleanup

theorem Idle.disconnectAsync (h : Idle s) : Final s.nextSocket s.disconnectAsync := by
  unfold RelayClient.disconnectAsync
  split
  · rename_i hws
    exact ⟨⟨h.userPreparing, h.loopPreparing, h.waiting, h.settled⟩, rfl, rfl,
      fun n hn => by simp [hws] at hn⟩
  · rename_i n hws
    have hcounted : Idle ({ s with autoReconnect := false }.modify n fun x =>
        { x with closers := x.closers + 1 }) :=
      ⟨h.userPreparing, h.loopPreparing, h.waiting,
        forall_sockets_modify (P := fun _ x => x.caller = .loop → x.outcome ≠ none) h.settled id⟩
    exact hcounted.shut rfl hws

theorem Final.step (h : Final count s) (hok : e ≠ .connect) (hs : s.step e = some t) :
    Final count t := by
  cases Effect.of_step hs with
  | quiet hq => exact h.quiet hq
  | rejected hq => exact (h.quiet hq).rejectOnce _ _
  | accepted hreceives hstate => exact h.accept _ _ _
  | closed hclosed => exact h.onClose _
  | gaveUp hgives hq => exact (h.quiet hq).cleanup
  | called => exact absurd rfl hok
  | dialled hpos =>
    rw [h.idle.userPreparing] at hpos
    exact absurd hpos (Nat.lt_irrefl 0)
  | redialled hpos =>
    rw [h.idle.loopPreparing] at hpos
    exact absurd hpos (Nat.lt_irrefl 0)
  | backedOff hpos =>
    rw [h.idle.waiting] at hpos
    exact absurd hpos (Nat.lt_irrefl 0)
  | disconnected => exact h.nextSocket ▸ h.idle.disconnect
  | disconnectedAsync => exact h.nextSocket ▸ h.idle.disconnectAsync
  | asyncTimedOut hpos =>
    rename_i n
    have hq : Quiet s (s.modify n fun x => { x with closers := x.closers - 1 }) :=
      .modify rfl rfl (fun hzero => by simp [hzero]) Iff.rfl id id
    exact (h.quiet (hq.trans (Quiet.shutSocket _ n))).cleanup

theorem Final.not_isConnected (h : Final count s) : s.isConnected = false := by
  cases hws : s.ws with
  | none => simp [isConnected, hws]
  | some n => rcases h.shut n hws with hstate | hstate <;> simp [isConnected, hws, hstate]

/-- One more socket can be opened. -/
def Reopens (s : RelayClient) : Prop :=
  ∃ l t, Run step (fun _ e => e ≠ .connect) s l t ∧ s.nextSocket < t.nextSocket

theorem reopens_of_preparing (h : 0 < s.userPreparing ∨ 0 < s.loopPreparing) : Reopens s := by
  rcases h with hpos | hpos
  · exact ⟨[.ready .user], _, .snoc .nil (by simp) (if_pos hpos), Nat.lt_succ_self _⟩
  · exact ⟨[.ready .loop], _, .snoc .nil (by simp) (if_pos hpos), Nat.lt_succ_self _⟩

/-- The loop does not look at `autoReconnect` when its back-off ends. -/
theorem reopens_of_waiting (h : 0 < s.waiting) : Reopens s := by
  have hback : s.step .backoff =
      some { s with waiting := s.waiting - 1, loopPreparing := s.loopPreparing + 1 } := if_pos h
  obtain ⟨l, t, hrun, hlt⟩ := reopens_of_preparing
    (s := { s with waiting := s.waiting - 1, loopPreparing := s.loopPreparing + 1 })
    (.inr (Nat.succ_pos _))
  exact ⟨[.backoff] ++ l, t, (Run.snoc .nil (by simp) hback).trans hrun, hlt⟩

/-- A client that disconnects while it is idle opens no socket any more and is never connected
again; one that is waiting to reconnect, or has not got to its socket, can still open one. -/
theorem disconnect_final (he : e = .disconnect ∨ e = .disconnectAsync)
    (hs : s.step e = some t) :
    (Idle s → ∀ l u, Run step (fun _ e => e ≠ .connect) t l u →
      u.nextSocket = s.nextSocket ∧ u.isConnected = false) ∧
    (0 < s.waiting ∨ 0 < s.userPreparing ∨ 0 < s.loopPreparing → Reopens t) := by
  have hfinal : Idle s → Final s.nextSocket t := by
    intro hidle
    rcases he with rfl | rfl
    · obtain rfl := Option.some.inj hs
      exact hidle.disconnect
    · obtain rfl := Option.some.inj hs
      exact hidle.disconnectAsync
  have hcounters : t.waiting = s.waiting ∧ t.userPreparing = s.userPreparing ∧
      t.loopPreparing = s.loopPreparing := by
    rcases he with rfl | rfl
    · obtain rfl := Option.some.inj hs
      exact counters_disconnect
    · obtain rfl := Option.some.inj hs
      exact counters_disconnectAsync
  obtain ⟨hwait, huser, hloop⟩ := hcounters
  refine ⟨fun hidle l u hrun => ?_, ?_⟩
  · have hend : Final s.nextSocket u :=
      hrun.invariant (hfinal hidle) fun _ _ _ hinv hok hstep => hinv.step hok hstep
    exact ⟨hend.nextSocket, hend.not_isConnected⟩
  · rintro (hpos | hpos)
    · exact reopens_of_waiting (by rwa [hwait])
    · exact reopens_of_preparing (by rwa [huser, hloop])

theorem idle_online : Idle online := by
  refine ⟨by decide +kernel, by decide +kernel, by decide +kernel, fun n hcaller => ?_⟩
  cases n with
  | zero => exact absurd hcaller (by decide +kernel)
  | succ n => cases hcaller

/-- The client after the relay has closed the socket. -/
def hungUp : RelayClient := (online.step (.closed 0)).get (by decide +kernel)

theorem disconnect_final_online :
    (∀ l u, Run step (fun _ e => e ≠ .connect) online.disconnect l u →
      u.nextSocket = 1 ∧ u.isConnected = false) ∧ Reopens hungUp.disconnect :=
  ⟨(disconnect_final (.inl rfl) rfl).1 idle_online,
    (disconnect_final (.inl rfl) rfl).2 (.inl (by decide +kernel))⟩

/-- A client that disconnects while it waits to reconnect is connected again later. -/
theorem disconnect_in_backoff_reconnects :
    ((exec step (fun _ _ => True) (dialled 25000 7000)
      (.ready .user :: handshake 0 0 ++
        [.closed 0, .disconnect, .backoff, .ready .loop] ++ handshake 1 5000)).map
          fun s => (s.autoReconnect, s.isConnected, s.nextSocket)) = some (false, true, 2) := by
  decide +kernel

end Final

end RelayClient

end Pinch
