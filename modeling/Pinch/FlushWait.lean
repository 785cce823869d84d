import Pinch.MessageFrame
import Pinch.Transition

/-! Waiting for the end of a flush. One counter and one resolver serve all calls of
`waitForFlush`. Every envelope counts down, and a timer that was set is never cleared. -/

namespace Pinch

open MessageManager

inductive PromiseState
  | pending
  | fulfilled
  | rejected (error : String)
  deriving DecidableEq

/-- A promise that `waitForFlush` has made, with its timer. -/
structure Pledge where
  state : PromiseState
  timeoutMs : ℕ
  armed : Bool
  deriving DecidableEq

/-- A promise that is settled stays as it is. -/
def Pledge.settle (p : Pledge) (state : PromiseState) : Pledge :=
  { p with state := if p.state = .pending then state else p.state }

def timeoutError (timeoutMs : ℕ) : String :=
  "waitForFlush timed out after " ++ toString timeoutMs ++ "ms"

def Pledge.expired (p : Pledge) : Pledge :=
  { p.settle (.rejected (timeoutError p.timeoutMs)) with armed := false }

/-- A call of `waitForFlush`: it polls for a queue status, has returned at once, or has returned
a promise. -/
inductive WaitCall
  | polling (timeoutMs elapsed : ℕ)
  | returned
  | awaiting (promise : ℕ)
  deriving DecidableEq

/-- The fields of the message manager. Promises and calls are numbered in the order in which they
are made. -/
structure FlushWait where
  remaining : ℤ
  resolve : Option ℕ
  promise : Option ℕ
  queueStatusReceived : Bool
  promises : ℕ → Pledge
  created : ℕ
  calls : ℕ → WaitCall
  called : ℕ

inductive WaitLabel
  | arrive (envelope : Envelope) (fromQueue : Bool)
  | waitForFlush (timeoutMs : ℕ)
  | poll (call : ℕ)
  /-- The timer of a promise goes off. -/
  | expire (promise : ℕ)

def WaitLabel.queued : WaitLabel → ℕ
  | .arrive _ true => 1
  | _ => 0

namespace FlushWait

def initial : FlushWait where
  remaining := -1
  resolve := none
  promise := none
  queueStatusReceived := false
  promises := fun _ => ⟨.pending, 0, false⟩
  created := 0
  calls := fun _ => .polling 0 0
  called := 0

def setCall (s : FlushWait) (w : ℕ) (call : WaitCall) : FlushWait :=
  { s with calls := Function.update s.calls w call }

/-- What the handler does first, for envelopes of all types. -/
def track (s : FlushWait) : FlushWait :=
  if 0 < s.remaining then
    match s.resolve with
    | some k =>
      if s.remaining - 1 ≤ 0 then
        { s with
          remaining := s.remaining - 1
          promises := Function.update s.promises k ((s.promises k).settle .fulfilled)
          resolve := none
          promise := none }
      else { s with remaining := s.remaining - 1 }
    | none => { s with remaining := s.remaining - 1 }
  else s

def handleQueueStatus (s : FlushWait) (envelope : Envelope) : FlushWait :=
  match envelope.payload with
  | .queueStatus status =>
    { s with remaining := status.pendingCount, queueStatusReceived := true }
  | _ => s

def arrive (s : FlushWait) (envelope : Envelope) : FlushWait :=
  if envelope.type = .queueStatus then s.track.handleQueueStatus envelope else s.track

/-- The part of `waitForFlush` behind the grace period. -/
def proceed (s : FlushWait) (w timeoutMs : ℕ) : FlushWait :=
  if s.remaining ≤ 0 then s.setCall w .returned
  else match s.promise with
    | some k => s.setCall w (.awaiting k)
    | none =>
      { s with
        promises := Function.update s.promises s.created ⟨.pending, timeoutMs, true⟩
        created := s.created + 1
        resolve := some s.created
        promise := some s.created }.setCall w (.awaiting s.created)

def waitForFlush (s : FlushWait) (timeoutMs : ℕ) : FlushWait :=
  let s' := { s with called := s.called + 1 }
  if s.queueStatusReceived then s'.proceed s.called timeoutMs
  else s'.setCall s.called (.polling timeoutMs 0)

/-- The check that runs every 50 ms, for two seconds at most. -/
def poll (s : FlushWait) (w : ℕ) : Option FlushWait :=
  if w < s.called then
    match s.calls w with
    | .polling timeoutMs elapsed =>
      if s.queueStatusReceived || decide (2000 ≤ elapsed + 50) then some (s.proceed w timeoutMs)
      else some (s.setCall w (.polling timeoutMs (elapsed + 50)))
    | _ => none
  else none

def expire (s : FlushWait) (k : ℕ) : Option FlushWait :=
  if (s.promises k).armed then
    some { s with
      promises := Function.update s.promises k (s.promises k).expired
      resolve := none
      promise := none
      remaining := 0 }
  else none

def step (s : FlushWait) : WaitLabel → Option FlushWait
  | .arrive envelope _ => some (s.arrive envelope)
  | .waitForFlush timeoutMs => some (s.waitForFlush timeoutMs)
  | .poll w => s.poll w
  | .expire k => s.expire k

/-- The number of envelopes from the queue. -/
def arrivals (l : List WaitLabel) : ℕ := (l.map WaitLabel.queued).sum

/-- The state of the promise that call `w` returned. -/
def outcome (s : FlushWait) (w : ℕ) : PromiseState :=
  match s.calls w with
  | .polling _ _ => .pending
  | .returned => .fulfilled
  | .awaiting k => (s.promises k).state

/-- The part of it that the handlers of envelopes see. -/
def view (s : FlushWait) : FlushState := ⟨s.remaining, s.queueStatusReceived, s.resolve.isSome⟩

end FlushWait

/-! ### The handlers of envelopes -/

section Handlers

variable {flush : FlushState}

theorem process_flush (now : Int) (message : MessageRecord) (address : String) :
    Keeps (fun n : Node => n.flush = flush) (EnforcementPipeline.process now message address) :=
  EnforcementPipeline.process_rule (fun _ _ hn _ _ => hn) (fun _ _ hn _ _ _ => hn)
    fun _ hn _ _ => hn

theorem saveMessage_flush (message : MessageRecord) :
    Keeps (fun n : Node => n.flush = flush) (Node.saveMessage message) := by
  refine Spec.read_bind fun n => ?_
  split
  · exact Spec.modify fun _ h => h
  · exact Spec.throw fun _ h => h

theorem view_track (s : FlushWait) : s.track.view =
    if 0 < s.remaining then
      { s.view with
        remaining := s.remaining - 1
        waiting := s.view.waiting && decide (0 < s.remaining - 1) }
    else s.view := by
  unfold FlushWait.track
  split
  · cases hr : s.resolve with
    | none => simp [FlushWait.view, hr]
    | some k =>
      by_cases hle : s.remaining - 1 ≤ 0
      · simp only [FlushWait.view, hr, hle, if_true, Option.isSome_some, Bool.true_and]
        simpa using hle
      · simp only [FlushWait.view, hr, hle, if_false, Option.isSome_some, Bool.true_and]
        simpa using hle
  · rfl

/-- One envelope does to the fields what it does to the part of them that the handlers see. -/
theorem dispatch_flush (setup : Setup) (ctx : CallContext) (envelope : Envelope) (s : FlushWait) :
    Spec (fun n : Node => n.flush = s.view) (dispatch setup ctx envelope)
      (fun _ n => n.flush = (s.arrive envelope).view)
      (fun _ n => n.flush = (s.arrive envelope).view) := by
  have htrack : Spec (fun n : Node => n.flush = s.view) trackFlush
      (fun _ n => n.flush = s.track.view)
      (fun _ n => n.flush = (s.arrive envelope).view) := by
    refine Spec.modify fun n hn => ?_
    rw [view_track]
    have hremaining : n.flush.remaining = s.remaining := by rw [hn]; rfl
    simp only [hremaining]
    split
    · simp [hn, FlushWait.view]
    · exact hn
  refine Spec.bind htrack fun _ => ?_
  unfold FlushWait.arrive
  cases envelope.type with
  | message =>
    exact handleIncomingMessage_keeps (fun message _ _ => saveMessage_flush message)
      fun message => process_flush ctx.now message envelope.fromAddress
  | deliveryConfirm => exact handleDeliveryConfirmation_keeps
  | queueStatus =>
    simp only [if_true]
    unfold MessageManager.handleQueueStatus FlushWait.handleQueueStatus
    cases envelope.payload with
    | queueStatus status =>
      refine Spec.bind (R := fun _ n => n.flush = _) (Spec.modify fun n hn => ?_) fun _ =>
        Spec.pure fun _ h => h
      simp only [hn]
      rfl
    | _ => exact Spec.pure fun _ h => h
  | _ => exact Spec.pure fun _ h => h

end Handlers

namespace FlushWait

open Transition

variable {s t : FlushWait} {x : WaitLabel} {w k : ℕ}

/-! ### Promises that are settled -/

/-- The promise that can be resolved is the one that is handed out, and it is pending. -/
structure Sane (s : FlushWait) : Prop where
  same : s.resolve = s.promise
  pending : ∀ k, s.promise = some k → k < s.created ∧ (s.promises k).state = .pending
  awaited : ∀ w k, s.calls w = .awaiting k → k < s.created
  uncalled : ∀ w, s.called ≤ w → s.calls w = .polling 0 0

theorem sane_initial : Sane initial := by
  refine ⟨rfl, ?_, ?_, ?_⟩ <;> simp [initial]

theorem Sane.track (h : Sane s) : Sane s.track := by
  unfold FlushWait.track
  split
  · split
    · split
      · exact ⟨rfl, by simp, h.awaited, h.uncalled⟩
      · exact ⟨h.same, h.pending, h.awaited, h.uncalled⟩
    · exact ⟨h.same, h.pending, h.awaited, h.uncalled⟩
  · exact h

theorem Sane.arrive (h : Sane s) (envelope : Envelope) : Sane (s.arrive envelope) := by
  unfold FlushWait.arrive FlushWait.handleQueueStatus
  split
  · split
    · exact ⟨h.track.same, h.track.pending, h.track.awaited, h.track.uncalled⟩
    · exact h.track
  · exact h.track

/-- A call gets a promise that exists. -/
theorem Sane.setCall (h : Sane s) {call : WaitCall} (hw : w < s.called)
    (hcall : ∀ k, call = .awaiting k → k < s.created) : Sane (s.setCall w call) := by
  refine ⟨h.same, h.pending, ?_, ?_⟩
  · intro v k hv
    by_cases hvw : v = w
    · subst hvw
      exact hcall k (by simpa [FlushWait.setCall] using hv)
    · exact h.awaited v k (by simpa [FlushWait.setCall, hvw] using hv)
  · intro v hv
    have hvw : v ≠ w := by
      have hle : s.called ≤ v := hv
      omega
    simpa [FlushWait.setCall, hvw] using h.uncalled v hv

theorem Sane.proceed (h : Sane s) (hw : w < s.called) (timeoutMs : ℕ) :
    Sane (s.proceed w timeoutMs) := by
  unfold FlushWait.proceed
  split
  · exact h.setCall hw (by simp)
  · split
    · rename_i k hk
      refine h.setCall hw ?_
      rintro _ ⟨⟩
      exact (h.pending k hk).1
    · apply Sane.setCall
      · refine ⟨rfl, ?_, ?_, h.uncalled⟩
        · rintro _ ⟨⟩
          simp
        · intro v k hv
          exact (h.awaited v k hv).trans (Nat.lt_succ_self _)
      · exact hw
      · rintro _ ⟨⟩
        exact Nat.lt_succ_self _

/-- The label is call `w`, or the next poll of it. -/
def Calls (s : FlushWait) (w : ℕ) : WaitLabel → Prop
  | .waitForFlush _ => w = s.called
  | .poll v => w = v
  | _ => False

/-- What a step does. A call waits for a queue status or goes on. -/
inductive Move (s : FlushWait) : WaitLabel → FlushWait → Prop
  | arrive (envelope : Envelope) (fromQueue : Bool) :
    Move s (.arrive envelope fromQueue) (s.arrive envelope)
  | poll {x : WaitLabel} {w timeoutMs elapsed : ℕ} (called timeoutMs' elapsed' : ℕ)
    (hx : s.Calls w x) (hcalled : s.called ≤ called) (hw : w < called)
    (hcall : s.calls w = .polling timeoutMs elapsed) (hstatus : s.queueStatusReceived = false) :
    Move s x ({ s with called := called }.setCall w (.polling timeoutMs' elapsed'))
  | proceed {x : WaitLabel} {w timeoutMs elapsed : ℕ} (called timeoutMs' : ℕ)
    (hx : s.Calls w x) (hcalled : s.called ≤ called) (hw : w < called)
    (hcall : s.calls w = .polling timeoutMs elapsed) :
    Move s x ({ s with called := called }.proceed w timeoutMs')
  | expire (k : ℕ) : Move s (.expire k)
    { s with
      promises := Function.update s.promises k (s.promises k).expired
      resolve := none
      promise := none
      remaining := 0 }

theorem Sane.move (h : Sane s) (hs : s.step x = some t) : Move s x t := by
  cases x with
  | arrive envelope fromQueue =>
    obtain rfl := Option.some.inj hs
    exact .arrive envelope fromQueue
  | waitForFlush timeoutMs =>
    obtain rfl := Option.some.inj hs
    have hnew : s.calls s.called = .polling 0 0 := h.uncalled _ le_rfl
    unfold FlushWait.waitForFlush
    dsimp only
    split
    · exact .proceed _ timeoutMs rfl (Nat.le_succ _) (Nat.lt_succ_self _) hnew
    · rename_i hstatus
      exact .poll _ timeoutMs 0 rfl (Nat.le_succ _) (Nat.lt_succ_self _) hnew
        (by simpa using hstatus)
  | poll w =>
    simp only [FlushWait.step, FlushWait.poll] at hs
    split at hs
    · rename_i hw
      split at hs
      · rename_i timeoutMs elapsed hcall
        split at hs
        · obtain rfl := Option.some.inj hs
          exact .proceed s.called timeoutMs rfl le_rfl hw hcall
        · rename_i hstatus
          obtain rfl := Option.some.inj hs
          refine .poll s.called timeoutMs (elapsed + 50) rfl le_rfl hw hcall ?_
          have hboth := hstatus
          simp only [Bool.or_eq_true, not_or, Bool.not_eq_true] at hboth
          exact hboth.1
      · cases hs
    · cases hs
  | expire k =>
    simp only [FlushWait.step, FlushWait.expire] at hs
    split at hs
    · obtain rfl := Option.some.inj hs
      exact .expire k
    · cases hs

theorem Sane.enter (h : Sane s) {called : ℕ} (hcalled : s.called ≤ called) :
    Sane { s with called := called } :=
  ⟨h.same, h.pending, h.awaited, fun w hw => h.uncalled w (hcalled.trans hw)⟩

theorem Sane.step (h : Sane s) (hs : s.step x = some t) : Sane t := by
  cases h.move hs with
  | arrive envelope fromQueue => exact h.arrive envelope
  | poll called timeoutMs elapsed hx hcalled hw hcall hstatus =>
    exact (h.enter hcalled).setCall hw (by simp)
  | proceed called timeoutMs hx hcalled hw hcall => exact (h.enter hcalled).proceed hw timeoutMs
  | expire k => exact ⟨rfl, by simp, h.awaited, h.uncalled⟩

theorem sane_of_run {l : List WaitLabel} (h : Run step (fun _ _ => True) initial l s) : Sane s :=
  h.invariant sane_initial fun _ _ _ hi _ hs => hi.step hs

/-- Promises that are settled and calls that have returned stay as they are. -/
structure Later (s t : FlushWait) : Prop where
  created : s.created ≤ t.created
  settled : ∀ k, k < s.created → (s.promises k).state ≠ .pending →
    (t.promises k).state = (s.promises k).state
  calls : ∀ w, (∀ timeoutMs elapsed, s.calls w ≠ .polling timeoutMs elapsed) →
    t.calls w = s.calls w

theorem Later.refl (s : FlushWait) : Later s s := ⟨le_rfl, fun _ _ _ => rfl, fun _ _ => rfl⟩

theorem Later.setCall (h : Later s t) {timeoutMs elapsed : ℕ}
    (hw : s.calls w = .polling timeoutMs elapsed) (call : WaitCall) :
    Later s (t.setCall w call) := by
  refine ⟨h.created, h.settled, fun v hv => ?_⟩
  have hvw : v ≠ w := by
    rintro rfl
    exact hv _ _ hw
  rw [← h.calls v hv]
  simp [FlushWait.setCall, hvw]

/-- Settling a promise once more changes nothing. -/
theorem Later.update {p : Pledge} (k : ℕ)
    (hp : (s.promises k).state ≠ .pending → p.state = (s.promises k).state)
    (hpromises : t.promises = Function.update s.promises k p) (hcreated : t.created = s.created)
    (hcalls : t.calls = s.calls) : Later s t := by
  refine ⟨hcreated.ge, fun j _ hj => ?_, fun w _ => by rw [hcalls]⟩
  rw [hpromises]
  by_cases hjk : j = k
  · subst hjk
    simpa using hp hj
  · simp [hjk]

theorem settle_state {p : Pledge} {state : PromiseState} (h : p.state ≠ .pending) :
    (p.settle state).state = p.state := by
  simp [Pledge.settle, h]

theorem later_track (s : FlushWait) : Later s s.track := by
  unfold track
  split
  · split
    · rename_i k hk
      split
      · exact .update k settle_state rfl rfl rfl
      · exact ⟨le_rfl, fun _ _ _ => rfl, fun _ _ => rfl⟩
    · exact ⟨le_rfl, fun _ _ _ => rfl, fun _ _ => rfl⟩
  · exact .refl s

theorem later_arrive (s : FlushWait) (envelope : Envelope) : Later s (s.arrive envelope) := by
  have h := later_track s
  unfold arrive handleQueueStatus
  split
  · split
    · exact ⟨h.created, h.settled, h.calls⟩
    · exact h
  · exact h

theorem later_proceed {timeoutMs elapsed : ℕ} (hw : s.calls w = .polling timeoutMs elapsed)
    (timeoutMs' : ℕ) : Later s (s.proceed w timeoutMs') := by
  unfold proceed
  split
  · exact (Later.refl s).setCall hw _
  · split
    · exact (Later.refl s).setCall hw _
    · apply Later.setCall _ hw
      refine ⟨Nat.le_succ _, fun k hk _ => ?_, fun _ _ => rfl⟩
      simp [Nat.ne_of_lt hk]

theorem Sane.later (h : Sane s) (hs : s.step x = some t) : Later s t := by
  cases h.move hs with
  | arrive envelope fromQueue => exact later_arrive s envelope
  | poll called timeoutMs elapsed hx hcalled hw hcall hstatus =>
    have hlater := (Later.refl { s with called := called }).setCall hcall
      (.polling timeoutMs elapsed)
    exact ⟨hlater.created, hlater.settled, hlater.calls⟩
  | proceed called timeoutMs hx hcalled hw hcall =>
    have hlater := later_proceed (s := { s with called := called }) hcall timeoutMs
    exact ⟨hlater.created, hlater.settled, hlater.calls⟩
  | expire k => exact .update k (p := (s.promises k).expired) settle_state rfl rfl rfl

/-- What a call has come to is final. -/
theorem outcome_step (h : Sane s) (hs : s.step x = some t) (hw : s.outcome w ≠ .pending) :
    t.outcome w = s.outcome w := by
  have hlater := h.later hs
  cases hcall : s.calls w with
  | polling timeoutMs elapsed => simp [outcome, hcall] at hw
  | returned =>
    have hsame := hlater.calls w (by simp [hcall])
    simp [outcome, hsame, hcall]
  | awaiting k =>
    have hsame := hlater.calls w (by simp [hcall])
    have hstate : (s.promises k).state ≠ .pending := by simpa [outcome, hcall] using hw
    simpa [outcome, hsame, hcall] using hlater.settled k (h.awaited w k hcall) hstate

theorem outcome_run {ok : FlushWait → WaitLabel → Prop} {l : List WaitLabel} (h : Sane s)
    (hrun : Run step ok s l t) (hw : s.outcome w ≠ .pending) : t.outcome w = s.outcome w := by
  have hmain : Sane t ∧ t.outcome w = s.outcome w :=
    hrun.invariant (P := fun t => Sane t ∧ t.outcome w = s.outcome w) ⟨h, rfl⟩
      fun _ _ _ hi _ hs => ⟨hi.1.step hs, (outcome_step hi.1 hs (hi.2 ▸ hw)).trans hi.2⟩
  exact hmain.2

/-! ### Between a queue status and the end of its flush -/

/-- No other queue status comes in. Until the count is down to zero, every envelope is one from the
queue and no timer goes off, except the one of the promise of call `w`. -/
def Calm (w : Option ℕ) (s : FlushWait) : WaitLabel → Prop
  | .arrive envelope fromQueue =>
    envelope.type ≠ .queueStatus ∧ (0 < s.remaining → fromQueue = true)
  | .expire k => 0 < s.remaining → ∃ v ∈ w, s.calls v = .awaiting k
  | _ => True

theorem Calm.expires (h : Calm (some w) s x) :
    Calm none s x ∨ ∃ k, x = .expire k ∧ s.calls w = .awaiting k := by
  cases x with
  | arrive envelope fromQueue => exact .inl h
  | waitForFlush timeoutMs => exact .inl trivial
  | poll v => exact .inl trivial
  | expire k =>
    by_cases hremaining : 0 < s.remaining
    · obtain ⟨v, ⟨⟩, hv⟩ := h hremaining
      exact .inr ⟨k, rfl, hv⟩
    · exact .inl fun hpos => absurd hpos hremaining

/-- `j` of the `n` envelopes that were announced have come in. -/
structure Window (n j : ℕ) (s : FlushWait) : Prop where
  sane : Sane s
  received : s.queueStatusReceived = true
  remaining : s.remaining = ((n - j : ℕ) : ℤ)

/-- Call `w` has promise `k`, which is fulfilled with the last envelope. -/
structure Holds (w k n j : ℕ) (s : FlushWait) : Prop extends Window n j s where
  call : s.calls w = .awaiting k
  waiting : j < n → s.promise = some k
  done : n ≤ j → (s.promises k).state = .fulfilled

variable {n j : ℕ}

theorem track_remaining (s : FlushWait) :
    s.track.remaining = if 0 < s.remaining then s.remaining - 1 else s.remaining := by
  unfold track
  split
  · split
    · split <;> rfl
    · rfl
  · rfl

theorem track_received (s : FlushWait) :
    s.track.queueStatusReceived = s.queueStatusReceived := by
  unfold track
  split
  · split
    · split <;> rfl
    · rfl
  · rfl

theorem track_promise (h : 1 < s.remaining) : s.track.promise = s.promise := by
  unfold track
  rw [if_pos (by omega)]
  split
  · rw [if_neg (by omega)]
  · rfl

theorem track_last (hk : s.resolve = some k) (hpending : (s.promises k).state = .pending)
    (h : s.remaining = 1) : (s.track.promises k).state = .fulfilled := by
  simp [track, hk, h, Pledge.settle, hpending]

theorem proceed_remaining (s : FlushWait) (w timeoutMs : ℕ) :
    (s.proceed w timeoutMs).remaining = s.remaining := by
  unfold proceed
  split
  · rfl
  · split <;> rfl

theorem proceed_received (s : FlushWait) (w timeoutMs : ℕ) :
    (s.proceed w timeoutMs).queueStatusReceived = s.queueStatusReceived := by
  unfold proceed
  split
  · rfl
  · split <;> rfl

theorem proceed_promise (h : s.promise = some k) (w timeoutMs : ℕ) :
    (s.proceed w timeoutMs).promise = some k := by
  unfold proceed
  split
  · exact h
  · rw [h]
    exact h

theorem proceed_returned (h : s.remaining ≤ 0) (w timeoutMs : ℕ) :
    (s.proceed w timeoutMs).calls w = .returned := by
  simp [proceed, h, setCall]

theorem proceed_awaiting (h : 0 < s.remaining) (w timeoutMs : ℕ) :
    ∃ k, (s.proceed w timeoutMs).calls w = .awaiting k ∧
      (s.proceed w timeoutMs).promise = some k := by
  unfold proceed
  rw [if_neg (by omega)]
  cases hpromise : s.promise with
  | none => exact ⟨s.created, by simp [setCall], rfl⟩
  | some k => exact ⟨k, by simp [setCall], hpromise⟩

theorem arrive_of_ne {envelope : Envelope} (h : envelope.type ≠ .queueStatus) :
    s.arrive envelope = s.track := by
  simp [arrive, h]

theorem Window.pos_iff (h : Window n j s) : 0 < s.remaining ↔ j < n := by
  rw [h.remaining]
  omega

/-- As long as the flush goes on, every envelope is one of those that were announced. -/
theorem Window.queued (h : Window n j s) {envelope : Envelope} {fromQueue : Bool}
    (hcalm : Calm none s (.arrive envelope fromQueue)) (hj : j < n) :
    (WaitLabel.arrive envelope fromQueue).queued = 1 := by
  rw [hcalm.2 (h.pos_iff.2 hj)]
  rfl

theorem Calls.queued (h : s.Calls w x) : x.queued = 0 := by
  cases x with
  | arrive => exact h.elim
  | expire => exact h.elim
  | _ => rfl

theorem Window.step (h : Window n j s) (hcalm : Calm none s x) (hs : s.step x = some t) :
    Window n (j + x.queued) t := by
  have hsane : Sane t := h.sane.step hs
  cases h.sane.move hs with
  | arrive envelope fromQueue =>
    rw [arrive_of_ne hcalm.1] at hsane ⊢
    refine ⟨hsane, by rw [track_received, h.received], ?_⟩
    rw [track_remaining, h.remaining]
    by_cases hj : j < n
    · rw [h.queued hcalm hj, if_pos (by omega)]
      omega
    · rw [if_neg (by omega)]
      omega
  | poll called timeoutMs elapsed hx hcalled hw hcall hstatus =>
    rw [h.received] at hstatus
    cases hstatus
  | proceed called timeoutMs hx hcalled hw hcall =>
    refine ⟨hsane, by rw [proceed_received]; exact h.received, ?_⟩
    rw [proceed_remaining, hx.queued]
    exact h.remaining
  | expire k =>
    have hnot : ¬ j < n := fun hj => by
      obtain ⟨v, hv, -⟩ := hcalm (h.pos_iff.2 hj)
      cases hv
    refine ⟨hsane, h.received, ?_⟩
    show (0 : ℤ) = _
    omega

theorem Holds.step (h : Holds w k n j s) (hcalm : Calm none s x) (hs : s.step x = some t) :
    Holds w k n (j + x.queued) t := by
  have hlater := h.sane.later hs
  have hresolve : j < n → s.resolve = some k := fun hj => h.sane.same.trans (h.waiting hj)
  refine ⟨h.toWindow.step hcalm hs, ?_, fun hj => ?_, fun hj => ?_⟩
  · rw [hlater.calls w (by simp [h.call]), h.call]
  · have hjn : j < n := by omega
    cases h.sane.move hs with
    | arrive envelope fromQueue =>
      have hremaining := h.remaining
      rw [h.queued hcalm hjn] at hj
      rw [arrive_of_ne hcalm.1, track_promise (by omega)]
      exact h.waiting hjn
    | poll called timeoutMs elapsed hx hcalled hw hcall hstatus => exact h.waiting hjn
    | proceed called timeoutMs hx hcalled hw hcall =>
      exact proceed_promise (s := { s with called := called }) (h.waiting hjn) _ _
    | expire k' =>
      obtain ⟨v, hv, -⟩ := hcalm (h.pos_iff.2 hjn)
      cases hv
  · by_cases hjn : j < n
    · -- The count reaches zero in this step, so it is the last envelope.
      have hpending := (h.sane.pending k (h.waiting hjn)).2
      cases h.sane.move hs with
      | arrive envelope fromQueue =>
        have hremaining := h.remaining
        rw [h.queued hcalm hjn] at hj
        rw [arrive_of_ne hcalm.1]
        exact track_last (hresolve hjn) hpending (by omega)
      | poll called timeoutMs elapsed hx hcalled hw hcall hstatus =>
        rw [hx.queued] at hj
        omega
      | proceed called timeoutMs hx hcalled hw hcall =>
        rw [hx.queued] at hj
        omega
      | expire k' =>
        obtain ⟨v, hv, -⟩ := hcalm (h.pos_iff.2 hjn)
        cases hv
    · have hdone := h.done (by omega)
      rw [hlater.settled k (h.sane.awaited w k h.call) (by simp [hdone]), hdone]

theorem Calls.unique {v : ℕ} (h : s.Calls w x) (h' : s.Calls v x) : w = v := by
  cases x with
  | arrive => exact h.elim
  | waitForFlush timeoutMs => exact Eq.trans h (Eq.symm h')
  | poll u => exact Eq.trans h (Eq.symm h')
  | expire => exact h.elim

theorem Window.call (h : Window n j s) (hw : s.Calls w x) (hs : s.step x = some t) :
    (n ≤ j → t.calls w = .returned) ∧ (j < n → ∃ k, Holds w k n j t) := by
  have hcalm : Calm none s x := by
    cases x with
    | arrive => exact hw.elim
    | expire => exact hw.elim
    | _ => trivial
  have hwindow := h.step hcalm hs
  rw [hw.queued] at hwindow
  cases h.sane.move hs with
  | arrive => exact hw.elim
  | expire => exact hw.elim
  | poll called timeoutMs elapsed hx hcalled hw hcall hstatus =>
    rw [h.received] at hstatus
    cases hstatus
  | proceed called timeoutMs hx hcalled hlt hcall =>
    obtain rfl := hw.unique hx
    constructor
    · intro hj
      have hzero : s.remaining ≤ 0 := not_lt.1 fun hpos => absurd (h.pos_iff.1 hpos) (by omega)
      exact proceed_returned (s := { s with called := called }) hzero _ _
    · intro hj
      obtain ⟨k, hk, hpromise⟩ :=
        proceed_awaiting (s := { s with called := called }) (h.pos_iff.2 hj) w timeoutMs
      exact ⟨k, hwindow, hk, fun _ => hpromise, fun hle => absurd hj (by omega)⟩

theorem arrivals_snoc (l : List WaitLabel) (x : WaitLabel) :
    arrivals (l ++ [x]) = arrivals l + x.queued := by
  simp [arrivals]

theorem Window.run {l : List WaitLabel} (h : Window n j s)
    (hrun : Run FlushWait.step (Calm none) s l t) : Window n (j + arrivals l) t := by
  induction hrun with
  | nil => exact h
  | snoc _ hcalm hs ih =>
    rw [arrivals_snoc, ← Nat.add_assoc]
    exact ih.step hcalm hs

theorem Holds.run {l : List WaitLabel} (h : Holds w k n j s)
    (hrun : Run FlushWait.step (Calm none) s l t) : Holds w k n (j + arrivals l) t := by
  induction hrun with
  | nil => exact h
  | snoc _ hcalm hs ih =>
    rw [arrivals_snoc, ← Nat.add_assoc]
    exact ih.step hcalm hs

theorem Holds.pending (h : Holds w k n j s) (hj : j < n) : s.outcome w = .pending := by
  simpa [outcome, h.call] using (h.sane.pending k (h.waiting hj)).2

/-- The timer of a pending promise rejects it. -/
theorem Holds.expire (h : Holds w k n j s) (hj : j < n) (hs : s.step (.expire k) = some t) :
    ∃ error, t.outcome w = .rejected error := by
  have hpending := (h.sane.pending k (h.waiting hj)).2
  cases h.sane.move hs with
  | proceed _ _ hx => exact hx.elim
  | poll _ _ _ hx => exact hx.elim
  | expire =>
    refine ⟨timeoutError (s.promises k).timeoutMs, ?_⟩
    simp [outcome, h.call, Pledge.expired, Pledge.settle, hpending]

/-- Before the last envelope, the promise is pending or was rejected by its own timer. -/
theorem Holds.run_own {l : List WaitLabel} (h : Holds w k n j s)
    (hrun : Run FlushWait.step (Calm (some w)) s l t) (hl : j + arrivals l < n) :
    Holds w k n (j + arrivals l) t ∨ Sane t ∧ ∃ error, t.outcome w = .rejected error := by
  induction hrun with
  | nil => exact .inl h
  | snoc _ hcalm hs ih =>
    rw [arrivals_snoc] at hl
    rw [arrivals_snoc, ← Nat.add_assoc]
    rcases ih (by omega) with hholds | ⟨hsane, error, hrejected⟩
    · rcases hcalm.expires with hnone | ⟨k', rfl, hk'⟩
      · exact .inl (hholds.step hnone hs)
      · obtain rfl : k = k' := by simpa [hholds.call] using hk'
        exact .inr ⟨hholds.sane.step hs, hholds.expire (by omega) hs⟩
    · refine .inr ⟨hsane.step hs, error, ?_⟩
      rw [outcome_step hsane hs (by simp [hrejected]), hrejected]

theorem window_status (h : Sane s) {status : Envelope} (htype : status.type = .queueStatus)
    (hpayload : status.payload = .queueStatus ⟨n⟩) : Window n 0 (s.arrive status) := by
  refine ⟨h.arrive status, ?_, ?_⟩ <;> simp [arrive, handleQueueStatus, htype, hpayload]

/-- A promise is not fulfilled before the last of the envelopes that were announced, and it is
fulfilled with it. -/
theorem flush_wait_exact {l₀ l₁ : List WaitLabel} {s₀ s₁ s₂ : FlushWait} {status : Envelope}
    (hreach : Run step (fun _ _ => True) initial l₀ s₀) (htype : status.type = .queueStatus)
    (hpayload : status.payload = .queueStatus ⟨n⟩)
    (hbefore : Run step (Calm none) (s₀.arrive status) l₁ s₁)
    (hcalls : s₁.Calls w x) (hs : s₁.step x = some s₂) :
    (∀ l₂ s₃, Run step (Calm (some w)) s₂ l₂ s₃ → arrivals (l₁ ++ l₂) < n →
      s₃.outcome w ≠ .fulfilled) ∧
    (∀ l₂ s₃, Run step (Calm none) s₂ l₂ s₃ → n ≤ arrivals (l₁ ++ l₂) →
      ∀ l s, Run step (fun _ _ => True) s₃ l s → s.outcome w = .fulfilled) := by
  have hwindow := (window_status (sane_of_run hreach) htype hpayload).run hbefore
  rw [Nat.zero_add] at hwindow
  obtain ⟨hreturned, hawaiting⟩ := hwindow.call hcalls hs
  have hsplit : ∀ l₂, arrivals (l₁ ++ l₂) = arrivals l₁ + arrivals l₂ := by simp [arrivals]
  constructor
  · intro l₂ s₃ hafter hlt
    rw [hsplit] at hlt
    obtain ⟨k, hholds⟩ := hawaiting (by omega)
    rcases hholds.run_own hafter hlt with h | ⟨-, error, h⟩
    · rw [h.pending hlt]
      simp
    · rw [h]
      simp
  · intro l₂ s₃ hafter hle l s hrest
    rw [hsplit] at hle
    by_cases hj : arrivals l₁ < n
    · obtain ⟨k, hholds⟩ := hawaiting hj
      have hend := hholds.run hafter
      have hfulfilled : s₃.outcome w = .fulfilled := by
        simpa [outcome, hend.call] using hend.done hle
      rw [outcome_run hend.sane hrest (by simp [hfulfilled]), hfulfilled]
    · have hsane : Sane s₂ := hwindow.sane.step hs
      have hfulfilled : s₂.outcome w = .fulfilled := by
        simp [outcome, hreturned (by omega)]
      have hall : Run step (fun _ _ => True) s₂ (l₂ ++ l) s :=
        (hafter.imp fun _ _ _ => trivial).trans hrest
      rw [outcome_run hsane hall (by simp [hfulfilled]), hfulfilled]

def statusEnvelope (n : ℕ) : Envelope :=
  { type := .queueStatus, payload := .queueStatus ⟨n⟩ }

def queuedEnvelope : Envelope := { type := .message }

def slowDownEnvelope : Envelope :=
  { type := .rateLimited, payload := .rateLimited ⟨1000, "rate limit exceeded"⟩ }

/-- Two envelopes are announced before the call. -/
def waitingForTwo : FlushWait := (initial.arrive (statusEnvelope 2)).waitForFlush 10000

theorem flush_wait_exact_two : (waitingForTwo.arrive queuedEnvelope).outcome 0 ≠ .fulfilled ∧
    ((waitingForTwo.arrive queuedEnvelope).arrive queuedEnvelope).outcome 0 = .fulfilled := by
  have hexact := flush_wait_exact (x := .waitForFlush 10000) (w := 0) .nil
    (show (statusEnvelope 2).type = .queueStatus from rfl) rfl .nil rfl rfl
  constructor
  · exact hexact.1 [.arrive queuedEnvelope true] _ (.snoc .nil ⟨by decide, fun _ => rfl⟩ rfl)
      (by decide)
  · exact hexact.2 [.arrive queuedEnvelope true, .arrive queuedEnvelope true] _
      (.snoc (.snoc .nil ⟨by decide, fun _ => rfl⟩ rfl) ⟨by decide, fun _ => rfl⟩ rfl)
      (by decide) [] _ .nil

/-- A notice of the relay counts as the first of two queued envelopes. The timer of a promise that
was fulfilled long ago takes the next promise away, and the announced envelope does not reach it. -/
theorem flush_wait_inexact :
    (∃ s, Run step (fun _ _ => True) initial [.arrive (statusEnvelope 2) false,
      .waitForFlush 10000, .arrive slowDownEnvelope false, .arrive queuedEnvelope true] s ∧
      s.outcome 0 = .fulfilled) ∧
    ∃ s, Run step (fun _ _ => True) initial [.arrive (statusEnvelope 1) false,
      .waitForFlush 10000, .arrive queuedEnvelope true, .arrive (statusEnvelope 1) false,
      .waitForFlush 10000, .expire 0, .arrive queuedEnvelope true, .expire 1] s ∧
      s.outcome 1 = .rejected "waitForFlush timed out after 10000ms" := by
  constructor
  · exact ⟨_, .of_exec rfl, by decide⟩
  · exact ⟨_, .of_exec rfl, by decide +kernel⟩

end FlushWait

end Pinch
