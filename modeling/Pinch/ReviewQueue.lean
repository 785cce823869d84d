import Pinch.HostInvariant

/-! What becomes of a message that was not decided by the tool that received it. The tools that
come after it never look at its row again: the review queue only grows. -/

namespace Pinch

open CircuitBreaker EnforcementPipeline MessageManager Transition

/-- The task writes the row of that id on the word of a peer. -/
def Task.confirms (setup : Setup) (id : String) : Task → Bool
  | .verifying confirm peerPubKey =>
    textDecode confirm.messageId = id &&
      verifyDeliveryConfirmation setup confirm peerPubKey = some true
  | _ => false

section Handlers

variable {setup : Setup} {ctx : CallContext} {id : String} {r : MessageRecord}

theorem ownRow_other (config : CircuitBreakerConfig) {other : String} (h : id ≠ other) :
    OwnRow config other (fun n => n.messageStore.getMessage id = some r) where
  updateState _ _ _ := Spec.modify fun _ hn =>
    (MessageStore.getMessage_updateState_ne _ _ _ _ h).trans hn
  recordActivity _ _ := Spec.modify fun _ hn => hn
  recordEvent _ _ _ := recordEvent_keeps_messages (fun s => s.getMessage id = some r) _

/-- The row is as it was, and no work that remains is about it. -/
abbrev LeavesRow (id : String) (r : MessageRecord) : Option Task → Node → Prop :=
  Leaves (·.getMessage id = some r) fun _ task => task.running ≠ some id

theorem dispatch_spared (ctx : CallContext) (envelope : Envelope) :
    Spec (fun n => n.messageStore.getMessage id = some r) (dispatch setup ctx envelope)
      (LeavesRow id r) (fun _ n => n.messageStore.getMessage id = some r) := by
  intro n hn
  refine (dispatch_arrives setup ctx envelope).conseq (fun _ h => h) ?_ ?_ n rfl
  · rintro task m ⟨hextends, hnew⟩
    refine ⟨hextends id r hn, fun t ht hrunning => ?_⟩
    have hnone := (hnew t id ht hrunning).1
    rw [hn] at hnone
    cases hnone
  · exact fun _ m hextends => hextends id r hn

theorem resume_spared (ctx : CallContext) (verdict : Verdict) {task : Task} {n : Node}
    (hrow : n.messageStore.getMessage id = some r) (hother : task.running ≠ some id)
    (hconfirms : task.confirms setup id = false) :
    Spec (· = n) (resume setup ctx verdict task) (LeavesRow id r)
      (fun _ n => n.messageStore.getMessage id = some r) := by
  refine resume_rule hrow (by simp [Task.running]) ?_ ?_
  · rintro message address stage rfl hf
    have hne : id ≠ message.id := by
      rintro rfl
      exact hother (by simp [Task.running, hf])
    refine ((ownRow_other setup.breakerConfig hne).pipeline verdict stage).conseq ?_ ?_
      fun _ _ h => h
    · rintro _ rfl
      exact hrow
    · refine fun next n hn => ⟨hn, ?_⟩
      rintro _ ⟨⟩ hrunning
      simp only [Task.running] at hrunning
      split at hrunning
      · cases hrunning
      · exact hne (Option.some.inj hrunning).symm
  · rintro confirm key rfl hverify
    have hne : id ≠ textDecode confirm.messageId := by
      rintro rfl
      simp [Task.confirms, hverify] at hconfirms
    exact (MessageStore.getMessage_updateState_ne _ _ _ _ hne).trans hrow

end Handlers

theorem Journal.Posts.getMessage {i j : Journal} {id : String} {r : MessageRecord} (h : i.Posts j)
    (hi : i.messageStore.getMessage id = some r) : j.messageStore.getMessage id = some r := by
  induction h with
  | refl => exact hi
  | tail _ hpost ih =>
    cases hpost with
    | record sent _ _ _ _ hstore _ =>
      obtain ⟨hfresh, hget⟩ := MessageStore.getMessage_saveMessage hstore
      rw [hget, if_neg, ih]
      rintro rfl
      cases hfresh.symm.trans ih
    | _ => exact ih

namespace Host

variable {setup : HostSetup} {s s' t : Host} {x : HostLabel} {l : List HostLabel} {id : String}
  {r : MessageRecord}

/-- A verified confirmation writes the row of that id. -/
def confirms (setup : Setup) (id : String) (s : Host) : HostLabel → Bool
  | .input (.resume task _ _) =>
    (s.running.bind (·.process.tasks task)).any (·.confirms setup id)
  | _ => false

/-- The row is there, and no work under way is about it. -/
abbrev Undisturbed (id : String) (r : MessageRecord) (s : Host) : Prop :=
  s.Holds (·.getMessage id = some r) fun _ task => task.running ≠ some id

theorem undisturbed_step (h : s.Undisturbed id r) (hx : s.confirms setup.receive id x = false)
    (hs : s.step setup x = some s') : s'.Undisturbed id r := by
  refine h.step (fun _ _ _ _ htask => htask) (fun _ _ hposts hi => hposts.getMessage hi) ?_ hs
  rintro y t rfl ht
  obtain ⟨hrow, htasks⟩ := h.process t ht
  cases y with
  | incoming ctx envelope =>
    refine (dispatch_spared ctx envelope).conseq ?_ (fun _ _ h => h) fun _ _ h => h
    rintro _ rfl
    exact hrow
  | resume task ctx verdict =>
    intro u hu
    have hconfirms : u.confirms setup.receive id = false := by
      simpa [confirms, ht, hu] using hx
    exact resume_spared ctx verdict hrow (htasks task u hu) hconfirms

/-- A row that was there when no tool was running stays as it is, whatever tools are run
afterwards and whatever arrives, unless a peer's confirmation names it. A message that was left to
the human or to the policy is left there for good. -/
theorem undecided_for_good (hidle : s.running = none)
    (hrow : s.database.messageStore.getMessage id = some r)
    (hrun : Run (step setup) (fun s x => s.confirms setup.receive id x = false) s l t) :
    t.journal.messageStore.getMessage id = some r := by
  have hstart : s.Undisturbed id r := ⟨by simpa [journal, hidle] using hrow, by simp [hidle]⟩
  exact (hrun.invariant (P := Undisturbed id r) hstart
    fun _ _ _ h hx hs => undisturbed_step h hx hs).store

/-- The tool that received a message ends before its verdict, and the message comes in again. -/
theorem undecided_for_good_interrupted : ∃ s t : Host, s.running = none ∧
    Run (step toolSetup) (fun s x => s.confirms toolSetup.receive sentId x = false) s
      [.invoke .history, .input (.incoming otherContext sentEnvelope), .exit] t ∧
    ∃ r, t.journal.messageStore.getMessage sentId = some r ∧ r.direction = .inbound ∧
      r.state = "delivered" := by
  have heval : (arrived.bind (·.step toolSetup .exit)).bind (fun s =>
      (exec (step toolSetup) (fun s x => s.confirms toolSetup.receive sentId x = false) s
        [.invoke .history, .input (.incoming otherContext sentEnvelope), .exit]).map fun _ =>
      (s.running.isNone, (s.database.messageStore.getMessage sentId).map fun r =>
        (r.direction, r.state))) = some (true, some (.inbound, "delivered")) := by decide +kernel
  obtain ⟨s, -, heval⟩ := Option.bind_eq_some_iff.1 heval
  obtain ⟨t, ht, hfacts⟩ := Option.map_eq_some_iff.1 heval
  obtain ⟨hidle, hrow⟩ := Prod.mk.inj hfacts
  obtain ⟨r, hr, hr'⟩ := Option.map_eq_some_iff.1 hrow
  obtain ⟨hdirection, hstate⟩ := Prod.mk.inj hr'
  have hrunning := Option.isNone_iff_eq_none.1 hidle
  exact ⟨s, t, hrunning, Run.of_exec ht, r, undecided_for_good hrunning hr (Run.of_exec ht),
    hdirection, hstate⟩

end Host

end Pinch
