import Pinch.PipelineRun

/-! What becomes of a message when the evaluator is not sure. An answer to escalate, and no answer,
lead to the human wherever they are given; how sure an answer is said to be is never looked at. -/

namespace Pinch

open EnforcementPipeline PermissionsEnforcer

/-- The evaluator is asked in this stage. -/
def Stage.consults : Stage → Bool
  | .checking .. | .evaluating .. => true
  | .enforced _ | .done _ => false

def Answer.Uncertain (a : Answer) : Prop :=
  ∀ d ∈ a.verdict, d.action = .escalate ∨ d.confidence = .low

/-- An answer of low confidence asks for the human. -/
def Answer.Careful (a : Answer) : Prop :=
  ∀ d ∈ a.verdict, d.confidence = .low → d.action = .escalate

instance (a : Answer) : Decidable a.Careful :=
  inferInstanceAs (Decidable (∀ d ∈ a.verdict, _))

section Escalation

variable {config : CircuitBreakerConfig} {message : MessageRecord} {address : String}
  {answers : Nat → Answer} {n n' : Node} {r : RoutedMessage} {trace : Trace} {a : Answer}

theorem Answer.Uncertain.escalates (h : a.Uncertain) (hcareful : a.Careful) : a.Escalates := by
  intro d hd
  rcases h d hd with hescalate | hlow
  · exact hescalate
  · exact hcareful d hd hlow

/-- An answer that is not careful is uncertain. -/
theorem Answer.Uncertain.of_not_careful (h : ¬ a.Careful) : a.Uncertain := by
  intro d hd
  by_contra hneither
  refine h fun d' hd' hlow => ?_
  obtain rfl := Option.some.inj (hd.symm.trans hd')
  exact absurd (.inr hlow) hneither

/-- The message is allowed, and it is left to the human all the same. -/
def Trace.HandsOver (trace : Trace) (config : CircuitBreakerConfig) (address : String) (n : Node) :
    Prop :=
  ∃ result a, (Stage.enforced result, a) ∈ trace ∧ result.allowed = true ∧
    HandedOver config a.now address n

/-- What decides that the human gets a message once the evaluator is asked. -/
theorem CallCase.escalated_iff (h : CallCase config message address answers n r trace n')
    (hasked : trace ≠ []) : r.state = "escalated_to_human" ↔
      (∃ x ∈ trace, x.1.consults = true ∧ x.2.Escalates) ∨ trace.HandsOver config address n := by
  cases h with
  | early htrace => exact absurd htrace hasked
  | enforced pre result k post questions htrace hchecked hopen henforced =>
    have hpre : ∀ x ∈ pre, x.1.consults = true := by
      intro x hx
      obtain ⟨boundaries, rest, hstage⟩ := hchecked.stages x hx
      rw [hstage]
      rfl
    have hpost : ∀ x ∈ post, x.1.consults = true := by
      intro x hx
      obtain ⟨policy, nickname, routed, hstage⟩ := henforced.rest x hx
      rw [hstage]
      rfl
    have hescalates : (∃ x ∈ trace, x.1.consults = true ∧ x.2.Escalates) ↔
        (∃ x ∈ pre, x.2.Escalates) ∨ ∃ x ∈ post, x.2.Escalates := by
      rw [htrace]
      constructor
      · rintro ⟨x, hx, hconsults, hx'⟩
        rcases List.mem_append.1 hx with hx | hx
        · exact .inl ⟨x, hx, hx'⟩
        · rcases List.mem_cons.1 hx with rfl | hx
          · cases hconsults
          · exact .inr ⟨x, hx, hx'⟩
      · rintro (⟨x, hx, hx'⟩ | ⟨x, hx, hx'⟩)
        · exact ⟨x, by simp [hx], hpre x hx, hx'⟩
        · exact ⟨x, by simp [hx], hpost x hx, hx'⟩
    have hover : trace.HandsOver config address n ↔
        result.allowed = true ∧ HandedOver config (answers k).now address n := by
      constructor
      · rintro ⟨result', a, hmem, hallowed, hhanded⟩
        rw [htrace] at hmem
        rcases List.mem_append.1 hmem with hmem | hmem
        · cases hpre _ hmem
        · rcases List.mem_cons.1 hmem with heq | hmem
          · obtain ⟨hstage, rfl⟩ := Prod.mk.inj heq
            obtain rfl := Stage.enforced.inj hstage
            exact ⟨hallowed, hhanded⟩
          · cases hpost _ hmem
      · rintro ⟨hallowed, hhanded⟩
        exact ⟨result, answers k, by simp [htrace], hallowed, hhanded⟩
    rw [hescalates, hover]
    cases hallowed : result.allowed with
    | false =>
      obtain ⟨rfl, hstate⟩ := henforced.refused hallowed
      rw [hstate, hchecked.escalated hallowed]
      simp
    | true =>
      have hnone : ¬ ∃ x ∈ pre, x.2.Escalates := by
        rintro ⟨x, hx, hx'⟩
        exact ((hchecked.allowed hallowed).2 x hx).not_escalates hx'
      rcases henforced.routed hallowed with ⟨hhanded, rfl, hstate⟩ | ⟨hhanded, hstate⟩
      · exact iff_of_true hstate (.inr ⟨rfl, hhanded⟩)
      · rw [hstate]
        simp [hnone, hhanded]

/-- A call on a stored message returns. An uncertain or missing answer always leads to the human
exactly if each answer of low confidence asks for the human, or one of the answers does, or the
message is left to the human although it is allowed. -/
theorem uncertain_escalated_iff (config : CircuitBreakerConfig) (message : MessageRecord)
    (address : String) (answers : Nat → Answer) (n : Node)
    (hrow : (n.messageStore.getMessage message.id).isSome = true) :
    ∃ r trace n', (complete config message address answers).run n = .ok (.done r, trace) n' ∧
      ((∀ x ∈ trace, x.1.consults = true → x.2.Uncertain →
          r.state = "escalated_to_human" ∧
          (n'.messageStore.getMessage message.id).map (·.state) = some "escalated_to_human") ↔
        (∀ x ∈ trace, x.1.consults = true → x.2.Careful) ∨
        (∃ x ∈ trace, x.1.consults = true ∧ x.2.Escalates) ∨
        trace.HandsOver config address n) := by
  obtain ⟨r, trace, n', hrun, hcase⟩ := complete_case config message address answers n hrow
  refine ⟨r, trace, n', hrun, ?_⟩
  obtain ⟨row, hget, hrow, -⟩ := hcase.reported.row
  have hstored : r.state = "escalated_to_human" →
      (n'.messageStore.getMessage message.id).map (·.state) = some "escalated_to_human" := by
    intro hstate
    rw [hget, Option.map_some, hrow, hstate]
  constructor
  · intro hall
    by_cases hcareful : ∀ x ∈ trace, x.1.consults = true → x.2.Careful
    · exact .inl hcareful
    · push Not at hcareful
      obtain ⟨x, hx, hconsults, hcareless⟩ := hcareful
      have hstate := (hall x hx hconsults (.of_not_careful hcareless)).1
      exact .inr ((hcase.escalated_iff (List.ne_nil_of_mem hx)).1 hstate)
  · intro h x hx hconsults huncertain
    have hstate : r.state = "escalated_to_human" := by
      rw [hcase.escalated_iff (List.ne_nil_of_mem hx)]
      rcases h with hcareful | h
      · exact .inl ⟨x, hx, hconsults, huncertain.escalates (hcareful x hx hconsults)⟩
      · exact h
    exact ⟨hstate, hstored hstate⟩

/-- The first question is allowed and the second one gets no answer. -/
def hesitant : Nat → Answer
  | 2 => ⟨0, none⟩
  | _ => ⟨0, some ⟨.allow, .high, ""⟩⟩

theorem uncertain_escalated_iff_hesitant : ∃ r trace n',
    (complete {} receivedMessage "a" hesitant).run (guardedNode .fullAuto) =
      .ok (.done r, trace) n' ∧ trace.length = 3 ∧ r.state = "escalated_to_human" ∧
    (n'.messageStore.getMessage "m").map (·.state) = some "escalated_to_human" := by
  obtain ⟨r, trace, n', hrun, hescalated⟩ := uncertain_escalated_iff {} receivedMessage "a" hesitant
    (guardedNode .fullAuto) (by decide)
  have htrace : (returned ((complete {} receivedMessage "a" hesitant).run
      (guardedNode .fullAuto))).map (fun x => (x.2.length, x.2.all fun y => y.2.Careful,
        x.2.any fun y => y.1.consults && y.2.verdict.isNone)) = some (3, true, true) := by
    decide +kernel
  rw [hrun] at htrace
  obtain ⟨hlength, hrest⟩ := Prod.mk.inj (Option.some.inj htrace)
  obtain ⟨hcareful, hany⟩ := Prod.mk.inj hrest
  obtain ⟨x, hx, hasked⟩ := List.any_eq_true.1 hany
  rw [Bool.and_eq_true, Option.isNone_iff_eq_none] at hasked
  have hunanswered : x.2.Uncertain := fun d hd => by simp [hasked.2] at hd
  have hall : ∀ y ∈ trace, y.1.consults = true → y.2.Careful := fun y hy _ => by
    simpa using List.all_eq_true.1 hcareful y hy
  exact ⟨r, trace, n', hrun, hlength, hescalated.2 (.inl hall) x hx hasked.1 hunanswered⟩

/-- The state that a call returns and the one that it stores. -/
def outcome (answers : Nat → Answer) (n : Node) : Option (String × String) :=
  match (complete {} receivedMessage "a" answers).run n with
  | .ok (.done r, _) n' => (n'.messageStore.getMessage "m").map fun row => (r.state, row.state)
  | _ => none

/-- Every answer has low confidence, and nobody is asked to look at the message. -/
theorem low_confidence_not_escalated :
    outcome (fun _ => ⟨0, some ⟨.allow, .low, ""⟩⟩) (guardedNode .fullAuto) =
      some ("read_by_agent", "read_by_agent") ∧
    outcome (fun _ => ⟨0, some ⟨.deny, .low, ""⟩⟩) (guardedNode .fullAuto) =
      some ("failed", "failed") := by
  decide +kernel

end Escalation

end Pinch
