import Pinch.Journal

/-! The history of an agent over all its tools. Rows are only added, messages to one connection
are numbered upwards in the order in which they are stored, and what was handed to the relay was
stored before, once and in the same order. -/

namespace Pinch

open Transition

/-- The columns of a row that no statement updates. -/
structure MessageContent where
  id : String
  connectionAddress : String
  direction : Direction
  body : String
  threadId : Option String
  replyTo : Option String
  priority : Priority
  sequence : Nat
  attribution : Option Attribution
  createdAt : String
  deriving DecidableEq

def MessageRecord.content (r : MessageRecord) : MessageContent :=
  ⟨r.id, r.connectionAddress, r.direction, r.body, r.threadId, r.replyTo, r.priority, r.sequence,
    r.attribution, r.createdAt⟩

@[simp] theorem MessageStore.written_content (now : Int) (id state : String)
    (failureReason : Option String) (r : MessageRecord) :
    (written now id state failureReason r).content = r.content := by
  unfold written
  split_ifs <;> rfl

def MessageStore.history (s : MessageStore) : List MessageContent := s.rows.map (·.content)

@[simp] theorem MessageStore.history_updateState (s : MessageStore) (now : Int) (id state : String)
    (failureReason : Option String) :
    (s.updateState now id state failureReason).history = s.history := by
  simp [history, updateState]

theorem MessageStore.rows_saveMessage {s t : MessageStore} {message : MessageRecord}
    (h : s.saveMessage message = .ok t) : t.rows = s.rows ++ [message] := by
  unfold saveMessage at h
  split_ifs at h
  exact congrArg rows (Except.ok.inj h).symm

theorem MessageStore.history_saveMessage {s t : MessageStore} {message : MessageRecord}
    (h : s.saveMessage message = .ok t) : t.history = s.history ++ [message.content] := by
  simp [history, rows_saveMessage h]

namespace Journal

variable {i j : Journal} {p : String}

def history (j : Journal) : List MessageContent := j.messageStore.history

/-- The numbers of the messages to `p`, in the order of the table. -/
def numbers (j : Journal) (p : String) : List Nat :=
  (j.history.filter fun c => c.direction = .outbound ∧ c.connectionAddress = p).map (·.sequence)

/-- The stored messages of the agent, by the identifier and the address of their envelopes. -/
def recorded (j : Journal) : List (Bytes × String) :=
  (j.history.filter (·.direction = .outbound)).map fun c => (textEncode c.id, c.connectionAddress)

theorem Post.grows (h : i.Post j) :
    i.history <+: j.history ∧ i.activityFeed <+: j.activityFeed := by
  cases h with
  | activity event => exact ⟨List.prefix_rfl, List.prefix_append _ _⟩
  | count p => exact ⟨List.prefix_rfl, List.prefix_rfl⟩
  | record sent _ _ _ _ hstore _ => simp [history, counted, MessageStore.history_saveMessage hstore]
  | notify _ => exact ⟨List.prefix_rfl, List.prefix_rfl⟩

theorem Write.grows (h : i.Write j) :
    i.history <+: j.history ∧ i.activityFeed <+: j.activityFeed := by
  cases h with
  | post h => exact h.grows
  | updateState now id state reason => simp [history]
  | receive _ hstore => simp [history, MessageStore.history_saveMessage hstore]

theorem Reaches.grows (h : i.Reaches j) : i.history <+: j.history :=
  h.rec List.prefix_rfl fun _ hwrite ih => ih.trans hwrite.grows.1

theorem counter_counted (j : Journal) (p q : String) :
    (j.counted q).counter p = if p = q then j.counter p + 1 else j.counter p := by
  by_cases h : p = q
  · subst h
    simp [counter, counted]
  · simp [counter, counted, AList.lookup_insert_ne h, h]

/-- As long as the counter is a double, the number is the counter itself. -/
theorem number_eq (h : j.counter p < 2 ^ 53) : j.number p = j.counter p := by
  have hnext := toDouble_shift (k := j.counter p + 1) (e := 0) h
  have hown := toDouble_shift (k := j.counter p) (e := 0) h.le
  simp only [Nat.pow_zero, Nat.mul_one] at hnext hown
  rw [number, hnext, Nat.add_sub_cancel, hown]

theorem Post.counter_le (h : i.Post j) (p : String) : i.counter p ≤ j.counter p := by
  have hcounted (q : String) : i.counter p ≤ (i.counted q).counter p := by
    rw [counter_counted]
    split <;> omega
  cases h with
  | count q => exact hcounted q
  | record sent => exact hcounted _
  | _ => exact le_rfl

/-- The numbers used so far and the counter form an increasing list. -/
def Numbered (p : String) (j : Journal) : Prop :=
  (j.numbers p ++ [j.counter p]).Pairwise (· < ·)

theorem numbered_iff : j.Numbered p ↔
    (j.numbers p).Pairwise (· < ·) ∧ ∀ n ∈ j.numbers p, n < j.counter p := by
  simp [Numbered, List.pairwise_append]

theorem Numbered.mono {i j : Journal} (h : i.Numbered p) (hnumbers : j.numbers p = i.numbers p)
    (hcounter : i.counter p ≤ j.counter p) : j.Numbered p := by
  rw [numbered_iff] at h ⊢
  rw [hnumbers]
  exact ⟨h.1, fun n hn => (h.2 n hn).trans_le hcounter⟩

theorem numbers_saveMessage {message : MessageRecord} {store : MessageStore}
    (h : i.messageStore.saveMessage message = .ok store) (hj : j.messageStore = store) :
    j.numbers p = i.numbers p ++
      if message.direction = .outbound ∧ message.connectionAddress = p then [message.sequence]
      else [] := by
  rw [numbers, history, hj, MessageStore.history_saveMessage h]
  split_ifs with hmessage
  · simp [numbers, history, MessageRecord.content, hmessage]
  · simp [numbers, history, MessageRecord.content, hmessage]

/-- A stored message gets the counter as it was, and the counter goes up. -/
theorem Post.numbered (h : i.Post j) (hi : i.counter p ≤ 2 ^ 53 → i.Numbered p)
    (hj : j.counter p ≤ 2 ^ 53) : j.Numbered p := by
  have hcounter := h.counter_le p
  have hold := hi (hcounter.trans hj)
  cases h with
  | activity event => exact hold.mono rfl hcounter
  | count q => exact hold.mono rfl hcounter
  | notify _ => exact hold.mono rfl hcounter
  | @record message store sent hdirection _ _ hsequence hstore _ =>
    by_cases hp : message.connectionAddress = p
    · subst hp
      have hnext : (i.counted message.connectionAddress).counter message.connectionAddress =
          i.counter message.connectionAddress + 1 := by simp [counter_counted]
      have hlt : i.counter message.connectionAddress < 2 ^ 53 :=
        Nat.lt_of_succ_le (hnext.ge.trans hj)
      have hnumber : message.sequence = i.counter message.connectionAddress :=
        hsequence.trans (number_eq hlt)
      rw [Numbered, numbers_saveMessage hstore rfl, if_pos ⟨hdirection, rfl⟩, hnumber,
        List.pairwise_append]
      refine ⟨hold, List.pairwise_singleton _ _, fun m hm n hn => ?_⟩
      rw [List.mem_singleton.1 hn]
      show m < (i.counted _).counter _
      rw [hnext]
      rcases List.mem_append.1 hm with hm | hm
      · exact ((numbered_iff.1 hold).2 m hm).trans (Nat.lt_succ_self _)
      · exact List.mem_singleton.1 hm ▸ Nat.lt_succ_self _
    · refine hold.mono ?_ hcounter
      rw [numbers_saveMessage hstore rfl, if_neg (by simp [hp]), List.append_nil]

theorem Write.numbered (h : i.Write j) (hi : i.counter p ≤ 2 ^ 53 → i.Numbered p)
    (hj : j.counter p ≤ 2 ^ 53) : j.Numbered p := by
  cases h with
  | post h => exact h.numbered hi hj
  | updateState now id state reason => exact (hi hj).mono (by simp [numbers, history]) le_rfl
  | receive hdirection hstore =>
    refine (hi hj).mono ?_ le_rfl
    rw [numbers_saveMessage hstore rfl, if_neg (by simp [hdirection]), List.append_nil]

end Journal

/-- The messages among the envelopes, by identifier and address. -/
def messagesOf (envelopes : List Envelope) : List (Bytes × String) :=
  (envelopes.filter (·.type = .message)).map fun e => (e.messageId, e.toAddress)

theorem messagesOf_append (a b : List Envelope) :
    messagesOf (a ++ b) = messagesOf a ++ messagesOf b := by
  simp [messagesOf]

theorem messagesOf_eq_nil {envelopes : List Envelope} (h : ∀ e ∈ envelopes, e.type ≠ .message) :
    messagesOf envelopes = [] := by
  simpa [messagesOf] using h

namespace Journal

variable {i j : Journal}

theorem recorded_saveMessage {message : MessageRecord} {store : MessageStore}
    (h : i.messageStore.saveMessage message = .ok store) (hj : j.messageStore = store) :
    j.recorded = i.recorded ++ if message.direction = .outbound then
      [(textEncode message.id, message.connectionAddress)] else [] := by
  rw [recorded, history, hj, MessageStore.history_saveMessage h]
  split_ifs with hmessage
  · simp [recorded, history, MessageRecord.content, hmessage]
  · simp [recorded, history, MessageRecord.content, hmessage]

/-- Every message handed over, by this tool or by the ones before it, is a stored one, and no
stored one is handed over twice. -/
theorem Post.sent (h : i.Post j) {earlier : List Envelope}
    (hi : (messagesOf (earlier ++ i.outbox)).Sublist i.recorded) :
    (messagesOf (earlier ++ j.outbox)).Sublist j.recorded := by
  cases h with
  | activity event => exact hi
  | count q => exact hi
  | notify hsent =>
    rw [← List.append_assoc, messagesOf_append, messagesOf_eq_nil hsent, List.append_nil]
    exact hi
  | @record message store sent hdirection _ _ _ hstore hsent =>
    rw [recorded_saveMessage hstore rfl, if_pos hdirection, ← List.append_assoc, messagesOf_append]
    refine hi.append ?_
    cases sent with
    | none => simp [messagesOf]
    | some e =>
      obtain ⟨htype, hid, hto⟩ := hsent e rfl
      simp [messagesOf, htype, hid, hto]

theorem Write.sent (h : i.Write j) {earlier : List Envelope}
    (hi : (messagesOf (earlier ++ i.outbox)).Sublist i.recorded) :
    (messagesOf (earlier ++ j.outbox)).Sublist j.recorded := by
  cases h with
  | post h => exact h.sent hi
  | updateState now id state reason => simpa [recorded, history] using hi
  | receive hdirection hstore =>
    rw [recorded_saveMessage hstore rfl, if_neg (by simp [hdirection]), List.append_nil]
    exact hi

theorem recorded_ids_nodup (j : Journal) : (j.recorded.map Prod.fst).Nodup := by
  have hids : (j.history.map (·.id)).Nodup := by
    simpa [history, MessageStore.history, MessageRecord.content, Function.comp_def] using
      j.messageStore.ids_nodup
  have hsublist : (j.recorded.map Prod.fst).Sublist ((j.history.map (·.id)).map textEncode) := by
    simp only [recorded, List.map_map, Function.comp_def]
    exact List.filter_sublist.map _
  exact (hids.map textEncode_injective).sublist hsublist

end Journal

namespace Host

variable {setup : HostSetup} {s t : Host} {l : List HostLabel} {log : List (List Envelope)}

theorem history_grows (hrun : Run (step setup) (fun _ _ => True) s l t) :
    s.journal.history <+: t.journal.history :=
  journal_invariant (P := fun j => s.journal.history <+: j.history) hrun List.prefix_rfl
    (fun _ _ hwrite h => h.trans hwrite.grows.1) fun _ h => h

/-- Whatever happens, the rows keep their content and their order, and so do the lines of the
activity feed. -/
theorem history_append_only (hrun : Run (step setup) (fun _ _ => True) s l t) :
    s.journal.history <+: t.journal.history ∧
      s.journal.activityFeed <+: t.journal.activityFeed := by
  refine ⟨history_grows hrun, ?_⟩
  exact journal_invariant (P := fun j => s.journal.activityFeed <+: j.activityFeed) hrun
    List.prefix_rfl (fun _ _ hwrite h => h.trans hwrite.grows.2) fun _ h => h

/-- A message has arrived and waits for its verdict. -/
def arrived : Option Host :=
  exec (step toolSetup) (fun _ _ => True) saved
    [.exit, .invoke .history, .input (.incoming otherContext sentEnvelope)]

theorem history_append_only_arrived : ∃ s t,
    Run (step toolSetup) (fun _ _ => True) s [.input (.resume 0 otherContext none)] t ∧
      s.journal.history.length = 1 ∧
      (t.journal.messageStore.getMessage sentId).map (·.state) = some "read_by_agent" ∧
      s.journal.history <+: t.journal.history ∧
      s.journal.activityFeed <+: t.journal.activityFeed := by
  have heval : arrived.bind (fun s => (exec (step toolSetup) (fun _ _ => True) s
      [.input (.resume 0 otherContext none)]).map fun t =>
        (s.journal.history.length, (t.journal.messageStore.getMessage sentId).map (·.state))) =
      some (1, some "read_by_agent") := by decide +kernel
  obtain ⟨s, -, heval⟩ := Option.bind_eq_some_iff.1 heval
  obtain ⟨t, ht, hfacts⟩ := Option.map_eq_some_iff.1 heval
  obtain ⟨hlength, hstate⟩ := Prod.mk.inj hfacts
  exact ⟨s, t, Run.of_exec ht, hlength, hstate, history_append_only (Run.of_exec ht)⟩

/-- The database of a new agent. -/
def Fresh (s : Host) : Prop :=
  s.database = ⟨.empty, [], ∅⟩ ∧ s.running = none

/-- What a tool that ends has handed over. -/
def handedOver (s : Host) : HostLabel → Option (List Envelope)
  | .exit => some s.journal.outbox
  | _ => none

/-- A new agent with one connection. -/
def newcomer : Host := ⟨helloSender.connectionStore, ⟨.empty, [], ∅⟩, none⟩

def greeting : List HostLabel := [.invoke (.send (hello none)), .command helloContext, .exit]

theorem run_greeting : ∃ t log,
    Run (logged (step helloHost) handedOver) (fun _ _ => True) (newcomer, []) greeting (t, log) ∧
      messagesOf (log.flatten ++ t.journal.outbox) = [(textEncode sentId, otherAddress)] ∧
      t.journal.numbers otherAddress = [1] ∧ t.journal.counter otherAddress = 2 := by
  have heval : (exec (logged (step helloHost) handedOver) (fun _ _ => True) (newcomer, [])
      greeting).map (fun u => (messagesOf (u.2.flatten ++ u.1.journal.outbox),
        u.1.journal.numbers otherAddress, u.1.journal.counter otherAddress)) =
      some ([(textEncode sentId, otherAddress)], [1], 2) := by decide +kernel
  obtain ⟨⟨t, log⟩, hrun, hfacts⟩ := Option.map_eq_some_iff.1 heval
  obtain ⟨hmessages, hfacts⟩ := Prod.mk.inj hfacts
  obtain ⟨hnumbers, hcounter⟩ := Prod.mk.inj hfacts
  exact ⟨t, log, Run.of_exec hrun, hmessages, hnumbers, hcounter⟩

/-- The messages to one connection carry increasing numbers, each below the counter, until the
counter leaves the integers that a double holds exactly. -/
theorem numbers_increase (hs : s.Fresh) (hrun : Run (step setup) (fun _ _ => True) s l t)
    {p : String} (hcounter : t.journal.counter p ≤ 2 ^ 53) :
    (t.journal.numbers p).Pairwise (· < ·) ∧
      ∀ n ∈ t.journal.numbers p, n < t.journal.counter p := by
  have hstart : s.journal.Numbered p := by
    rw [journal, hs.2, hs.1]
    simp [Journal.Numbered, Journal.numbers, Journal.history, MessageStore.history,
      MessageStore.empty]
  have hnumbered := journal_invariant (P := fun j => j.counter p ≤ 2 ^ 53 → j.Numbered p) hrun
    (fun _ => hstart) (fun _ _ hwrite hi => hwrite.numbered hi) fun _ h => h
  exact Journal.numbered_iff.1 (hnumbered hcounter)

theorem numbers_increase_greeting : ∃ t,
    Run (step helloHost) (fun _ _ => True) newcomer greeting t ∧
      t.journal.numbers otherAddress = [1] ∧ t.journal.counter otherAddress = 2 ∧
      (t.journal.numbers otherAddress).Pairwise (· < ·) ∧
      ∀ n ∈ t.journal.numbers otherAddress, n < t.journal.counter otherAddress := by
  obtain ⟨t, log, hrun, -, hnumbers, hcounter⟩ := run_greeting
  have hrun' : Run (step helloHost) (fun _ _ => True) newcomer greeting t := .of_logged hrun
  exact ⟨t, hrun', hnumbers, hcounter,
    numbers_increase ⟨rfl, rfl⟩ hrun' (by rw [hcounter]; decide)⟩

/-- The first number that is no longer exact has been used before. -/
example (j : Journal) (p : String) (h : j.counter p = 2 ^ 53) : j.number p = 2 ^ 53 - 1 := by
  rw [Journal.number, h]
  decide +kernel

/-- Over the whole life of an agent the messages handed to the relay are stored ones, in the order
of the table and none of them twice. -/
theorem messages_sent_once (hs : s.running = none)
    (hrun : Run (logged (step setup) handedOver) (fun _ _ => True) (s, []) l (t, log)) :
    (messagesOf (log.flatten ++ t.journal.outbox)).Sublist t.journal.recorded ∧
      ((messagesOf (log.flatten ++ t.journal.outbox)).map Prod.fst).Nodup := by
  have hsent : (messagesOf (log.flatten ++ t.journal.outbox)).Sublist t.journal.recorded := by
    refine hrun.invariant (P := fun u => (messagesOf (u.2.flatten ++
      u.1.journal.outbox)).Sublist u.1.journal.recorded) ?_ ?_
    · simp [journal, hs, messagesOf]
    · rintro ⟨u, log⟩ x ⟨v, log'⟩ hu - hstep
      obtain ⟨hv, rfl⟩ := logged_eq_some.1 hstep
      rcases journal_step hv with ⟨hx, hreaches⟩ | ⟨rfl, heq⟩
      · have hquiet : handedOver u x = none := by
          cases x with
          | exit => exact absurd rfl hx
          | _ => rfl
        simp only [hquiet, Option.toList_none, List.append_nil]
        exact hreaches.rec hu fun _ hwrite ih => hwrite.sent ih
      · have hrecorded : v.journal.recorded = u.journal.recorded := by rw [heq]; rfl
        rw [hrecorded, heq]
        simpa [handedOver] using hu
  exact ⟨hsent, t.journal.recorded_ids_nodup.sublist (hsent.map _)⟩

theorem messages_sent_once_greeting : ∃ t log,
    Run (logged (step helloHost) handedOver) (fun _ _ => True) (newcomer, []) greeting (t, log) ∧
      messagesOf (log.flatten ++ t.journal.outbox) = [(textEncode sentId, otherAddress)] ∧
      (messagesOf (log.flatten ++ t.journal.outbox)).Sublist t.journal.recorded ∧
      ((messagesOf (log.flatten ++ t.journal.outbox)).map Prod.fst).Nodup := by
  obtain ⟨t, log, hrun, hmessages, -, -⟩ := run_greeting
  exact ⟨t, log, hrun, hmessages, messages_sent_once rfl hrun⟩

end Host

end Pinch
