import Pinch.HubStep

/-! The routing table over whole runs: it holds exactly the clients whose channel is
open, under their own addresses, and a client is closed only by `Run`. -/

namespace Pinch

def RunPc.registering : RunPc → Option ℕ
  | .counting c | .announcing c _ | .flagging c => some c
  | _ => none

def RunPc.shuttingDown : RunPc → Bool
  | .cancelling _ shutdown => shutdown
  | .stopping | .stopped => true
  | _ => false

namespace Hub

structure Settled (x : Client) : Prop where
  flag : x.flushing = x.flush.isSome
  reading : x.route ≠ none → x.stage = .reading

structure Tidy (s : Hub) : Prop where
  born : ∀ a c, s.clients a = some c → c < s.nextClient
  address : ∀ a c, s.clients a = some c → (s.heap c).address = a
  opened : ∀ a c, s.clients a = some c → (s.heap c).closed = false
  listed : ∀ c, (s.heap c).closed = false → s.clients (s.heap c).address = some c
  registering : ∀ c, s.run.registering = some c →
    (s.heap c).closed = false ∧ (s.heap c).flush = none
  born_flush : ∀ c, (s.heap c).flush ≠ none → c < s.nextClient
  born_stage : ∀ c, (s.heap c).stage ≠ .gone → c < s.nextClient
  settled : ∀ c, Settled (s.heap c)
  closing : ∀ c shutdown, s.run = .cancelling c shutdown → (s.heap c).closed = true
  cancelled : ∀ c, (s.heap c).closed = true →
    (s.heap c).cancelled = true ∨ ∃ shutdown, s.run = .cancelling c shutdown
  shutdown : ∀ c, (s.heap c).stage ≠ .gone → (s.heap c).closed = true → s.run.shuttingDown = true
  single : ∀ c d, (s.heap c).stage ≠ .gone → (s.heap d).stage ≠ .gone →
    (s.heap c).address = (s.heap d).address → c = d

variable {s t : Hub} {label : HubLabel} {a : String} {c d : ℕ} {f : Client → Client}

theorem Tidy.eq_of_address (h : Tidy s) (hc : (s.heap c).closed = false)
    (hd : (s.heap d).closed = false) (ha : (s.heap c).address = (s.heap d).address) : c = d := by
  have hlist := h.listed c hc
  rw [ha, h.listed d hd] at hlist
  exact (Option.some.inj hlist).symm

theorem Tidy.born_route (h : Tidy s) (hc : (s.heap c).route ≠ none) : c < s.nextClient := by
  refine h.born_stage c ?_
  rw [(h.settled c).reading hc]
  simp

theorem Tidy.born_open (h : Tidy s) (hopen : (s.heap c).closed = false) : c < s.nextClient :=
  h.born _ _ (h.listed c hopen)

theorem Tidy.nextClient_closed (h : Tidy s) : (s.heap s.nextClient).closed = true := by
  by_contra hopen
  exact absurd (h.born_open (by simpa using hopen)) (lt_irrefl _)

theorem Settled.gone :
    Settled { address := "", closed := true, cancelled := true, stage := .gone } :=
  ⟨rfl, fun h => absurd rfl h⟩

theorem Tidy.start (mq : MessageQueue Parcel) (blockStore : BlockStore) :
    Tidy (start mq blockStore) := by
  constructor <;> simp [Hub.start, RunPc.registering, Settled.gone]

theorem forall_modify {P : Client → Prop} (h : ∀ c, P (s.heap c)) (hc : P (f (s.heap c))) :
    ∀ d, P ((s.modify c f).heap d) := by
  intro d
  by_cases hd : d = c
  · subst hd
    simpa using hc
  · simpa [heap_modify_of_ne hd] using h d

theorem forall_send {P : Client → Prop} {item : Item} (hP : ∀ x l, P { x with send := l } ↔ P x)
    (h : ∀ c, P (s.heap c)) : ∀ d, P ((s.send c item).heap d) := fun d =>
  (iff_of_eq (field_send P fun x l => propext (hP x l))).mpr (h d)

theorem settled_send (x : Client) (l : List Item) : Settled { x with send := l } ↔ Settled x :=
  ⟨fun h => ⟨h.flag, h.reading⟩, fun h => ⟨h.flag, h.reading⟩⟩

theorem eq_some_of_update_none {table : String → Option ℕ} {b : String}
    (h : Function.update table b none a = some c) : a ≠ b ∧ table a = some c := by
  by_cases hab : a = b
  · simp [hab] at h
  · exact ⟨hab, by simpa [hab] using h⟩

namespace Step

theorem born (hs : Step s label t) (h : Tidy s) :
    ∀ a c, t.clients a = some c → c < t.nextClient := by
  cases hs with
  | registered hrun ha =>
    rename_i b
    intro a c hc
    by_cases hab : a = b
    · subst hab
      have hcn : s.nextClient = c := by simpa using hc
      simp [hcn]
    · have hlt := h.born a c (by simpa [hab] using hc)
      exact Nat.lt_succ_of_lt hlt
  | unregistered hrun hstage htable | shutdownClosed hrun htable =>
    intro a c hc
    exact h.born a c (eq_some_of_update_none hc).2
  | _ => simpa using h.born

theorem table_address (hs : Step s label t) (h : Tidy s) :
    ∀ a c, t.clients a = some c → (t.heap c).address = a := by
  cases hs with
  | registered hrun ha =>
    rename_i b
    intro a c hc
    by_cases hab : a = b
    · subst hab
      obtain rfl : s.nextClient = c := by simpa using hc
      simp
    · have hc' : s.clients a = some c := by simpa [hab] using hc
      have hne : c ≠ s.nextClient := (h.born a c hc').ne
      simpa [heap_modify_of_ne hne] using h.address a c hc'
  | unregistered hrun hstage htable | shutdownClosed hrun htable =>
    intro a c hc
    simpa using h.address a c (eq_some_of_update_none hc).2
  | _ => simpa using h.address

theorem opened (hs : Step s label t) (h : Tidy s) :
    ∀ a c, t.clients a = some c → (t.heap c).closed = false := by
  cases hs with
  | registered hrun ha =>
    rename_i b
    intro a c hc
    by_cases hab : a = b
    · subst hab
      obtain rfl : s.nextClient = c := by simpa using hc
      simp
    · have hc' : s.clients a = some c := by simpa [hab] using hc
      have hne : c ≠ s.nextClient := (h.born a c hc').ne
      simpa [heap_modify_of_ne hne] using h.opened a c hc'
  | unregistered hrun hstage htable | shutdownClosed hrun htable =>
    intro a c hc
    obtain ⟨hne, hc'⟩ := eq_some_of_update_none hc
    have hcd := ne_of_apply_ne (fun c => (s.heap c).address) (h.address a c hc' ▸ hne)
    simpa [heap_modify_of_ne hcd] using h.opened a c hc'
  | _ => simpa using h.opened

theorem listed (hs : Step s label t) (h : Tidy s) :
    ∀ c, (t.heap c).closed = false → t.clients (t.heap c).address = some c := by
  cases hs with
  | registered hrun ha =>
    rename_i b
    intro c hc
    by_cases hcn : c = s.nextClient
    · subst hcn
      simp
    · have hlist := h.listed c (by simpa [heap_modify_of_ne hcn] using hc)
      have hne : (s.heap c).address ≠ b := by
        rintro rfl
        rw [ha] at hlist
        exact absurd hlist (by simp)
      simpa [heap_modify_of_ne hcn, hne] using hlist
  | unregistered hrun hstage htable | shutdownClosed hrun htable =>
    rename_i d
    intro c hc
    have hcd : c ≠ d := by
      rintro rfl
      simp at hc
    have hopen : (s.heap c).closed = false := by simpa [heap_modify_of_ne hcd] using hc
    have hne : (s.heap c).address ≠ (s.heap d).address := fun heq =>
      hcd (h.eq_of_address hopen (h.opened _ _ htable) heq)
    simpa [hne] using h.listed c hopen
  | _ => simpa using h.listed

theorem registering (hs : Step s label t) (h : Tidy s) : ∀ c, t.run.registering = some c →
    (t.heap c).closed = false ∧ (t.heap c).flush = none := by
  -- a client that is being registered has no flush that could move
  have hmoved : ∀ {c d pc}, (s.heap d).flush = some pc → s.run.registering = some c → c ≠ d := by
    rintro c _ pc hflush hreg rfl
    rw [(h.registering c hreg).2] at hflush
    exact absurd hflush (by simp)
  cases hs with
  | registered hrun ha =>
    intro c hc
    obtain rfl : s.nextClient = c := by simpa [RunPc.registering] using hc
    simp
  | counted hrun =>
    intro c hc
    exact h.registering c (by rw [hrun]; exact hc)
  | announced hrun =>
    intro c hc
    simpa using h.registering c (by rw [hrun]; simpa [RunPc.registering] using hc)
  | cancelled hrun =>
    rename_i shutdown _
    cases shutdown <;> simp [RunPc.registering]
  | uncounted hrun hcount | flagged hrun | unregistered hrun hstage htable | shutdownBegun hrun
  | shutdownClosed hrun htable | stopped hrun => simp [RunPc.registering]
  | flushMoved hflush hmove | drained hflush hnil | batched hflush | flushRemoved hflush
  | flushed hflush =>
    intro c hc
    simpa [heap_modify_of_ne (hmoved hflush hc)] using h.registering c hc
  | flushSent hflush =>
    intro c hc
    have hc' : s.run.registering = some c := by simpa using hc
    simpa [heap_modify_of_ne (hmoved hflush hc')] using h.registering c hc'
  | _ => simpa using h.registering

theorem nextClient_le (hs : Step s label t) : s.nextClient ≤ t.nextClient := by
  cases hs with
  | registered hrun ha => exact Nat.le_succ _
  | _ => simp

/-- `Run` closes a channel only for an unregistration or on shutdown. -/
theorem opened_after (hs : Step s label t) (h : (s.heap c).closed = false) :
    (t.heap c).closed = false ∨ label = .unregister c ∨ label = .closeNext c := by
  cases hs with
  | registered hrun ha =>
    by_cases hc : c = s.nextClient
    · simp [hc]
    · exact .inl (by simpa [heap_modify_of_ne hc] using h)
  | unregistered hrun hstage htable | shutdownClosed hrun htable =>
    rename_i d
    by_cases hc : c = d
    · simp [hc]
    · exact .inl (by simpa [heap_modify_of_ne hc] using h)
  | _ => exact .inl (by simpa using h)

theorem opened_before (hs : Step s label t) (hc : c < s.nextClient)
    (h : (t.heap c).closed = false) : (s.heap c).closed = false := by
  cases hs with
  | registered hrun ha => simpa [heap_modify_of_ne hc.ne] using h
  | unregistered hrun hstage htable | shutdownClosed hrun htable =>
    rename_i d
    have hcd : c ≠ d := by
      rintro rfl
      simp at h
    simpa [heap_modify_of_ne hcd] using h
  | _ => simpa using h

theorem registering_before (hs : Step s label t) (h : t.run.registering = some c) :
    s.run.registering = some c ∨ c = s.nextClient := by
  cases hs with
  | registered hrun ha => exact .inr (by simpa [RunPc.registering] using h.symm)
  | counted hrun | announced hrun => exact .inl (by simpa [hrun, RunPc.registering] using h)
  | cancelled hrun =>
    rename_i shutdown _
    cases shutdown <;> simp [RunPc.registering] at h
  | uncounted hrun hcount | unregistered hrun hstage htable | shutdownClosed hrun htable =>
    simp [RunPc.registering] at h
  | flagged hrun | shutdownBegun hrun | stopped hrun => simp [RunPc.registering] at h
  | _ => exact .inl (by simpa using h)

theorem address_eq (hs : Step s label t) (hc : c < s.nextClient) :
    (t.heap c).address = (s.heap c).address := by
  cases hs with
  | registered hrun ha => simp [heap_modify_of_ne hc.ne]
  | _ => simp

theorem born_flush (hs : Step s label t) (h : Tidy s) :
    ∀ c, (t.heap c).flush ≠ none → c < t.nextClient := by
  intro c hflush
  have hold : (s.heap c).flush ≠ none → c < t.nextClient := fun hne =>
    (h.born_flush c hne).trans_le hs.nextClient_le
  cases hs.flushView c with
  | same hsame haddr => exact hold (hsame ▸ hflush)
  | fresh hc hnone => exact absurd hnone hflush
  | begun hrun hnew haddr =>
    have hopen := (h.registering c (by simp [hrun, RunPc.registering])).1
    exact (h.born _ c (h.listed c hopen)).trans_le hs.nextClient_le
  | moved hl hpc hmove ht | drained hl hpc hnil ht | batched hl hpc ht | sent hl hpc ht
  | removed hl hpc ht | finished hl hpc hnew haddr => exact hold (by simp [hpc])

theorem settled (hs : Step s label t) (h : Tidy s) : ∀ c, Settled (t.heap c) := by
  have hflag : ∀ {d pc}, (s.heap d).flush = some pc → (s.heap d).flushing = true := by
    intro d pc hflush
    rw [(h.settled d).flag, hflush]
    rfl
  have hreading : ∀ {d call}, (s.heap d).route = some call → (s.heap d).stage = .reading :=
    fun {d call} hroute => (h.settled d).reading (by simp [hroute])
  have hnone : ∀ {d}, (s.heap d).stage ≠ .reading → (s.heap d).route = none := by
    intro d hstage
    by_contra hroute
    exact hstage ((h.settled d).reading hroute)
  cases hs with
  | registered hrun ha =>
    refine forall_modify h.settled ?_
    exact ⟨rfl, fun hr => absurd rfl hr⟩
  | announced hrun => exact forall_send settled_send h.settled
  | flagged hrun | flushed hflush =>
    refine forall_modify h.settled ?_
    exact ⟨rfl, (h.settled _).reading⟩
  | cancelled hrun | propagated hc | shutdownClosed hrun htable | written =>
    refine forall_modify h.settled ?_
    exact ⟨(h.settled _).flag, (h.settled _).reading⟩
  | unregistered hrun hstage htable | stale hrun hstage | authenticated hstage =>
    refine forall_modify h.settled ?_
    exact ⟨(h.settled _).flag, fun hr => absurd (hnone (by simp [hstage])) hr⟩
  | readFailed hstage hroute =>
    refine forall_modify h.settled ?_
    exact ⟨(h.settled _).flag, fun hr => absurd hroute hr⟩
  | called hstage hroute =>
    refine forall_modify h.settled ?_
    exact ⟨(h.settled _).flag, fun _ => hstage⟩
  | routed hroute hmove =>
    refine forall_modify h.settled ?_
    exact ⟨(h.settled _).flag, fun _ => hreading hroute⟩
  | blockChanged hroute | enqueued hroute hmq =>
    refine forall_modify h.settled ?_
    exact ⟨(h.settled _).flag, fun hr => absurd rfl hr⟩
  | replied hroute | delivered hroute =>
    refine forall_modify (forall_send settled_send h.settled) ?_
    exact ⟨by simpa using (h.settled _).flag, fun hr => absurd rfl hr⟩
  | flushMoved hflush hmove | drained hflush hnil | batched hflush | flushRemoved hflush =>
    refine forall_modify h.settled ?_
    exact ⟨hflag hflush, (h.settled _).reading⟩
  | flushSent hflush =>
    refine forall_modify (forall_send settled_send h.settled) ?_
    exact ⟨by simpa using hflag hflush, by simpa using (h.settled _).reading⟩
  | _ => exact h.settled

theorem closing (hs : Step s label t) (h : Tidy s) :
    ∀ c shutdown, t.run = .cancelling c shutdown → (t.heap c).closed = true := by
  cases hs with
  | cancelled hrun =>
    rename_i shutdown _
    cases shutdown <;> simp
  | unregistered hrun hstage htable | shutdownClosed hrun htable =>
    rintro c shutdown hc
    obtain ⟨rfl, -⟩ := RunPc.cancelling.inj hc
    simp
  | registered hrun ha | uncounted hrun hcount | counted hrun | announced hrun | flagged hrun
  | shutdownBegun hrun | stopped hrun => simp
  | _ => simpa using h.closing

theorem closed_cancelled (hs : Step s label t) (h : Tidy s) : ∀ c, (t.heap c).closed = true →
    (t.heap c).cancelled = true ∨ ∃ shutdown, t.run = .cancelling c shutdown := by
  -- outside of a closing every closed client has been cancelled
  have hidle : (∀ c shutdown, s.run ≠ .cancelling c shutdown) → ∀ c, (s.heap c).closed = true →
      (s.heap c).cancelled = true := fun hrun c hc =>
    (h.cancelled c hc).resolve_right fun ⟨shutdown, hcan⟩ => hrun c shutdown hcan
  cases hs with
  | registered hrun ha =>
    intro c hc
    have hne : c ≠ s.nextClient := by
      rintro rfl
      simp at hc
    have hc' : (s.heap c).closed = true := by simpa [heap_modify_of_ne hne] using hc
    have hcan := hidle (by simp [hrun]) c hc'
    exact .inl (by simpa [heap_modify_of_ne hne] using hcan)
  | uncounted hrun hcount | counted hrun | shutdownBegun hrun | stopped hrun =>
    exact fun c hc => .inl (hidle (by simp [hrun]) c hc)
  | announced hrun | flagged hrun =>
    intro c hc
    exact .inl (by simpa using hidle (by simp [hrun]) c (by simpa using hc))
  | cancelled hrun =>
    rename_i d _ _
    intro c hc
    by_cases hcd : c = d
    · simp [hcd]
    · have hc' : (s.heap c).closed = true := by simpa using hc
      rcases h.cancelled c hc' with hcan | ⟨sh, hcan⟩
      · exact .inl (by simpa [heap_modify_of_ne hcd] using hcan)
      · rw [hrun, RunPc.cancelling.injEq] at hcan
        exact absurd hcan.1.symm hcd
  | unregistered hrun hstage htable | shutdownClosed hrun htable =>
    rename_i d
    intro c hc
    by_cases hcd : c = d
    · exact .inr ⟨_, by rw [hcd, modify_run]⟩
    · have hc' : (s.heap c).closed = true := by simpa [heap_modify_of_ne hcd] using hc
      exact .inl (by simpa using hidle (by simp [hrun]) c hc')
  | propagated hcn =>
    rename_i d
    intro c hc
    by_cases hcd : c = d
    · simp [hcd]
    · simpa [heap_modify_of_ne hcd] using h.cancelled c (by simpa using hc)
  | _ => simpa using h.cancelled

theorem shuttingDown (hs : Step s label t) (h : s.run.shuttingDown = true) :
    t.run.shuttingDown = true := by
  cases hs with
  | cancelled hrun =>
    obtain rfl := by simpa [hrun, RunPc.shuttingDown] using h
    rfl
  | shutdownBegun hrun => rfl
  | shutdownClosed hrun htable => rfl
  | stopped hrun => rfl
  | _ => simp_all [RunPc.shuttingDown]

theorem shutdown (hs : Step s label t) (h : Tidy s) : ∀ c, (t.heap c).stage ≠ .gone →
    (t.heap c).closed = true → t.run.shuttingDown = true := by
  intro c hstage' hclosed
  have hold : (s.heap c).stage ≠ .gone → (s.heap c).closed = true → t.run.shuttingDown = true :=
    fun hstage hc => hs.shuttingDown (h.shutdown c hstage hc)
  cases hs with
  | registered hrun ha =>
    have hne : c ≠ s.nextClient := by
      rintro rfl
      simp at hclosed
    rw [heap_modify_of_ne hne] at hstage' hclosed
    exact hold hstage' hclosed
  | unregistered hrun hstage htable | stale hrun hstage =>
    rename_i d
    have hne : c ≠ d := by
      rintro rfl
      simp at hstage'
    rw [heap_modify_of_ne hne] at hstage' hclosed
    exact hold hstage' hclosed
  | shutdownClosed hrun htable => rfl
  | authenticated hstage =>
    rename_i d _
    by_cases hcd : c = d
    · subst hcd
      exact hold (by simp [hstage]) (by simpa using hclosed)
    · rw [heap_modify_of_ne hcd] at hstage' hclosed
      exact hold hstage' hclosed
  | readFailed hstage hroute =>
    rename_i d
    by_cases hcd : c = d
    · subst hcd
      exact hold (by simp [hstage]) (by simpa using hclosed)
    · rw [heap_modify_of_ne hcd] at hstage' hclosed
      exact hold hstage' hclosed
  | _ => exact hold (by simpa using hstage') (by simpa using hclosed)

theorem stage_before (hs : Step s label t) (h : (t.heap c).stage ≠ .gone) :
    ((s.heap c).stage ≠ .gone ∧ (t.heap c).address = (s.heap c).address) ∨
      (c = s.nextClient ∧ c < t.nextClient ∧ s.run = .idle ∧
        s.clients (t.heap c).address = none) := by
  cases hs with
  | registered hrun ha =>
    by_cases hc : c = s.nextClient
    · exact .inr ⟨hc, by simp [hc], hrun, by simpa [hc] using ha⟩
    · exact .inl (by simpa [heap_modify_of_ne hc] using h)
  | unregistered hrun hstage htable | stale hrun hstage | readFailed hstage hroute =>
    rename_i d
    by_cases hc : c = d
    · exact .inl (by simp [hc, hstage])
    · exact .inl (by simpa [heap_modify_of_ne hc] using h)
  | authenticated hstage =>
    rename_i d _
    by_cases hc : c = d
    · exact .inl (by simp [hc, hstage])
    · exact .inl (by simpa [heap_modify_of_ne hc] using h)
  | _ => exact .inl (by simpa using h)

theorem single (hs : Step s label t) (h : Tidy s) : ∀ c d, (t.heap c).stage ≠ .gone →
    (t.heap d).stage ≠ .gone → (t.heap c).address = (t.heap d).address → c = d := by
  -- an address that can be registered belongs to no connection
  have hfree : ∀ {d}, s.run = .idle → (s.heap d).stage ≠ .gone →
      s.clients (s.heap d).address ≠ none := by
    intro d hrun hd hnone
    cases hclosed : (s.heap d).closed with
    | false => exact absurd (h.listed d hclosed) (by simp [hnone])
    | true => exact absurd (h.shutdown d hd hclosed) (by simp [hrun, RunPc.shuttingDown])
  intro c d hc hd heq
  rcases hs.stage_before hc with ⟨hc', hca⟩ | ⟨rfl, -, hrun, hnone⟩
  · rcases hs.stage_before hd with ⟨hd', hda⟩ | ⟨rfl, -, hrun, hnone⟩
    · exact h.single c d hc' hd' (by rw [← hca, ← hda, heq])
    · exact absurd (by rw [← hca, heq]; exact hnone) (hfree hrun hc')
  · rcases hs.stage_before hd with ⟨hd', hda⟩ | ⟨rfl, -⟩
    · exact absurd (by rw [← hda, ← heq]; exact hnone) (hfree hrun hd')
    · rfl

theorem born_stage (hs : Step s label t) (h : Tidy s) :
    ∀ c, (t.heap c).stage ≠ .gone → c < t.nextClient := by
  intro c hstage
  rcases hs.stage_before hstage with ⟨hold, -⟩ | ⟨-, hborn, -⟩
  · exact (h.born_stage c hold).trans_le hs.nextClient_le
  · exact hborn

theorem tidy (hs : Step s label t) (h : Tidy s) : Tidy t :=
  ⟨hs.born h, hs.table_address h, hs.opened h, hs.listed h, hs.registering h, hs.born_flush h,
    hs.born_stage h, hs.settled h, hs.closing h, hs.closed_cancelled h, hs.shutdown h, hs.single h⟩

end Step

def toBob : Frame := ⟨40, some { toAddress := "bob", type := .message }⟩

end Hub

end Pinch
