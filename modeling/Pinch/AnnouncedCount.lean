import Pinch.ControlMessages
import Pinch.FlushDrain
import Mathlib.Algebra.Group.Nat.Defs

/-! The number that `Run` announces to a client before the flush of its queue. It counts the
entries of the bucket, of which the flush passes over the expired and the corrupt ones. -/

namespace Pinch

/-- The count in a notice of the hub about the queue. -/
def Item.announcement : Item → Option ℤ
  | .control env =>
    match env.payload with
    | .queueStatus status => some status.pendingCount
    | _ => none
  | _ => none

namespace Hub

open Transition

variable {s t s₀ : Hub} {label : HubLabel} {c : ℕ} {now : Int64}

/-- The counts that were ever announced to client `c`. -/
def announcedTo (c : ℕ) (placed : List Placement) : List ℤ :=
  placed.filterMap fun p => if p.client = c then p.item.announcement else none

/-- Besides, `Run` can read the database and finds room for its notice. -/
structure Undisturbed (c : ℕ) (now : Int64) (s : Hub) (label : HubLabel) : Prop extends
    LeftAlone c now s label where
  counting : ∀ ok, label = .run ok → s.run = .counting c → ok = true
  room : ∀ ok n, label = .run ok → s.run = .announcing c n →
    (s.heap c).send.length < sendBufferSize

/-- What `RouteMessage` answers with announces nothing. -/
def Discreet (s : Hub) : Prop :=
  ∀ d parcel env, (s.heap d).route = some ⟨parcel, .reply env⟩ →
    (Item.control env).announcement = none

theorem discreet_of_run {mq : MessageQueue Parcel} {blockStore : BlockStore}
    {l : List HubLabel} (h : Run step (fun _ _ => True) (start mq blockStore) l s) :
    Discreet s := by
  refine h.invariant ?_ ?_
  · simp [Discreet, Hub.start]
  · intro s label t hdiscreet _ hstep
    exact (Step.of_step hstep).2.replying_of rfl (fun _ => rfl) hdiscreet

theorem announcedTo_eq (hs : Step s label t) (hdiscreet : Discreet s)
    (hrun : ∀ n ok, s.run = .announcing c n → label ≠ .run ok) :
    announcedTo c t.placed = announcedTo c s.placed := by
  have hskip : ∀ {u : Hub} {d : ℕ} {item : Item}, u.placed = s.placed →
      (d = c → item.announcement = none) →
      announcedTo c (u.send d item).placed = announcedTo c s.placed := by
    intro u d item hu hitem
    rcases placed_send_cases with heq | ⟨-, heq⟩
    · rw [heq, hu]
    · rw [heq, hu, announcedTo, List.filterMap_append, announcedTo]
      by_cases hd : d = c
      · simp [hd, hitem hd]
      · simp [hd]
  cases hs with
  | @announced d n ok env hannouncing =>
    refine hskip rfl ?_
    rintro rfl
    exact absurd rfl (hrun n ok hannouncing)
  | replied hroute => exact hskip rfl fun _ => hdiscreet _ _ _ hroute
  | delivered hroute => exact hskip rfl fun _ => rfl
  | flushSent hflush => exact hskip rfl fun _ => rfl
  | _ => rfl

/-- While a client is being registered, `Run` moves by its own steps only. -/
theorem Step.run_eq (hs : Step s label t) (hlabel : ∀ ok, label ≠ .run ok)
    (hreg : s.run.registering = some c) : t.run = s.run := by
  cases hs with
  | registered hrun ha | unregistered hrun hstage htable | shutdownBegun hrun
  | shutdownClosed hrun htable | stopped hrun => simp [hrun, RunPc.registering] at hreg
  | uncounted hrun hcount | counted hrun | announced hrun | flagged hrun | cancelled hrun =>
    exact absurd rfl (hlabel _)
  | _ => simp

/-- Client `c` of `s₀` is there with its queue, and nothing has been flushed since. -/
structure Waits (s₀ : Hub) (c : ℕ) (s : Hub) : Prop where
  tidy : Tidy s
  born : c < s.nextClient
  address : (s.heap c).address = (s₀.heap c).address
  ttl : s.mq.ttl = s₀.mq.ttl
  bucket : s.mq.bucket (s₀.heap c).address = s₀.mq.bucket (s₀.heap c).address
  connected : (s.heap c).closed = false ∧ (s.heap c).cancelled = false
  flush : (s.heap c).flush = none
  flushed : flushedTo c s.placed = flushedTo c s₀.placed

theorem Waits.step (h : Waits s₀ c s) (hok : LeftAlone c now s label)
    (hstep : s.step label = some t) (hrun : s.run = .flagging c → t.run.registering = some c) :
    Waits s₀ c t := by
  obtain ⟨hp, hs⟩ := Step.of_step hstep
  have htidy := hs.tidy h.tidy
  have hflush : (t.heap c).flush = none := by
    cases hs.flushView c with
    | same hflush haddr => exact hflush.trans h.flush
    | fresh hc hflush | finished hl hold hflush haddr => exact hflush
    | begun hflagging hflush haddr => exact (htidy.registering c (hrun hflagging)).2
    | moved hl hold hmove ht | drained hl hold hnil ht | batched hl hold ht | sent hl hold ht
    | removed hl hold ht => simp [h.flush] at hold
  have hlabel : label.flushes c = false := by
    cases label with
    | flushStep d now' ok =>
      by_contra hd
      obtain rfl : d = c := by simpa [HubLabel.flushes] using hd
      simp [Hub.step, hp, flushQueuedMessages, h.flush] at hstep
    | _ => rfl
  have hbucket := hok.others hlabel t hstep
  rw [h.address] at hbucket
  exact
    { tidy := htidy
      born := h.born.trans_le hs.nextClient_le
      address := (hs.address_eq h.born).trans h.address
      ttl := hs.ttl.trans h.ttl
      bucket := hbucket.trans h.bucket
      connected := hok.connected t hstep
      flush := hflush
      flushed := (flushedTo_eq hs hlabel).trans h.flushed }

theorem Waits.count (h : Waits s₀ c s) :
    s.mq.count (s.heap c).address = s₀.mq.count (s₀.heap c).address := by
  rw [MessageQueue.count, MessageQueue.count, h.address, h.bucket]

theorem Waits.waiting (h : Waits s₀ c s) :
    s.mq.waiting (s.heap c).address now = s₀.mq.waiting (s₀.heap c).address now := by
  rw [MessageQueue.waiting, MessageQueue.waiting, h.address, h.bucket, h.ttl]

/-- What `Run` announces if the bucket has `n` entries. -/
def announcement (n : ℕ) : List ℤ := if 0 < n then [(n : ℤ).bmod 4294967296] else []

/-- How far `Run` has come with client `c`, which had just been registered in `s₀`. -/
inductive Registering (s₀ : Hub) (c : ℕ) (now : Int64) (s : Hub) : Prop
  | counting (hrun : s.run = .counting c) (hwaits : Waits s₀ c s)
      (hplaced : announcedTo c s.placed = announcedTo c s₀.placed)
  | announcing (hpos : 0 < s₀.mq.count (s₀.heap c).address)
      (hrun : s.run = .announcing c (s₀.mq.count (s₀.heap c).address)) (hwaits : Waits s₀ c s)
      (hplaced : announcedTo c s.placed = announcedTo c s₀.placed)
  | flagging (hrun : s.run = .flagging c) (hwaits : Waits s₀ c s)
      (hplaced : announcedTo c s.placed =
        announcedTo c s₀.placed ++ announcement (s₀.mq.count (s₀.heap c).address))
  | flushing {s₁ : Hub} {l : List HubLabel} (htidy : Tidy s₁)
      (hstart : (s₁.heap c).flush = some .checkCtx)
      (hconn : (s₁.heap c).closed = false ∧ (s₁.heap c).cancelled = false)
      (hwaiting : s₁.mq.waiting (s₁.heap c).address now = s₀.mq.waiting (s₀.heap c).address now)
      (hflushed : flushedTo c s₁.placed = flushedTo c s₀.placed)
      (hrun : Run step (LeftAlone c now) s₁ l s)
      (hplaced : announcedTo c s.placed =
        announcedTo c s₀.placed ++ announcement (s₀.mq.count (s₀.heap c).address))
  | skipped (hrun : s.run.registering ≠ some c) (hwaits : Waits s₀ c s)
      (hzero : s₀.mq.count (s₀.heap c).address = 0)
      (hplaced : announcedTo c s.placed =
        announcedTo c s₀.placed ++ announcement (s₀.mq.count (s₀.heap c).address))

theorem step_run {ok : Bool} (hp : s.panicked = false) : s.step (.run ok) = s.runStep ok := by
  simp [step, hp]

/-- `Run` counts the entries of the bucket. -/
theorem Registering.count (hwaits : Waits s₀ c s) (hrun : s.run = .counting c)
    (hplaced : announcedTo c s.placed = announcedTo c s₀.placed) (hdiscreet : Discreet s)
    (hok : LeftAlone c now s (.run true)) (hstep : s.step (.run true) = some t) :
    Registering s₀ c now t := by
  obtain ⟨hp, hs⟩ := Step.of_step hstep
  have hwaits' := hwaits.step hok hstep (by simp [hrun])
  have hplaced' := (announcedTo_eq hs hdiscreet (by simp [hrun])).trans hplaced
  rw [step_run hp, runStep, hrun] at hstep
  simp only [if_true, hwaits.count, Option.some.injEq] at hstep
  by_cases hpos : 0 < s₀.mq.count (s₀.heap c).address
  · rw [if_pos hpos] at hstep
    subst hstep
    exact .announcing hpos rfl hwaits' hplaced'
  · rw [if_neg hpos] at hstep
    subst hstep
    refine .skipped (by simp [RunPc.registering]) hwaits' (by omega) ?_
    rw [hplaced', announcement, if_neg hpos, List.append_nil]

theorem Registering.announce {ok : Bool} (hwaits : Waits s₀ c s)
    (hpos : 0 < s₀.mq.count (s₀.heap c).address)
    (hrun : s.run = .announcing c (s₀.mq.count (s₀.heap c).address))
    (hplaced : announcedTo c s.placed = announcedTo c s₀.placed)
    (hok : LeftAlone c now s (.run ok)) (hroom : (s.heap c).send.length < sendBufferSize)
    (hstep : s.step (.run ok) = some t) : Registering s₀ c now t := by
  obtain ⟨hp, hs⟩ := Step.of_step hstep
  have hwaits' := hwaits.step hok hstep (by simp [hrun])
  rw [announces hp hrun hstep] at hwaits' ⊢
  refine .flagging (by simp) hwaits' ?_
  have hacc : accepts { s with run := .flagging c } c = true := by
    simp [accepts, hwaits.connected.1, hroom]
  rw [placed_send, if_pos hacc, announcedTo, List.filterMap_append, ← announcedTo, hplaced,
    announcement, if_pos hpos]
  simp [Item.announcement, queueStatusEnvelope]

theorem Registering.flag {ok : Bool} (hwaits : Waits s₀ c s) (hrun : s.run = .flagging c)
    (hplaced : announcedTo c s.placed =
      announcedTo c s₀.placed ++ announcement (s₀.mq.count (s₀.heap c).address))
    (hok : LeftAlone c now s (.run ok)) (hstep : s.step (.run ok) = some t) :
    Registering s₀ c now t := by
  obtain ⟨hp, hs⟩ := Step.of_step hstep
  have hconn := hok.connected t hstep
  have htidy := hs.tidy hwaits.tidy
  rw [step_run hp, runStep, hrun] at hstep
  obtain rfl := Option.some.inj hstep
  refine .flushing htidy (by simp) hconn ?_ ?_ .nil hplaced
  · simpa using hwaits.waiting
  · exact hwaits.flushed

/-- The other goroutines do not bring the registration forward. -/
theorem Waits.other (h : Waits s₀ c s) (hreg : s.run.registering = some c)
    (hdiscreet : Discreet s) (hok : LeftAlone c now s label) (hlabel : ∀ ok, label ≠ .run ok)
    (hstep : s.step label = some t) :
    t.run = s.run ∧ Waits s₀ c t ∧ announcedTo c t.placed = announcedTo c s.placed := by
  obtain ⟨-, hs⟩ := Step.of_step hstep
  have hrun := hs.run_eq hlabel hreg
  exact ⟨hrun, h.step hok hstep fun _ => hrun ▸ hreg,
    announcedTo_eq hs hdiscreet fun _ ok _ => hlabel ok⟩

theorem Registering.step (h : Registering s₀ c now s) (hdiscreet : Discreet s)
    (hok : Undisturbed c now s label) (hstep : s.step label = some t) :
    Registering s₀ c now t := by
  obtain ⟨-, hs⟩ := Step.of_step hstep
  have hleft := hok.toLeftAlone
  have hlabel : (∃ ok, label = .run ok) ∨ ∀ ok, label ≠ .run ok :=
    (em _).imp_right not_exists.mp
  cases h with
  | counting hrun hwaits hplaced =>
    rcases hlabel with ⟨ok, rfl⟩ | hlabel
    · obtain rfl := hok.counting ok rfl hrun
      exact .count hwaits hrun hplaced hdiscreet hleft hstep
    · obtain ⟨hrun', hwaits', hsame⟩ :=
        hwaits.other (by rw [hrun]; rfl) hdiscreet hleft hlabel hstep
      exact .counting (hrun'.trans hrun) hwaits' (hsame.trans hplaced)
  | announcing hpos hrun hwaits hplaced =>
    rcases hlabel with ⟨ok, rfl⟩ | hlabel
    · exact .announce hwaits hpos hrun hplaced hleft (hok.room ok _ rfl hrun) hstep
    · obtain ⟨hrun', hwaits', hsame⟩ :=
        hwaits.other (by rw [hrun]; rfl) hdiscreet hleft hlabel hstep
      exact .announcing hpos (hrun'.trans hrun) hwaits' (hsame.trans hplaced)
  | flagging hrun hwaits hplaced =>
    rcases hlabel with ⟨ok, rfl⟩ | hlabel
    · exact .flag hwaits hrun hplaced hleft hstep
    · obtain ⟨hrun', hwaits', hsame⟩ :=
        hwaits.other (by rw [hrun]; rfl) hdiscreet hleft hlabel hstep
      exact .flagging (hrun'.trans hrun) hwaits' (hsame.trans hplaced)
  | flushing htidy hstart hconn hwaiting hflushed hrun hplaced =>
    obtain ⟨hatt, -, -⟩ := drains_of_run htidy hstart hconn hrun
    refine .flushing htidy hstart hconn hwaiting hflushed (hrun.snoc hleft hstep) ?_
    refine (announcedTo_eq hs hdiscreet fun n ok hann => ?_).trans hplaced
    exact absurd (by rw [hann]; rfl) hatt.registered
  | skipped hrun hwaits hzero hplaced =>
    refine .skipped (fun hreg => ?_) (hwaits.step hleft hstep fun hflag => ?_) hzero ?_
    · rcases hs.registering_before hreg with hold | hnew
      · exact hrun hold
      · exact absurd hnew hwaits.born.ne
    · exact absurd (by rw [hflag]; rfl) hrun
    · refine (announcedTo_eq hs hdiscreet fun n ok hann => ?_).trans hplaced
      exact absurd (by rw [hann]; rfl) hrun

theorem registering_of_run {mq : MessageQueue Parcel} {blockStore : BlockStore}
    {l₀ l : List HubLabel} (hreach : Run step (fun _ _ => True) (start mq blockStore) l₀ s₀)
    (hrun : s₀.run = .counting c)
    (hconn : (s₀.heap c).closed = false ∧ (s₀.heap c).cancelled = false)
    (h : Run step (Undisturbed c now) s₀ l s) : Registering s₀ c now s := by
  have htidy := tidy_of_run hreach
  have hborn : c < s₀.nextClient := htidy.born_open hconn.1
  have hmain : Discreet s ∧ Registering s₀ c now s := by
    refine h.invariant (P := fun s => Discreet s ∧ Registering s₀ c now s) ⟨?_, ?_⟩ ?_
    · exact discreet_of_run hreach
    · refine .counting hrun ⟨htidy, hborn, rfl, rfl, rfl, hconn, ?_, rfl⟩ rfl
      exact (htidy.registering c (by rw [hrun]; rfl)).2
    · rintro s label t ⟨hdiscreet, hreg⟩ hok hstep
      exact ⟨(Step.of_step hstep).2.replying_of rfl (fun _ => rfl) hdiscreet,
        hreg.step hdiscreet hok hstep⟩
  exact hmain.2

/-- Once a registration and its flush are over: the number of entries was announced, and those
that can be sent were. -/
theorem Registering.over (h : Registering s₀ c now s) (hrun : s.run.registering ≠ some c)
    (hflush : (s.heap c).flush = none) :
    announcedTo c s.placed =
        announcedTo c s₀.placed ++ announcement (s₀.mq.count (s₀.heap c).address) ∧
      flushedTo c s.placed = flushedTo c s₀.placed ++
        (s₀.mq.waiting (s₀.heap c).address now).map QueueEntry.item := by
  cases h with
  | counting hcounting | announcing hpos hcounting | flagging hcounting =>
    exact absurd (by rw [hcounting]; rfl) hrun
  | flushing htidy hstart hconn hwaiting hflushed hsteps hplaced =>
    obtain ⟨-, ⟨sent, hdrains⟩, -⟩ := drains_of_run htidy hstart hconn hsteps
    obtain ⟨hsent, hout⟩ := hdrains.done hflush
    refine ⟨hplaced, ?_⟩
    rw [hout, hflushed, ← hwaiting, hsent]
  | skipped hnot hwaits hzero hplaced =>
    have hnil : (s₀.mq.bucket (s₀.heap c).address).messages.entries = [] :=
      List.length_eq_zero_iff.mp hzero
    refine ⟨hplaced, ?_⟩
    rw [hwaits.flushed, MessageQueue.waiting, hnil]
    simp

theorem announcement_eq_iff {n : ℕ} (hsmall : n < 2 ^ 31) {sent : List Item}
    (hle : sent.length ≤ n) :
    announcement n = (if sent = [] then [] else [(sent.length : ℤ)]) ↔ sent.length = n := by
  unfold announcement
  rcases Nat.eq_zero_or_pos n with rfl | hpos
  · simp
  · have hmod : (n : ℤ).bmod 4294967296 = n := Int.bmod_eq_of_le (by omega) (by omega)
    rw [if_pos hpos, hmod]
    by_cases hnil : sent = []
    · simp [hnil, hpos.ne]
    · simp only [if_neg hnil, List.cons.injEq, and_true]
      omega

/-- The announced number is the number of entries. It is the number of messages that are then sent
exactly if none of the entries has expired or is corrupt. -/
theorem announced_count {mq : MessageQueue Parcel} {blockStore : BlockStore}
    {l₀ l : List HubLabel} (hreach : Run step (fun _ _ => True) (start mq blockStore) l₀ s₀)
    (hrun : s₀.run = .counting c)
    (hconn : (s₀.heap c).closed = false ∧ (s₀.heap c).cancelled = false)
    (h : Run step (Undisturbed c now) s₀ l s) (hover : s.run.registering ≠ some c)
    (hflush : (s.heap c).flush = none) :
    ∃ announced sent, announcedTo c s.placed = announcedTo c s₀.placed ++ announced ∧
      flushedTo c s.placed = flushedTo c s₀.placed ++ sent ∧
      announced = announcement (s₀.mq.count (s₀.heap c).address) ∧
      sent = (s₀.mq.waiting (s₀.heap c).address now).map QueueEntry.item ∧
      (s₀.mq.count (s₀.heap c).address < 2 ^ 31 →
        (announced = (if sent = [] then [] else [(sent.length : ℤ)]) ↔
          ∀ x ∈ (s₀.mq.bucket (s₀.heap c).address).messages,
            (Bucket.live s₀.mq.ttl now x).isSome = true)) := by
  obtain ⟨hannounced, hsent⟩ := (registering_of_run hreach hrun hconn h).over hover hflush
  refine ⟨_, _, hannounced, hsent, rfl, rfl, fun hsmall => ?_⟩
  have hall : (s₀.mq.waiting (s₀.heap c).address now).length =
      s₀.mq.count (s₀.heap c).address ↔ _ := List.filterMap_length_eq_length
  rw [announcement_eq_iff hsmall, List.length_map]
  · exact hall
  · rw [List.length_map]
    exact List.length_filterMap_le _ _

theorem mq_run {ok : Bool} (h : s.step (.run ok) = some t) : t.mq = s.mq := by
  cases (Step.of_step h).2 <;> simp

/-- A step of the registration of client 0 or of its flush, as a check. -/
def serene (s : Hub) (label : HubLabel) : Bool :=
  s.calm label || (label = .run true && decide ((s.heap 0).send.length < sendBufferSize) &&
    (s.step label).all fun t => !(t.heap 0).closed && !(t.heap 0).cancelled)

theorem Undisturbed.of_serene (h : s.serene label = true) : Undisturbed 0 0 s label := by
  rcases Bool.or_eq_true_iff.mp h with hcalm | hrun
  · have hleft := LeftAlone.of_calm hcalm
    have hlabel : label = .flushStep 0 0 true := by
      simp only [calm, Bool.and_eq_true, decide_eq_true_eq] at hcalm
      exact hcalm.1.1
    exact ⟨hleft, by simp [hlabel], by simp [hlabel]⟩
  · simp only [Bool.and_eq_true, decide_eq_true_eq] at hrun
    obtain ⟨⟨rfl, hroom⟩, hall⟩ := hrun
    have hleft : LeftAlone 0 0 s (.run true) := by
      refine ⟨fun t ht => ?_, by simp, fun _ t ht => ?_⟩
      · rw [ht] at hall
        simpa using hall
      · rw [mq_run ht]
    refine ⟨hleft, fun ok heq _ => ?_, fun _ _ _ _ => hroom⟩
    exact (HubLabel.run.inj heq).symm

/-- The hub right after `bob` has come, with a queue for him. -/
def bobComes (mq : MessageQueue Parcel) : Hub := (start mq ⟨[]⟩).register "bob"

/-- The registration and the given number of steps of the flush. -/
def bobLabels (n : ℕ) : List HubLabel :=
  List.replicate 3 (.run true) ++ List.replicate n (.flushStep 0 0 true)

def bobServed (mq : MessageQueue Parcel) (n : ℕ) : Option Hub :=
  exec step (fun s x => s.serene x = true) (bobComes mq) (bobLabels n)

theorem reach_bobComes (mq : MessageQueue Parcel) :
    Run step (fun _ _ => True) (start mq ⟨[]⟩) [.register "bob"] (bobComes mq) :=
  .snoc .nil trivial rfl

theorem run_bobServed {mq : MessageQueue Parcel} {n : ℕ} (h : bobServed mq n = some s) :
    Run step (Undisturbed 0 0) (bobComes mq) (bobLabels n) s :=
  (Run.of_exec h).imp fun _ _ => Undisturbed.of_serene

/-- Two letters that can be sent. -/
theorem announced_count_mailbag : ∃ s sent, bobServed (mailbag 2) 10 = some s ∧
    flushedTo 0 s.placed = sent ∧ sent = [(letter 0).item, (letter 1).item] ∧
    announcedTo 0 s.placed = [(sent.length : ℤ)] := by
  have hexec : (bobServed (mailbag 2) 10).map (fun s =>
      (s.run.registering, (s.heap 0).flush)) = some (none, none) := by decide +kernel
  obtain ⟨s, hs, hend⟩ := Option.map_eq_some_iff.mp hexec
  obtain ⟨hover, hflush⟩ := Prod.mk.inj hend
  have hcounting : (bobComes (mailbag 2)).run = .counting 0 := rfl
  obtain ⟨announced, sent, hannounced, hsent, -, heq, hiff⟩ := announced_count
    (reach_bobComes (mailbag 2)) hcounting ⟨rfl, rfl⟩ (run_bobServed hs) (by rw [hover]; simp)
    hflush
  have hletters : sent = [(letter 0).item, (letter 1).item] := heq.trans (by decide +kernel)
  have hright := (hiff (by decide +kernel)).mpr (by decide +kernel)
  refine ⟨s, sent, hs, hsent, hletters, ?_⟩
  rw [hannounced, hright, if_neg (by simp [hletters])]
  rfl

/-- An expired letter and a corrupt value. -/
def deadMail : MessageQueue Parcel :=
  (MessageQueue.new 1000 100).setBucket "bob"
    ⟨2, (SortedMap.empty.put (encodeKey (-200) 1) (some ⟨-200, "amy", ⟨toBob, 0⟩⟩)).put
      (encodeKey 0 2) none, by decide +kernel⟩

/-- Two messages are announced and none is sent. -/
theorem dead_mail_announced : ∃ s, bobServed deadMail 3 = some s ∧
    Run step (Undisturbed 0 0) (bobComes deadMail) (bobLabels 3) s ∧
    s.run.registering ≠ some 0 ∧ (s.heap 0).flush = none ∧
    announcedTo 0 s.placed = [2] ∧ flushedTo 0 s.placed = [] := by
  have hexec : (bobServed deadMail 3).map (fun s =>
      (s.run.registering, (s.heap 0).flush, announcedTo 0 s.placed, flushedTo 0 s.placed)) =
      some (none, none, [2], []) := by decide +kernel
  obtain ⟨s, hs, hend⟩ := Option.map_eq_some_iff.mp hexec
  simp only [Prod.mk.injEq] at hend
  exact ⟨s, hs, run_bobServed hs, by simp [hend.1], hend.2⟩

end Hub

end Pinch
