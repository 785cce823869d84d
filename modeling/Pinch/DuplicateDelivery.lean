import Pinch.FlushBatch

/-! How often a queued entry is placed. Between the send of an entry and its removal
the entry is still in the queue, so a batch read in that gap holds it again. -/

namespace Pinch

def Placement.queuedKey (p : Placement) : Option (String × QueueKey) :=
  match p.item with
  | .queued key _ _ => some (p.address, key)
  | _ => none

def Client.isRemoving (x : Client) : Bool :=
  match x.flush with
  | some (.removing _ _) => true
  | _ => false

namespace Hub

open Transition

variable {s t : Hub} {label : HubLabel} {c : ℕ}

def delivered (s : Hub) : List (String × QueueKey) := s.placed.filterMap Placement.queuedKey

/-- Removals succeed, and no batch is read while a flush of the same address stands
between a send and its removal. -/
def flushesAlone (s : Hub) : HubLabel → Bool
  | .flushStep c _ ok =>
    match (s.heap c).flush with
    | some .flushBatch => (List.range s.nextClient).all fun d =>
        (s.heap d).address ≠ (s.heap c).address || !(s.heap d).isRemoving
    | some (.removing _ _) => ok
    | _ => true
  | _ => true

theorem Step.delivered_cases (hs : Step s label t) : t.delivered = s.delivered ∨
    ∃ c now ok e rest, label = .flushStep c now ok ∧ s.accepts c = true ∧
      (s.heap c).flush = some (.sending (e :: rest)) ∧
      t = (s.send c (.queued e.key e.senderAddr e.envelope)).setFlush c (.removing e rest) ∧
      t.delivered = s.delivered ++ [((s.heap c).address, e.key)] := by
  rcases hs.placed_cases with heq | ⟨p, heq, hp⟩
  · exact .inl (by rw [Hub.delivered, heq, Hub.delivered])
  · have hdel : t.delivered = s.delivered ++ [p].filterMap Placement.queuedKey := by
      rw [Hub.delivered, heq, List.filterMap_append, Hub.delivered]
    cases hp with
    | control hacc => exact .inl (hdel.trans (List.append_nil _))
    | direct hl hacc hroute ht => exact .inl (hdel.trans (List.append_nil _))
    | queued hl hacc hflush ht =>
      exact .inr ⟨_, _, _, _, _, hl, hacc, hflush, ht, hdel⟩

structure Once (s : Hub) : Prop where
  bounded : ∀ a k, (a, k) ∈ s.delivered → (ofLex k).2 ≤ (s.mq.bucket a).sequence
  removing : ∀ a k v, (a, k) ∈ s.delivered → (k, v) ∈ (s.mq.bucket a).messages →
    ∃ c e rest, (s.heap c).flush = some (.removing e rest) ∧ e.key = k ∧ (s.heap c).address = a
  sorted : ∀ c, (s.heap c).unsent.Pairwise (fun e e' => e.key < e'.key)
  unsent : ∀ c, (s.heap c).closed = false → ∀ e ∈ (s.heap c).unsent,
    ((s.heap c).address, e.key) ∉ s.delivered
  nodup : s.delivered.Nodup

theorem Once.start (mq : MessageQueue Parcel) (blockStore : BlockStore) :
    Once (start mq blockStore) := by
  constructor <;> simp [Hub.start, Hub.delivered, Client.unsent]

namespace Step

theorem once_bounded (hs : Step s label t) (h : Once s) (hread : ∀ c, BatchRead s.mq (s.heap c)) :
    ∀ a k, (a, k) ∈ t.delivered → (ofLex k).2 ≤ (t.mq.bucket a).sequence := by
  intro a k hk
  have hseq := (hs.evolves a).1
  rcases hs.delivered_cases with heq | ⟨c, now, ok, e, rest, rfl, hacc, hflush, rfl, heq⟩
  · exact (h.bounded a k (heq ▸ hk)).trans hseq
  · rw [heq, List.mem_append, List.mem_singleton, Prod.mk.injEq] at hk
    rcases hk with hk | ⟨rfl, rfl⟩
    · exact (h.bounded a k hk).trans hseq
    · have hin : e ∈ (s.heap c).batch := by simp [Client.batch, hflush, FlushPc.batch]
      exact (hread c e hin).1.trans hseq

theorem once_removing (hs : Step s label t) (htidy : Tidy s) (hok : s.flushesAlone label = true)
    (h : Once s) : ∀ a k v, (a, k) ∈ t.delivered → (k, v) ∈ (t.mq.bucket a).messages →
      ∃ c e rest, (t.heap c).flush = some (.removing e rest) ∧ e.key = k ∧
        (t.heap c).address = a := by
  intro a k v hk hv
  have hold : (a, k) ∈ s.delivered → ∃ c e rest, (t.heap c).flush = some (.removing e rest) ∧
      e.key = k ∧ (t.heap c).address = a := by
    intro hk
    have hqueued : (k, v) ∈ (s.mq.bucket a).messages :=
      ((hs.evolves a).2 _ hv).resolve_right (Nat.not_lt_of_le (h.bounded a k hk))
    obtain ⟨c, e, rest, hflush, rfl, rfl⟩ := h.removing a k v hk hqueued
    rcases hs.removing htidy hflush with ⟨hsame, haddr⟩ | ⟨now, ok, rfl, hmq⟩
    · exact ⟨c, e, rest, hsame, rfl, haddr⟩
    · obtain rfl : ok = true := by simpa [flushesAlone, hflush] using hok
      simp [hmq] at hv
  rcases hs.delivered_cases with heq | ⟨c, now, ok, e, rest, rfl, hacc, hflush, rfl, heq⟩
  · exact hold (heq ▸ hk)
  · rw [heq, List.mem_append, List.mem_singleton, Prod.mk.injEq] at hk
    rcases hk with hk | ⟨rfl, rfl⟩
    · exact hold hk
    · exact ⟨c, e, rest, by simp, rfl, by simp⟩

theorem once_unsent (hs : Step s label t) (htidy : Tidy s) (hok : s.flushesAlone label = true)
    (h : Once s) : ∀ c, (t.heap c).closed = false → ∀ e ∈ (t.heap c).unsent,
      ((t.heap c).address, e.key) ∉ t.delivered := by
  intro c hopen e he
  rcases hs.unsent c with hnil | ⟨hsub, haddr⟩ | ⟨now, rfl, hflush, rfl⟩
  · simp [hnil] at he
  · have hin : e ∈ (s.heap c).unsent := hsub.subset he
    have hborn := htidy.born_flush c (fun hnone => by simp [Client.unsent, hnone] at hin)
    have hopen' := hs.opened_before hborn hopen
    have hnot := h.unsent c hopen' e hin
    rw [haddr]
    rcases hs.delivered_cases with heq | ⟨d, now, ok, e', rest, rfl, hacc, hflush, rfl, heq⟩
    · rwa [heq]
    · rw [heq, List.mem_append, List.mem_singleton, Prod.mk.injEq]
      rintro (hold | ⟨ha, hkey⟩)
      · exact hnot hold
      · -- the entry that was sent is not sent again by its own flush, and no other flush
        -- of an open client has that address
        obtain rfl := htidy.eq_of_address hopen' (not_closed_of_accepts hacc) ha
        have hsorted := h.sorted c
        simp only [Client.unsent, FlushPc.unsent, hflush, Option.map_some, Option.getD_some,
          List.pairwise_cons] at hsorted
        have hrest : e ∈ rest := by simpa [Client.unsent, FlushPc.unsent] using he
        exact absurd (hsorted.1 e hrest) (hkey ▸ lt_irrefl _)
  · have hin : e ∈ s.mq.flushBatch (s.heap c).address flushBatchSize now := by
      simpa [Client.unsent, FlushPc.unsent] using he
    obtain ⟨msg, hmem, -⟩ := MessageQueue.mem_of_mem_flushBatch hin
    intro hdel
    obtain ⟨d, e', rest, hd, -, ha⟩ := h.removing _ _ _ (by simpa [Hub.delivered] using hdel) hmem
    have hborn := htidy.born_flush d (by simp [hd])
    simp only [flushesAlone, hflush, List.all_eq_true, List.mem_range] at hok
    simpa [ha, Client.isRemoving, hd] using hok d hborn

theorem once_nodup (hs : Step s label t) (h : Once s) : t.delivered.Nodup := by
  rcases hs.delivered_cases with heq | ⟨c, now, ok, e, rest, rfl, hacc, hflush, rfl, heq⟩
  · rw [heq]
    exact h.nodup
  · have hin : e ∈ (s.heap c).unsent := by simp [Client.unsent, FlushPc.unsent, hflush]
    have hnot := h.unsent c (not_closed_of_accepts hacc) e hin
    rw [heq]
    exact h.nodup.append (List.nodup_singleton _) (by simpa using hnot)

end Step

/-- No queued entry is placed twice in a run whose removals succeed and whose batches
are read only when every flush of the address has removed what it sent. -/
theorem delivered_nodup {mq : MessageQueue Parcel} {blockStore : BlockStore} {l : List HubLabel}
    (h : Run step (fun s x => s.flushesAlone x) (start mq blockStore) l s) : s.delivered.Nodup := by
  refine (h.invariant (P := fun s => Tidy s ∧ (∀ c, BatchRead s.mq (s.heap c)) ∧ Once s)
    ⟨.start mq blockStore, ?_, .start mq blockStore⟩ ?_).2.2.nodup
  · simp [start, BatchRead, Client.batch]
  · rintro s label t ⟨htidy, hread, honce⟩ hok hstep
    obtain ⟨-, hs⟩ := Step.of_step hstep
    exact ⟨hs.tidy htidy, hs.batchRead hread, hs.once_bounded honce hread,
      hs.once_removing htidy hok honce, hs.unsent_sorted honce.sorted,
      hs.once_unsent htidy hok honce, hs.once_nodup honce⟩

def flushedLetters : Hub :=
  (exec step (fun s x => s.flushesAlone x) (start (mailbag 2) ⟨[]⟩)
    ([.register "bob", .run true, .run true, .run true] ++
      List.replicate 7 (.flushStep 0 0 true))).get (by decide +kernel)

theorem delivered_nodup_letters :
    flushedLetters.delivered = [("bob", (letter 0).key), ("bob", (letter 1).key)] ∧
      flushedLetters.delivered.Nodup :=
  ⟨by decide +kernel, delivered_nodup (.of_exec (Option.some_get _).symm)⟩

/-- A client that disconnects between a send and its removal and connects again, with
every database operation succeeding; and a removal that fails. -/
theorem queued_entry_placed_twice :
    (∃ l s, Run step (fun _ x => x.succeeds) (start (mailbag 1) ⟨[]⟩) l s ∧ ¬ s.delivered.Nodup) ∧
      ∃ l s, FreeRun (start (mailbag 1) ⟨[]⟩) l s ∧ s.nextClient = 1 ∧ ¬ s.delivered.Nodup := by
  refine ⟨⟨_, _, .of_exec (l := [.register "bob", .run true, .run true, .run true,
      .authResult 0 true, .flushStep 0 0 true, .flushStep 0 0 true, .flushStep 0 0 true,
      .readError 0, .unregister 0, .run true,
      .register "bob", .run true, .run true, .run true,
      .flushStep 1 0 true, .flushStep 1 0 true, .flushStep 1 0 true])
    (Option.some_get (by decide +kernel)).symm, by decide +kernel⟩,
    ⟨_, _, .of_exec (l := [.register "bob", .run true, .run true, .run true,
      .flushStep 0 0 true, .flushStep 0 0 true, .flushStep 0 0 true, .flushStep 0 0 false,
      .flushStep 0 0 true, .flushStep 0 0 true, .flushStep 0 0 true, .flushStep 0 0 true])
    (Option.some_get (by decide +kernel)).symm, by decide +kernel, by decide +kernel⟩⟩

end Hub

end Pinch
