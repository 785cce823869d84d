import Pinch.Listing
import Pinch.MessageHistory
import Pinch.ReviewList

/-! Reading the history with `pinch-history`, page by page, while the agent goes on receiving and
sending. A page is a query of its own, so rows that are added between two pages move the others. -/

namespace Pinch

open Transition Listing

/-- The options of the tool. Numbers that make no sense leave the defaults as they are. The numbers
are doubles, and what is too large for one counts as any other number out of range. -/
structure HistoryArgs where
  connection : Option String := none
  thread : Option String := none
  limit : ℤ := 20
  offset : ℤ := 0
  limit_pos : 0 < limit := by decide
  offset_nonneg : 0 ≤ offset := by decide
  deriving DecidableEq

namespace HistoryArgs

def setLimit (a : HistoryArgs) (val : Option ℤ) : HistoryArgs :=
  match val with
  | none => a
  | some n => if h : 0 < n then { a with limit := n, limit_pos := h } else a

def setOffset (a : HistoryArgs) (val : Option ℤ) : HistoryArgs :=
  match val with
  | none => a
  | some n => if h : 0 ≤ n then { a with offset := n, offset_nonneg := h } else a

/-- The loop of `parseArgs`. `parseInt` is `none` for `NaN`, which it is for an absent text. -/
def parseLoop (parseInt : String → Option ℤ) (a : HistoryArgs) : List String → HistoryArgs
  | [] => a
  | arg :: rest =>
    if arg = "--connection" then
      match rest with
      | [] => { a with connection := none }
      | value :: rest => parseLoop parseInt { a with connection := some value } rest
    else if arg = "--thread" then
      match rest with
      | [] => { a with thread := none }
      | value :: rest => parseLoop parseInt { a with thread := some value } rest
    else if arg = "--limit" then
      match rest with
      | [] => a
      | value :: rest => parseLoop parseInt (a.setLimit (parseInt value)) rest
    else if arg = "--offset" then
      match rest with
      | [] => a
      | value :: rest => parseLoop parseInt (a.setOffset (parseInt value)) rest
    else parseLoop parseInt a rest

def parseArgs (parseInt : String → Option ℤ) (args : List String) : HistoryArgs :=
  parseLoop parseInt {} args

def options (a : HistoryArgs) : HistoryOptions where
  connectionAddress := a.connection
  threadId := a.thread
  limit := some a.limit
  offset := some a.offset

/-- The same query for another page. -/
def atPage (a : HistoryArgs) (k : ℕ) : HistoryArgs :=
  { a with
    offset := k * a.limit
    offset_nonneg := mul_nonneg (Int.natCast_nonneg k) a.limit_pos.le }

/-- SQLite binds a double to `LIMIT` or `OFFSET` only if it is a 64-bit integer. -/
def InRange (a : HistoryArgs) : Prop := a.limit < 2 ^ 63 ∧ a.offset < 2 ^ 63

instance (a : HistoryArgs) : Decidable a.InRange := inferInstanceAs (Decidable (_ ∧ _))

theorem InRange.atPage {a : HistoryArgs} {k last : ℕ} (h : (a.atPage last).InRange)
    (hk : k ≤ last) : (a.atPage k).InRange := by
  have hoffset : (k : ℤ) * a.limit ≤ last * a.limit :=
    mul_le_mul_of_nonneg_right (Int.ofNat_le.2 hk) a.limit_pos.le
  exact ⟨h.1, hoffset.trans_lt h.2⟩

/-- The query looks only at columns that never change. -/
def wants (a : HistoryArgs) (c : MessageContent) : Bool :=
  columnMatches a.connection (some c.connectionAddress) && columnMatches a.thread c.threadId

end HistoryArgs

/-- The records that `pinch-history` prints. -/
def pinchHistory (parseInt : String → Option ℤ) (args : List String) (order : HistoryOrder)
    (s : MessageStore) : Except String (List MessageRecord) :=
  let a := HistoryArgs.parseArgs parseInt args
  if a.InRange then .ok (s.getHistory order a.options) else .error "datatype mismatch"

namespace MessageStore

variable {s t : MessageStore} {a : HistoryArgs} {order order' : HistoryOrder}

/-- What the query would list without limit and offset. -/
def listing (s : MessageStore) (order : HistoryOrder) (a : HistoryArgs) : List MessageContent :=
  (order.run (s.rows.filter a.options.selects)).map (·.content)

theorem getHistory_atPage (k : ℕ) :
    (s.getHistory order (a.atPage k).options).map (·.content) =
      page a.limit.toNat k (s.listing order a) := by
  have hoffset : (k * a.limit).toNat = k * a.limit.toNat := by
    rw [Int.toNat_mul (Int.natCast_nonneg k) a.limit_pos.le, Int.toNat_natCast]
  have hlimit : (a.atPage k).options.limit = some a.limit := rfl
  have hstart : (a.atPage k).options.offset = some (k * a.limit) := rfl
  have hselects : (a.atPage k).options.selects = a.options.selects := rfl
  rw [getHistory, hlimit, hstart, hselects]
  simp only [listing, page, limited, Option.getD_some, if_neg (not_lt.2 a.limit_pos.le), hoffset,
    List.map_take, List.map_drop]

theorem listing_perm : (s.listing order a).Perm (s.history.filter a.wants) := by
  have hselects : ∀ r ∈ s.rows, a.options.selects r = a.wants r.content := by
    intro r _
    have hnone (column : Option String) : columnMatches none column = true := rfl
    simp [HistoryOptions.selects, HistoryArgs.options, HistoryArgs.wants, hnone,
      MessageRecord.content]
  rw [listing, List.filter_congr hselects, history, List.filter_map]
  exact (order.perm _).map _

theorem listing_desc : (s.listing order a).Pairwise fun c d => d.createdAt ≤ c.createdAt :=
  List.pairwise_map.2 (order.desc _)

/-- Without ties, the listing of an earlier time is part of a later one. -/
theorem listing_sublist (hgrows : s.history <+: t.history)
    (hties : ((t.history.filter a.wants).map (·.createdAt)).Nodup) :
    (s.listing order a).Sublist (t.listing order' a) := by
  have hpart : (s.history.filter a.wants).Sublist (t.history.filter a.wants) :=
    hgrows.sublist.filter _
  have hstrict {u : MessageStore} {order : HistoryOrder}
      (hu : ((u.history.filter a.wants).map (·.createdAt)).Nodup) :
      (u.listing order a).Pairwise fun c d => d.createdAt < c.createdAt := by
    have hnodup : ((u.listing order a).map (·.createdAt)).Nodup :=
      ((listing_perm.map _).nodup_iff).2 hu
    refine (listing_desc.and (List.pairwise_map.1 hnodup)).imp ?_
    rintro c d ⟨hle, hne⟩
    exact lt_of_le_of_ne hle (Ne.symm hne)
  have : Std.Antisymm fun c d : MessageContent => d.createdAt < c.createdAt :=
    ⟨fun c d hcd hdc => absurd hcd (lt_asymm hdc)⟩
  refine List.sublist_of_subperm_of_pairwise ?_ (hstrict (hties.sublist (hpart.map _)))
    (hstrict hties)
  exact (listing_perm.subperm.trans hpart.subperm).trans listing_perm.symm.subperm

end MessageStore

namespace Host

/-- Whoever reads page after page, until one is not full, has seen every message that was there at
the beginning, whatever the agent receives, sends or decides meanwhile, as long as no two of the
messages were created in the same millisecond. -/
theorem history_pages_complete {setup : HostSetup} {S : ℕ → Host} {last : ℕ}
    (hruns : ∀ k < last, ∃ l, Run (step setup) (fun _ _ => True) (S k) l (S (k + 1)))
    {parseInt : String → Option ℤ} {a : HistoryArgs} {args : ℕ → List String}
    (hargs : ∀ k ≤ last, HistoryArgs.parseArgs parseInt (args k) = a.atPage k)
    (order : ℕ → HistoryOrder)
    (hties : (((S last).journal.history.filter a.wants).map (·.createdAt)).Nodup)
    {short : List MessageRecord} (hlast : pinchHistory parseInt (args last) (order last)
      (S last).journal.messageStore = .ok short) (hshort : short.length < a.limit.toNat)
    {c : MessageContent} (hc : c ∈ (S 0).journal.history) (hwants : a.wants c = true) :
    ∃ k ≤ last, ∃ rows,
      pinchHistory parseInt (args k) (order k) (S k).journal.messageStore = .ok rows ∧
        ∃ r ∈ rows, r.content = c := by
  have hrange : (a.atPage last).InRange := by
    rw [← hargs last le_rfl]
    by_contra hrange
    simp [pinchHistory, hrange] at hlast
  -- a page that is printed at all comes after pages that are
  have hpage (k : ℕ) (hk : k ≤ last) : ∃ rows,
      pinchHistory parseInt (args k) (order k) (S k).journal.messageStore = .ok rows ∧
        rows.map (·.content) =
          page a.limit.toNat k ((S k).journal.messageStore.listing (order k) a) := by
    refine ⟨_, ?_, MessageStore.getHistory_atPage k⟩
    simp only [pinchHistory, hargs k hk, if_pos (hrange.atPage hk)]
  have hlater : ∀ k ≤ last, (S k).journal.history <+: (S last).journal.history := by
    intro k hk
    induction hk using Nat.decreasingInduction with
    | self => exact List.prefix_rfl
    | of_succ k hk ih =>
      obtain ⟨l, hrun⟩ := hruns k hk
      exact (history_grows hrun).trans ih
  have hgrow : ∀ k < last, ((S k).journal.messageStore.listing (order k) a).Sublist
      ((S (k + 1)).journal.messageStore.listing (order (k + 1)) a) := by
    intro k hk
    obtain ⟨l, hrun⟩ := hruns k hk
    refine MessageStore.listing_sublist (history_grows hrun) (hties.sublist ?_)
    exact ((hlater (k + 1) hk).sublist.filter _).map _
  have hfirst : c ∈ (S 0).journal.messageStore.listing (order 0) a :=
    MessageStore.listing_perm.mem_iff.2 (List.mem_filter.2 ⟨hc, hwants⟩)
  have hend : (page a.limit.toNat last
      ((S last).journal.messageStore.listing (order last) a)).length < a.limit.toNat := by
    obtain ⟨rows, hrows, hcontents⟩ := hpage last le_rfl
    obtain rfl := Except.ok.inj (hrows.symm.trans hlast)
    rwa [← hcontents, List.length_map]
  obtain ⟨k, hk, hmem⟩ := exists_page hgrow hend hfirst
  obtain ⟨rows, hrows, hcontents⟩ := hpage k hk
  rw [← hcontents] at hmem
  obtain ⟨r, hr, rfl⟩ := List.mem_map.1 hmem
  exact ⟨k, hk, rows, hrows, r, hr, rfl⟩

/-- Pages of one message each. -/
def onePerPage (k : ℕ) : List String := ["--limit", "1", "--offset", if k = 0 then "0" else "1"]

def parseBit (text : String) : Option ℤ :=
  if text = "0" then some 0 else if text = "1" then some 1 else none

/-- The message gets its verdict between the two pages. -/
theorem history_pages_complete_arrived : ∃ s t : Host,
    Run (step toolSetup) (fun _ _ => True) s [.input (.resume 0 otherContext none)] t ∧
      ∃ c ∈ s.journal.history, ∃ k ≤ 1, ∃ rows,
        pinchHistory parseBit (onePerPage k) (.stable _)
          (if k = 0 then s else t).journal.messageStore = .ok rows ∧ ∃ r ∈ rows, r.content = c := by
  let a : HistoryArgs := { limit := 1 }
  have heval : arrived.bind (fun s => (exec (step toolSetup) (fun _ _ => True) s
      [.input (.resume 0 otherContext none)]).map fun t => (s.journal.history.map (·.id),
        t.journal.history.length,
        (pinchHistory parseBit (onePerPage 1) (.stable _) t.journal.messageStore).map
          List.length)) =
      some ([sentId], 1, .ok 0) := by decide +kernel
  obtain ⟨s, -, heval⟩ := Option.bind_eq_some_iff.1 heval
  obtain ⟨t, ht, hfacts⟩ := Option.map_eq_some_iff.1 heval
  obtain ⟨hids, hlength, hshort⟩ := by simpa only [Prod.mk.injEq] using hfacts
  have hrun := Run.of_exec ht
  obtain ⟨short, hlast, hlength'⟩ : ∃ short, pinchHistory parseBit (onePerPage 1) (.stable _)
      t.journal.messageStore = .ok short ∧ short.length = 0 := by
    cases hp : pinchHistory parseBit (onePerPage 1) (.stable _) t.journal.messageStore with
    | error e =>
      rw [hp] at hshort
      cases hshort
    | ok short =>
      rw [hp] at hshort
      exact ⟨short, rfl, Except.ok.inj hshort⟩
  obtain ⟨c, hc⟩ : ∃ c, c ∈ s.journal.history := by
    obtain ⟨c, hc, -⟩ := List.mem_map.1 (hids ▸ List.mem_singleton_self sentId)
    exact ⟨c, hc⟩
  obtain ⟨c', hc'⟩ := List.length_eq_one_iff.1 hlength
  have hargs : ∀ k ≤ 1, HistoryArgs.parseArgs parseBit (onePerPage k) = a.atPage k := by
    decide +kernel
  have hruns : ∀ k < 1, ∃ l, Run (step toolSetup) (fun _ _ => True) (if k = 0 then s else t) l
      (if k + 1 = 0 then s else t) := by
    intro k hk
    obtain rfl : k = 0 := Nat.lt_one_iff.1 hk
    exact ⟨_, hrun⟩
  refine ⟨s, t, hrun, c, hc, ?_⟩
  refine history_pages_complete (S := fun k => if k = 0 then s else t) (a := a) hruns hargs
    (fun _ => .stable _) ?_ hlast ?_ hc ?_
  · refine List.Nodup.sublist (List.filter_sublist.map _) ?_
    simp [hc']
  · rw [hlength']
    decide
  · rfl

end Host

end Pinch
