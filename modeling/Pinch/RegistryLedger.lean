import Pinch.KeyRegistry
import Pinch.Transition

/-! What the registry is for. A ledger numbers the registrations that were given a code and
lists the numbers that were claimed. Codes may come back once they are free again, so a claim is
for the latest registration under its code. -/

namespace Pinch

structure Ledger where
  registrations : List (String × PendingEntry) := []
  claims : List ℕ := []
  deriving DecidableEq

namespace Ledger

variable {l : Ledger} {code code' : String} {entry : PendingEntry} {i : ℕ}

/-- The number of the latest registration that was given a code. -/
def latest (l : Ledger) (code : String) : Option ℕ :=
  ((List.range l.registrations.length).filter fun i =>
    l.registrations[i]?.map Prod.fst = some code).getLast?

def register (l : Ledger) (code : String) (entry : PendingEntry) : Ledger :=
  { l with registrations := l.registrations ++ [(code, entry)] }

def claim (l : Ledger) (code : String) : Ledger :=
  { l with claims := l.claims ++ (l.latest code).toList }

/-- A registration for the key was claimed. -/
def Approves (l : Ledger) (pubKeyB64 : String) : Prop :=
  ∃ i ∈ l.claims, ∃ code entry, l.registrations[i]? = some (code, entry) ∧
    entry.pubKeyB64 = pubKeyB64

theorem latest_register :
    (l.register code entry).latest code' =
      if code = code' then some l.registrations.length else l.latest code' := by
  have hold : (List.range l.registrations.length).filter (fun i =>
      (l.registrations ++ [(code, entry)])[i]?.map Prod.fst = some code') =
      (List.range l.registrations.length).filter fun i =>
        l.registrations[i]?.map Prod.fst = some code' := by
    refine List.filter_congr fun i hi => ?_
    rw [List.getElem?_append_left (List.mem_range.1 hi)]
  unfold latest register
  rw [List.length_append, List.length_singleton, List.range_succ, List.filter_append, hold]
  by_cases hcode : code = code'
  · simp [hcode]
  · simp [hcode]

theorem registration_register (h : l.registrations[i]? = some (code', entry)) {new : PendingEntry} :
    (l.register code new).registrations[i]? = some (code', entry) := by
  rw [register, List.getElem?_append_left (List.getElem?_eq_some_iff.1 h).1, h]

end Ledger

structure RegistryState where
  registry : KeyRegistry
  ledger : Ledger

inductive RegistryLabel
  | registerPending (pubKeyB64 address : String) (now : ℤ) (attempt : ℕ → Attempt)
  | claim (claimCode : String) (commit : Option String)
  | sweepPending (ttl : Int64) (now : ℤ) (commit : Option String)

namespace RegistryState

open Transition

def step (s : RegistryState) : RegistryLabel → Option RegistryState
  | .registerPending pubKeyB64 address now attempt =>
    some <| match (KeyRegistry.registerPending pubKeyB64 address now attempt).run s.registry with
      | .ok code kr => ⟨kr, s.ledger.register code ⟨pubKeyB64, address, unixSeconds now⟩⟩
      | .error _ kr => ⟨kr, s.ledger⟩
  | .claim claimCode commit =>
    some <| match (KeyRegistry.claim claimCode commit).run s.registry with
      | .ok _ kr => ⟨kr, s.ledger.claim claimCode⟩
      | .error _ kr => ⟨kr, s.ledger⟩
  | .sweepPending ttl now commit =>
    some <| match (KeyRegistry.sweepPending ttl now commit).run s.registry with
      | .ok _ kr | .error _ kr => ⟨kr, s.ledger⟩

/-- A registry in which nobody has registered yet. -/
def Fresh (kr : KeyRegistry) : Prop :=
  kr.approved = .empty ∧ ∀ x ∈ kr.pending, x.2 = none

/-- The registry holds what the ledger says. -/
structure Booked (s : RegistryState) : Prop where
  pending : ∀ code entry, s.registry.pending.get code = some (some entry) →
    ∃ i, s.ledger.latest code = some i ∧ s.ledger.registrations[i]? = some (code, entry) ∧
      i ∉ s.ledger.claims
  born : ∀ i ∈ s.ledger.claims, i < s.ledger.registrations.length
  once : s.ledger.claims.Nodup
  approved : ∀ k, s.registry.isApproved k = true ↔ s.ledger.Approves k

variable {s t : RegistryState} {code : String} {entry : PendingEntry} {kr : KeyRegistry}

theorem Booked.start (h : Fresh kr) : Booked ⟨kr, {}⟩ where
  pending code entry he := by
    have hnone := h.2 _ (SortedMap.get_eq_some.1 he)
    cases hnone
  born := by simp
  once := by simp
  approved k := by
    simp [KeyRegistry.isApproved, h.1, SortedMap.empty, SortedMap.get, Ledger.Approves]

theorem Booked.register (h : Booked s) (code : String) (entry : PendingEntry) :
    Booked ⟨s.registry.addPending code entry, s.ledger.register code entry⟩ where
  pending code' entry' he := by
    dsimp only [KeyRegistry.addPending] at he ⊢
    rw [Ledger.latest_register]
    by_cases hcode : code = code'
    · subst hcode
      rw [SortedMap.get_put_self] at he
      obtain rfl := Option.some.inj (Option.some.inj he)
      refine ⟨_, if_pos rfl, by simp [Ledger.register], fun hmem => ?_⟩
      exact (h.born _ hmem).false
    · rw [SortedMap.get_put_of_ne (Ne.symm hcode)] at he
      obtain ⟨i, hlatest, hi, hclaim⟩ := h.pending code' entry' he
      exact ⟨i, by rw [if_neg hcode, hlatest], Ledger.registration_register hi, hclaim⟩
  born i hi := by
    simpa [Ledger.register] using Nat.lt_succ_of_lt (h.born i hi)
  once := h.once
  approved k := by
    refine (h.approved k).trans ⟨?_, ?_⟩
    · rintro ⟨i, hi, c, e, he, hk⟩
      exact ⟨i, hi, c, e, Ledger.registration_register he, hk⟩
    · rintro ⟨i, hi, c, e, he, hk⟩
      rw [Ledger.register, List.getElem?_append_left (h.born i hi)] at he
      exact ⟨i, hi, c, e, he, hk⟩

theorem isApproved_addApproved (pubKeyB64 address k : String) :
    ((kr.addApproved pubKeyB64 address).removePending code).isApproved k = true ↔
      k = pubKeyB64 ∨ kr.isApproved k = true := by
  unfold KeyRegistry.isApproved KeyRegistry.removePending KeyRegistry.addApproved
  by_cases hk : k = pubKeyB64
  · subst hk
    simp [SortedMap.get_put_self]
  · simp [SortedMap.get_put_of_ne hk, hk]

theorem Booked.claim (h : Booked s) (hentry : s.registry.pending.get code = some (some entry)) :
    Booked ⟨(s.registry.addApproved entry.pubKeyB64 entry.address).removePending code,
      s.ledger.claim code⟩ := by
  obtain ⟨i, hlatest, hi, hnew⟩ := h.pending code entry hentry
  have hclaims : (s.ledger.claim code).claims = s.ledger.claims ++ [i] := by
    simp [Ledger.claim, hlatest]
  refine ⟨fun code' entry' he => ?_, fun j hj => ?_, ?_, fun k => ?_⟩
  · have hcode : code' ≠ code := by
      rintro rfl
      simp [KeyRegistry.removePending, SortedMap.get_erase_self] at he
    obtain ⟨j, hlatest', hj, hclaim⟩ := h.pending code' entry'
      ((SortedMap.get_erase_of_ne hcode).symm.trans he)
    refine ⟨j, hlatest', hj, ?_⟩
    rw [hclaims, List.mem_append, List.mem_singleton]
    rintro (hmem | rfl)
    · exact hclaim hmem
    · exact hcode (congrArg Prod.fst (Option.some.inj (hj.symm.trans hi)))
  · rw [hclaims, List.mem_append, List.mem_singleton] at hj
    rcases hj with hj | rfl
    · exact h.born j hj
    · exact (List.getElem?_eq_some_iff.1 hi).1
  · rw [hclaims]
    exact List.nodup_append.2 ⟨h.once, by simp, fun a ha b hb hab =>
      hnew (by rw [← List.mem_singleton.1 hb, ← hab]; exact ha)⟩
  · rw [isApproved_addApproved, h.approved k]
    simp only [Ledger.Approves, hclaims]
    constructor
    · rintro (rfl | ⟨j, hj, hrest⟩)
      · exact ⟨i, by simp, code, entry, hi, rfl⟩
      · exact ⟨j, by simp [hj], hrest⟩
    · rintro ⟨j, hj, c, e, he, rfl⟩
      rw [List.mem_append, List.mem_singleton] at hj
      rcases hj with hj | rfl
      · exact .inr ⟨j, hj, c, e, he, rfl⟩
      · exact .inl (congrArg (PendingEntry.pubKeyB64 ∘ Prod.snd) (Option.some.inj (he.symm.trans hi)))

theorem Booked.sweep (h : Booked s) (cutoff : ℤ) :
    Booked ⟨(s.registry.toDelete cutoff).foldl .removePending s.registry, s.ledger⟩ where
  pending code entry he :=
    h.pending code entry <| SortedMap.get_eq_some.2
      (KeyRegistry.mem_pending_swept.1 (SortedMap.get_eq_some.1 he)).1
  born := h.born
  once := h.once
  approved k := by
    rw [KeyRegistry.foldl_removePending]
    exact h.approved k

/-- Every step is one of these. -/
inductive Change (s : RegistryState) : RegistryLabel → RegistryState → Prop
  | same {label : RegistryLabel} : Change s label s
  | registered {pubKeyB64 address code : String} {now : ℤ} {attempt : ℕ → Attempt}
      (hrun : (KeyRegistry.registerPending pubKeyB64 address now attempt).run s.registry =
        .ok code (s.registry.addPending code ⟨pubKeyB64, address, unixSeconds now⟩)) :
      Change s (.registerPending pubKeyB64 address now attempt)
        ⟨s.registry.addPending code ⟨pubKeyB64, address, unixSeconds now⟩,
          s.ledger.register code ⟨pubKeyB64, address, unixSeconds now⟩⟩
  | claimed {code : String} {commit : Option String} {entry : PendingEntry}
      (hentry : s.registry.pending.get code = some (some entry)) :
      Change s (.claim code commit)
        ⟨(s.registry.addApproved entry.pubKeyB64 entry.address).removePending code,
          s.ledger.claim code⟩
  | swept {ttl : Int64} {now : ℤ} {commit : Option String} (cutoff : ℤ) :
      Change s (.sweepPending ttl now commit)
        ⟨(s.registry.toDelete cutoff).foldl .removePending s.registry, s.ledger⟩

theorem Change.of_step {label : RegistryLabel} (hs : s.step label = some t) : Change s label t := by
  cases label with
  | registerPending pubKeyB64 address now attempt =>
    obtain rfl := Option.some.inj hs
    have hspec : Spec (· = s.registry) _ _ _ :=
      KeyRegistry.registerPending_spec pubKeyB64 address now attempt
    cases hrun : (KeyRegistry.registerPending pubKeyB64 address now attempt).run s.registry with
    | ok code kr =>
      obtain ⟨-, rfl⟩ := hspec.ok rfl hrun
      exact .registered hrun
    | error e kr =>
      obtain rfl := hspec.error rfl hrun
      exact .same
  | claim claimCode commit =>
    obtain rfl := Option.some.inj hs
    have hspec : Spec (· = s.registry) _ _ _ := KeyRegistry.claim_spec claimCode commit
    cases hrun : (KeyRegistry.claim claimCode commit).run s.registry with
    | ok address kr =>
      obtain ⟨entry, hentry, -, rfl⟩ := hspec.ok rfl hrun
      exact .claimed hentry
    | error e kr =>
      obtain rfl := hspec.error rfl hrun
      exact .same
  | sweepPending ttl now commit =>
    obtain rfl := Option.some.inj hs
    have hspec : Spec (· = s.registry) _ _ _ := KeyRegistry.sweepPending_spec ttl now commit
    cases hrun : (KeyRegistry.sweepPending ttl now commit).run s.registry with
    | ok _ kr =>
      obtain rfl := hspec.ok rfl hrun
      exact .swept _
    | error e kr =>
      obtain rfl := hspec.error rfl hrun
      exact .same

theorem Booked.step {label : RegistryLabel} (h : Booked s) (hs : s.step label = some t) :
    Booked t := by
  cases Change.of_step hs with
  | same => exact h
  | registered hrun => exact h.register _ _
  | claimed hentry => exact h.claim hentry
  | swept cutoff => exact h.sweep cutoff

/-- What the operations do in a state, and what the registry has to do with the ledger there. -/
structure Faithful (s : RegistryState) : Prop where
  approved : ∀ k, s.registry.isApproved k = true ↔ s.ledger.Approves k
  once : s.ledger.claims.Nodup
  claimed : ∀ code commit address kr,
    (KeyRegistry.claim code commit).run s.registry = .ok address kr →
    ∃ i entry, s.ledger.latest code = some i ∧ s.ledger.registrations[i]? = some (code, entry) ∧
      i ∉ s.ledger.claims ∧ address = entry.address ∧ kr.isApproved entry.pubKeyB64 = true
  registered : ∀ pubKeyB64 address now attempt code kr,
    (KeyRegistry.registerPending pubKeyB64 address now attempt).run s.registry = .ok code kr →
    s.registry.pending.get code = none ∧
      kr = s.registry.addPending code ⟨pubKeyB64, address, unixSeconds now⟩
  refused : ∀ pubKeyB64 address now attempt e kr,
    (KeyRegistry.registerPending pubKeyB64 address now attempt).run s.registry = .error e kr →
    kr = s.registry
  swept : ∀ ttl now commit kr, ttl ≠ Int64.minValue →
    (KeyRegistry.sweepPending ttl now commit).run s.registry = .ok () kr →
    kr.approved = s.registry.approved ∧ ∀ x, x ∈ kr.pending ↔ x ∈ s.registry.pending ∧
      ∃ entry, x.2 = some entry ∧ now - ttl.toInt < entry.registeredAt * 1000000000
  unswept : ∀ ttl now commit e kr,
    (KeyRegistry.sweepPending ttl now commit).run s.registry = .error e kr → kr = s.registry

theorem Booked.faithful (h : Booked s) : Faithful s where
  approved := h.approved
  once := h.once
  claimed code commit address kr hrun := by
    obtain ⟨entry, hentry, haddress, rfl⟩ := (KeyRegistry.claim_spec code commit).ok rfl hrun
    obtain ⟨i, hlatest, hi, hnew⟩ := h.pending code entry hentry
    exact ⟨i, entry, hlatest, hi, hnew, haddress, (isApproved_addApproved _ _ _).2 (.inl rfl)⟩
  registered _ _ _ _ _ _ hrun := (KeyRegistry.registerPending_spec _ _ _ _).ok rfl hrun
  refused _ _ _ _ _ _ hrun := (KeyRegistry.registerPending_spec _ _ _ _).error rfl hrun
  swept ttl now commit kr httl hrun := by
    obtain rfl := (KeyRegistry.sweepPending_spec ttl now commit).ok rfl hrun
    refine ⟨by rw [KeyRegistry.foldl_removePending], fun x => ?_⟩
    simp only [KeyRegistry.mem_pending_swept, KeyRegistry.sweepCutoff_lt httl]
  unswept _ _ _ _ _ hrun := (KeyRegistry.sweepPending_spec _ _ _).error rfl hrun

theorem registry_faithful {l : List RegistryLabel} (hfresh : Fresh kr)
    (h : Run step (fun _ _ => True) ⟨kr, {}⟩ l s) : Faithful s :=
  (h.invariant (P := Booked) (.start hfresh) fun _ _ _ hb _ hs => hb.step hs).faithful

def emptyRegistry : KeyRegistry := ⟨.empty, .empty⟩

/-- A generator that gives one code first and another one from then on. -/
def codes (first later : String) (n : ℕ) : Attempt := ⟨.ok (if n = 0 then first else later), none⟩

/-- The second registration is offered a code that is taken, the third one a code that is free
again. -/
def reusedCode : List RegistryLabel :=
  [.registerPending "k1" "a1" 0 (codes "0a" "0a"), .registerPending "k2" "a2" 0 (codes "0a" "0b"),
    .claim "0a" none, .registerPending "k3" "a3" 5000000000 (codes "0a" "0a"),
    .sweepPending 2000000000 5000000000 none, .claim "0b" none]

def afterReuse : RegistryState :=
  (exec step (fun _ _ => True) ⟨emptyRegistry, {}⟩ reusedCode).get (by decide +kernel)

theorem registry_faithful_reused : Faithful afterReuse ∧
    afterReuse.ledger.claims = [0] ∧ afterReuse.ledger.latest "0a" = some 2 ∧
    afterReuse.registry.isApproved "k1" = true ∧ afterReuse.registry.isApproved "k2" = false := by
  have hfresh : Fresh emptyRegistry := ⟨rfl, by simp [emptyRegistry]⟩
  have hrun : Run step (fun _ _ => True) ⟨emptyRegistry, {}⟩ reusedCode afterReuse :=
    .of_exec (Option.some_get _).symm
  exact ⟨registry_faithful hfresh hrun, by decide +kernel, by decide +kernel, by decide +kernel,
    by decide +kernel⟩

/-- The negation of the smallest duration is itself, so such a sweep looks back where it should
look ahead, and keeps an entry that is due. -/
theorem smallest_ttl_keeps_entry :
    ∃ s kr, Run step (fun _ _ => True) ⟨emptyRegistry, {}⟩
        [.registerPending "k1" "a1" 0 (codes "0a" "0a")] s ∧
      (KeyRegistry.sweepPending Int64.minValue 0 none).run s.registry = .ok () kr ∧
      ("0a", some ⟨"k1", "a1", 0⟩) ∈ kr.pending ∧
      (0 : ℤ) * 1000000000 ≤ 0 - Int64.minValue.toInt :=
  ⟨_, _, .of_exec (Option.some_get (by decide +kernel)).symm, rfl, by decide +kernel, by decide⟩

end RegistryState

end Pinch
