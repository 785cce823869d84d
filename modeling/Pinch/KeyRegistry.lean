import Pinch.SortedMap
import Pinch.StateSpec
import Pinch.Utf
import Mathlib.Data.String.Basic

/-! The relay's registry of agent keys. Pending registrations wait in one bucket under their
claim codes, approved keys are in another, and every operation is one transaction on both or a
loop of such. Clock readings are nanoseconds. -/

namespace Pinch

structure PendingEntry where
  pubKeyB64 : String
  address : String
  /-- Unix seconds. -/
  registeredAt : ℤ
  deriving DecidableEq

/-- A pending value that `json.Unmarshal` refuses is `none`. -/
structure KeyRegistry where
  pending : SortedMap String (Option PendingEntry)
  approved : SortedMap String String

inductive RegistryError
  | claimNotFound
  | claimCodeCollision
  | claimCodeExhausted
  | malformed
  | keyRequired
  | keyTooLarge
  | failed (text : String)
  deriving DecidableEq

abbrev RegistryOp := EStateM RegistryError KeyRegistry

def maxClaimCodeGenerationAttempts : ℕ := 8

/-- The longest key that a bucket takes, in bytes. -/
def maxKeySize : ℕ := 32768

def unixSeconds (t : ℤ) : ℤ := t / 1000000000

/-- One round of the loop in `RegisterPending`: what the generator gives, and how the
transaction ends if its function succeeds. -/
structure Attempt where
  claimCode : Except String String
  commit : Option String

namespace KeyRegistry

def isApproved (kr : KeyRegistry) (pubKeyB64 : String) : Bool := (kr.approved.get pubKeyB64).isSome

def addPending (kr : KeyRegistry) (claimCode : String) (entry : PendingEntry) : KeyRegistry :=
  { kr with pending := kr.pending.put claimCode (some entry) }

def addApproved (kr : KeyRegistry) (pubKeyB64 address : String) : KeyRegistry :=
  { kr with approved := kr.approved.put pubKeyB64 address }

def removePending (kr : KeyRegistry) (claimCode : String) : KeyRegistry :=
  { kr with pending := kr.pending.erase claimCode }

/-- `db.Update`: nothing is kept of a transaction that fails or cannot be committed. -/
def update {α : Type} (commit : Option String) (tx : RegistryOp α) : RegistryOp α := fun kr =>
  match tx.run kr, commit with
  | .ok a kr', none => .ok a kr'
  | .ok _ _, some text => .error (.failed text) kr
  | .error e _, _ => .error e kr

/-- The checks of `Bucket.Put`. -/
def checkKey (key : String) : RegistryOp Unit :=
  if key = "" then throw .keyRequired
  else if maxKeySize < (textEncode key).length then throw .keyTooLarge
  else pure ()

def registerCode (entry : PendingEntry) (claimCode : String) : RegistryOp Unit := do
  let kr ← get
  if (kr.pending.get claimCode).isSome then throw .claimCodeCollision
  else
    checkKey claimCode
    modify (·.addPending claimCode entry)

def registerLoop (entry : PendingEntry) : List Attempt → RegistryOp String
  | [] => throw .claimCodeExhausted
  | attempt :: rest =>
    match attempt.claimCode with
    | .error text => throw (.failed text)
    | .ok claimCode =>
      tryCatch (do update attempt.commit (registerCode entry claimCode); return claimCode) fun e =>
        if e = .claimCodeCollision then registerLoop entry rest else throw e

def registerPending (pubKeyB64 address : String) (now : ℤ) (attempt : ℕ → Attempt) :
    RegistryOp String :=
  registerLoop ⟨pubKeyB64, address, unixSeconds now⟩
    ((List.range maxClaimCodeGenerationAttempts).map attempt)

def claim (claimCode : String) (commit : Option String) : RegistryOp String :=
  update commit do
    let kr ← get
    match kr.pending.get claimCode with
    | none => throw .claimNotFound
    | some none => throw .malformed
    | some (some entry) =>
      checkKey entry.pubKeyB64
      modify (·.addApproved entry.pubKeyB64 entry.address)
      modify (·.removePending claimCode)
      return entry.address

/-- The negation is that of a `time.Duration`, an `int64`. -/
def sweepCutoff (ttl : Int64) (now : ℤ) : ℤ := unixSeconds (now + (-ttl).toInt)

def toDelete (kr : KeyRegistry) (cutoff : ℤ) : List String :=
  kr.pending.entries.filterMap fun
    | (k, none) => some k
    | (k, some entry) => if entry.registeredAt ≤ cutoff then some k else none

def sweepPending (ttl : Int64) (now : ℤ) (commit : Option String) : RegistryOp Unit :=
  update commit (modify fun kr => (kr.toDelete (sweepCutoff ttl now)).foldl removePending kr)

variable {kr : KeyRegistry} {α : Type}

theorem run_update (commit : Option String) (tx : RegistryOp α) :
    (update commit tx).run kr = match tx.run kr, commit with
      | .ok a kr', none => .ok a kr'
      | .ok _ _, some text => .error (.failed text) kr
      | .error e _, _ => .error e kr := rfl

/-- A transaction either has the effect of its function or none. -/
theorem update_spec {tx : RegistryOp α} {Q : α → KeyRegistry → Prop} (commit : Option String)
    (h : Spec (· = kr) tx Q fun _ _ => True) :
    Spec (· = kr) (update commit tx) Q fun _ t => t = kr := by
  rintro s rfl
  have hs := h s rfl
  rw [run_update]
  revert hs
  cases tx.run s with
  | error e t => exact fun _ => rfl
  | ok a t =>
    intro hq
    cases commit with
    | none => exact hq
    | some text => rfl

theorem checkKey_spec (key : String) : Spec (· = kr) (checkKey key) (fun _ t => t = kr)
    fun _ _ => True := by
  unfold checkKey
  split
  · exact .throw fun _ _ => trivial
  split
  · exact .throw fun _ _ => trivial
  · exact .pure fun _ h => h

theorem registerCode_spec (entry : PendingEntry) (claimCode : String) :
    Spec (· = kr) (registerCode entry claimCode)
      (fun _ t => kr.pending.get claimCode = none ∧ t = kr.addPending claimCode entry)
      fun _ _ => True := by
  rintro s rfl
  refine Spec.get_bind (P := (· = s)) (fun s' => ?_) s rfl
  split
  · exact .throw fun _ _ => trivial
  · rename_i hfree
    rintro t ⟨rfl, rfl⟩
    refine Spec.bind (checkKey_spec claimCode) (fun _ => .modify ?_) t rfl
    rintro t rfl
    exact ⟨by simpa using hfree, rfl⟩

/-- `RegisterPending` gives out a code that was free, or changes nothing. -/
theorem registerLoop_spec (entry : PendingEntry) (attempts : List Attempt) :
    Spec (· = kr) (registerLoop entry attempts)
      (fun code t => kr.pending.get code = none ∧ t = kr.addPending code entry)
      fun _ t => t = kr := by
  induction attempts with
  | nil => exact .throw fun _ h => h
  | cons attempt rest ih =>
    unfold registerLoop
    split
    · exact .throw fun _ h => h
    · rename_i code hcode
      refine .tryCatch (F := fun _ t => t = kr) ?_ fun e => ?_
      · exact .bind (update_spec attempt.commit (registerCode_spec entry code)) fun _ =>
          .pure fun _ h => h
      · split
        · exact ih
        · exact .throw fun _ h => h

theorem registerPending_spec (pubKeyB64 address : String) (now : ℤ) (attempt : ℕ → Attempt) :
    Spec (· = kr) (registerPending pubKeyB64 address now attempt)
      (fun code t => kr.pending.get code = none ∧
        t = kr.addPending code ⟨pubKeyB64, address, unixSeconds now⟩)
      fun _ t => t = kr :=
  registerLoop_spec _ _

theorem claim_spec (claimCode : String) (commit : Option String) :
    Spec (· = kr) (claim claimCode commit)
      (fun address t => ∃ entry, kr.pending.get claimCode = some (some entry) ∧
        address = entry.address ∧
        t = (kr.addApproved entry.pubKeyB64 entry.address).removePending claimCode)
      fun _ t => t = kr := by
  refine update_spec commit ?_
  rintro s rfl
  refine Spec.get_bind (P := (· = s)) (fun s' => ?_) s rfl
  split
  · exact .throw fun _ _ => trivial
  · exact .throw fun _ _ => trivial
  · rename_i entry hentry
    rintro t ⟨rfl, rfl⟩
    refine Spec.bind (checkKey_spec _) (fun _ => ?_) t rfl
    refine .bind (R := fun _ t' => t' = t.addApproved entry.pubKeyB64 entry.address)
      (.modify fun _ h => h ▸ rfl) fun _ => ?_
    refine .bind (R := fun _ t' => t' =
      (t.addApproved entry.pubKeyB64 entry.address).removePending claimCode)
      (.modify fun _ h => h ▸ rfl) fun _ => ?_
    exact .pure fun _ h => ⟨entry, hentry, rfl, h⟩

theorem sweepPending_spec (ttl : Int64) (now : ℤ) (commit : Option String) :
    Spec (· = kr) (sweepPending ttl now commit)
      (fun _ t => t = (kr.toDelete (sweepCutoff ttl now)).foldl removePending kr)
      fun _ t => t = kr :=
  update_spec commit (.modify fun _ h => h ▸ rfl)

theorem foldl_removePending (codes : List String) (kr : KeyRegistry) :
    codes.foldl removePending kr = { kr with pending := codes.foldl .erase kr.pending } := by
  induction codes generalizing kr with
  | nil => rfl
  | cons code codes ih => exact ih _

theorem mem_toDelete {cutoff : ℤ} {code : String} : code ∈ kr.toDelete cutoff ↔
    ∃ v, (code, v) ∈ kr.pending ∧ ∀ entry, v = some entry → entry.registeredAt ≤ cutoff := by
  unfold toDelete
  rw [List.mem_filterMap]
  constructor
  · rintro ⟨⟨k, v⟩, hmem, h⟩
    cases v with
    | none =>
      obtain rfl := Option.some.inj h
      exact ⟨none, hmem, by simp⟩
    | some entry =>
      obtain ⟨hold, hk⟩ := Option.ite_none_right_eq_some.1 h
      obtain rfl := Option.some.inj hk
      exact ⟨some entry, hmem, by simpa using hold⟩
  · rintro ⟨v, hmem, h⟩
    refine ⟨(code, v), hmem, ?_⟩
    cases v with
    | none => rfl
    | some entry => exact if_pos (h entry rfl)

/-- The entries that a sweep leaves are well formed and younger than the cutoff. -/
theorem mem_pending_swept {cutoff : ℤ} {x : String × Option PendingEntry} :
    x ∈ ((kr.toDelete cutoff).foldl removePending kr).pending ↔
      x ∈ kr.pending ∧ ∃ entry, x.2 = some entry ∧ cutoff < entry.registeredAt := by
  rw [foldl_removePending, SortedMap.mem_foldl_erase, mem_toDelete]
  obtain ⟨code, v⟩ := x
  refine and_congr_right fun hmem => ⟨fun h => ?_, ?_⟩
  · cases v with
    | none => exact absurd ⟨none, hmem, by simp⟩ h
    | some entry =>
      refine ⟨entry, rfl, not_le.1 fun hold => h ⟨some entry, hmem, ?_⟩⟩
      rintro _ heq
      exact Option.some.inj heq ▸ hold
  · rintro ⟨entry, rfl, hyoung⟩ ⟨v, hmem', h⟩
    obtain rfl := SortedMap.eq_of_mem hmem hmem'
    exact absurd (h entry rfl) (not_le.2 hyoung)

theorem toInt_neg_of_ne_minValue {ttl : Int64} (h : ttl ≠ Int64.minValue) :
    (-ttl).toInt = -ttl.toInt := by
  have hlow := ttl.le_toInt
  have hhigh := ttl.toInt_lt
  have hne : ttl.toInt ≠ -2 ^ 63 := fun heq => h (Int64.toInt_inj.1 (heq.trans (by decide)))
  rw [Int64.toInt_neg, Int.bmod_def]
  split <;> omega

theorem sweepCutoff_lt {ttl : Int64} (h : ttl ≠ Int64.minValue) {now t : ℤ} :
    sweepCutoff ttl now < t ↔ now - ttl.toInt < t * 1000000000 := by
  rw [sweepCutoff, unixSeconds, toInt_neg_of_ne_minValue h]
  omega

end KeyRegistry

end Pinch
