import Pinch.AutonomyControl
import Pinch.ConnectionManager
import Pinch.Transition

/-! Two processes on one `connections.json`. Each reads the file, changes its copy and writes all
of it back; truncating the file and writing it are two steps. -/

namespace Pinch

/-- What is in the file. Only a whole text can be parsed; `garbled` is anything else, with its
length. -/
inductive FileContent
  | absent
  | text (store : ConnectionStore)
  | garbled (length : ℕ)

namespace FileContent

variable (textLength : ConnectionStore → ℕ)

def length : FileContent → ℕ
  | absent => 0
  | text store => textLength store
  | garbled length => length

/-- `load()`: a file that cannot be read or parsed gives an empty store. -/
def load : FileContent → ConnectionStore
  | text store => store
  | absent | garbled _ => ∅

/-- The text is written from the start of the file. What is longer keeps its end. -/
def write (file : FileContent) (store : ConnectionStore) : FileContent :=
  if file.length textLength ≤ textLength store then text store
  else garbled (file.length textLength)

end FileContent

/-- A process from its `load()` to the end of its `save()`, with the store that it has read. -/
inductive StoreSession
  | waiting
  | loaded (snapshot memory : ConnectionStore)
  | saving (snapshot saved : ConnectionStore)
  | done (snapshot saved : ConnectionStore)

structure SharedStore where
  file : FileContent
  session : Bool → StoreSession

inductive StoreStep
  | load (i : Bool)
  | update (i : Bool) (op : StoreOp Unit)
  | truncate (i : Bool)
  | write (i : Bool)

namespace SharedStore

open Transition

variable {textLength : ConnectionStore → ℕ} {s t : SharedStore} {i : Bool} {file : FileContent}
  {l : List StoreStep} {snapshot snapshot' saved saved' : ConnectionStore}

def start (file : FileContent) : SharedStore := ⟨file, fun _ => .waiting⟩

def setSession (s : SharedStore) (i : Bool) (session : StoreSession) : SharedStore :=
  { s with session := Function.update s.session i session }

def step (textLength : ConnectionStore → ℕ) (s : SharedStore) : StoreStep → Option SharedStore
  | .load i =>
    match s.session i with
    | .waiting => some (s.setSession i (.loaded s.file.load s.file.load))
    | _ => none
  | .update i op =>
    match s.session i with
    | .loaded snapshot memory => some (s.setSession i (.loaded snapshot (finalState (op.run memory))))
    | _ => none
  | .truncate i =>
    match s.session i with
    | .loaded snapshot memory =>
      some ({ s with file := .garbled 0 }.setSession i (.saving snapshot memory))
    | _ => none
  | .write i =>
    match s.session i with
    | .saving snapshot saved =>
      some ({ s with file := s.file.write textLength saved }.setSession i (.done snapshot saved))
    | _ => none

end SharedStore

inductive ConnectionField
  | peerAddress
  | peerPublicKey
  | state
  | nickname
  | autonomyLevel
  | autoRespondPolicy
  | circuitBreakerTripped
  | permissionsManifest
  | muted
  | passthrough
  | shortMessage
  | createdAt
  | lastActivity
  | expiresAt
  deriving DecidableEq

inductive FieldValue
  | text (value : Option String)
  | state (value : ConnectionState)
  | level (value : AutonomyLevel)
  | flag (value : Option Bool)
  | manifest (value : Option PermissionsManifest)
  deriving DecidableEq

def ConnectionField.value (c : Connection) : ConnectionField → FieldValue
  | peerAddress => .text (some c.peerAddress)
  | peerPublicKey => .text c.peerPublicKey
  | state => .state c.state
  | nickname => .text (some c.nickname)
  | autonomyLevel => .level c.autonomyLevel
  | autoRespondPolicy => .text c.autoRespondPolicy
  | circuitBreakerTripped => .flag c.circuitBreakerTripped
  | permissionsManifest => .manifest c.permissionsManifest
  | muted => .flag c.muted
  | passthrough => .flag c.passthrough
  | shortMessage => .text c.shortMessage
  | createdAt => .text (some c.createdAt)
  | lastActivity => .text (some c.lastActivity)
  | expiresAt => .text c.expiresAt

/-- The value of a field, if there is such a record. -/
def ConnectionStore.field (s : ConnectionStore) (p : String) (f : ConnectionField) :
    Option FieldValue :=
  (s.getConnection p).map f.value

/-- One process has changed the field, and the other has left it alone. -/
structure OwnChange (snapshot saved snapshot' saved' : ConnectionStore) (p : String)
    (f : ConnectionField) : Prop where
  changed : saved.field p f ≠ snapshot.field p f
  untouched : saved'.field p f = snapshot'.field p f

namespace SharedStore

open Transition

variable {textLength : ConnectionStore → ℕ} {s t : SharedStore} {i : Bool} {file : FileContent}
  {l : List StoreStep} {snapshot snapshot' saved saved' : ConnectionStore}

/-- The changes of process `i` are in the file, as far as the other process left the fields alone. -/
def KeepsChanges (s : SharedStore) (i : Bool) : Prop :=
  ∀ snapshot saved snapshot' saved', s.session i = .done snapshot saved →
    s.session (!i) = .done snapshot' saved' → ∀ p f,
    OwnChange snapshot saved snapshot' saved' p f → s.file.load.field p f = saved.field p f

def busy : StoreSession → Bool
  | .loaded _ _ | .saving _ _ => true
  | .waiting | .done _ _ => false

/-- A process reads the file only while the other is not between its `load()` and the end of its
`save()`. -/
def apart (s : SharedStore) : StoreStep → Bool
  | .load i => !busy (s.session (!i))
  | _ => true

/-- What one step does. -/
inductive Effect (textLength : ConnectionStore → ℕ) (s : SharedStore) :
    StoreStep → SharedStore → Prop
  | load {i : Bool} (h : s.session i = .waiting) :
      Effect textLength s (.load i) (s.setSession i (.loaded s.file.load s.file.load))
  | update {i : Bool} {op : StoreOp Unit} {snapshot memory memory' : ConnectionStore}
      (h : s.session i = .loaded snapshot memory) :
      Effect textLength s (.update i op) (s.setSession i (.loaded snapshot memory'))
  | truncate {i : Bool} {snapshot memory : ConnectionStore}
      (h : s.session i = .loaded snapshot memory) :
      Effect textLength s (.truncate i)
        ({ s with file := .garbled 0 }.setSession i (.saving snapshot memory))
  | write {i : Bool} {snapshot saved : ConnectionStore}
      (h : s.session i = .saving snapshot saved) :
      Effect textLength s (.write i)
        ({ s with file := s.file.write textLength saved }.setSession i (.done snapshot saved))

theorem Effect.of_step {x : StoreStep} (h : s.step textLength x = some t) :
    Effect textLength s x t := by
  cases x with
  | load i =>
    cases hi : s.session i with
    | waiting =>
      obtain rfl : _ = t := by simpa [step, hi] using h
      exact .load hi
    | loaded | saving | done => simp [step, hi] at h
  | update i op =>
    cases hi : s.session i with
    | loaded snapshot memory =>
      obtain rfl : _ = t := by simpa [step, hi] using h
      exact .update hi
    | waiting | saving | done => simp [step, hi] at h
  | truncate i =>
    cases hi : s.session i with
    | loaded snapshot memory =>
      obtain rfl : _ = t := by simpa [step, hi] using h
      exact .truncate hi
    | waiting | saving | done => simp [step, hi] at h
  | write i =>
    cases hi : s.session i with
    | saving snapshot saved =>
      obtain rfl : _ = t := by simpa [step, hi] using h
      exact .write hi
    | waiting | loaded | done => simp [step, hi] at h

@[simp]
theorem session_setSession_self {session : StoreSession} :
    (s.setSession i session).session i = session := by
  simp [setSession]

@[simp]
theorem session_setSession_other {session : StoreSession} :
    (s.setSession i session).session (!i) = s.session (!i) := by
  simp [setSession]

@[simp]
theorem file_setSession {session : StoreSession} : (s.setSession i session).file = s.file := rfl

/-- The other process has not begun, or what it saved is what this one has read. -/
def Follows (snapshot : ConnectionStore) : StoreSession → Prop
  | .waiting => True
  | .done _ saved => saved = snapshot
  | .loaded _ _ | .saving _ _ => False

/-- The states of two processes that do not overlap; `i` is the one that came last. -/
inductive Serial (s : SharedStore) : Prop
  | fresh (h : ∀ i, s.session i = .waiting) : Serial s
  | loaded {i : Bool} {snapshot memory : ConnectionStore}
      (hi : s.session i = .loaded snapshot memory) (hj : Follows snapshot (s.session (!i))) :
      Serial s
  | saving {i : Bool} {snapshot saved : ConnectionStore} (hi : s.session i = .saving snapshot saved)
      (hj : Follows snapshot (s.session (!i))) (hfile : s.file = .garbled 0) : Serial s
  | done {i : Bool} {snapshot saved : ConnectionStore} (hi : s.session i = .done snapshot saved)
      (hj : Follows snapshot (s.session (!i))) (hfile : s.file = .text saved) : Serial s

theorem write_truncated (store : ConnectionStore) :
    FileContent.write textLength (.garbled 0) store = .text store := by
  simp [FileContent.write, FileContent.length]

/-- Only the process that came last is under way, and it has read what the other saved. -/
theorem Serial.follows (h : Serial s) (hbusy : busy (s.session i) = true) :
    (∀ snapshot memory, s.session i = .loaded snapshot memory →
      Follows snapshot (s.session (!i))) ∧
    ∀ snapshot saved, s.session i = .saving snapshot saved →
      Follows snapshot (s.session (!i)) ∧ s.file = .garbled 0 := by
  cases h with
  | fresh hall => simp [hall, busy] at hbusy
  | @loaded k _ _ hk hj =>
    obtain rfl : k = i := by
      by_contra hne
      rw [Bool.eq_not_of_ne (Ne.symm hne)] at hbusy
      cases hother : s.session (!k) <;> simp_all [Follows, busy]
    refine ⟨fun snapshot memory hi => ?_, fun snapshot saved hi => by simp [hk] at hi⟩
    obtain ⟨rfl, -⟩ := StoreSession.loaded.inj (hk.symm.trans hi)
    exact hj
  | @saving k _ _ hk hj hfile =>
    obtain rfl : k = i := by
      by_contra hne
      rw [Bool.eq_not_of_ne (Ne.symm hne)] at hbusy
      cases hother : s.session (!k) <;> simp_all [Follows, busy]
    refine ⟨fun snapshot memory hi => by simp [hk] at hi, fun snapshot saved hi => ?_⟩
    obtain ⟨rfl, -⟩ := StoreSession.saving.inj (hk.symm.trans hi)
    exact ⟨hj, hfile⟩
  | @done k _ _ hk hj hfile =>
    by_cases hik : i = k
    · simp [hik, hk, busy] at hbusy
    · rw [Bool.eq_not_of_ne hik] at hbusy
      cases hother : s.session (!k) <;> simp_all [Follows, busy]

/-- A process that begins while no other is under way reads what was saved last. -/
theorem Serial.load (h : Serial s) (hi : s.session i = .waiting)
    (hidle : busy (s.session (!i)) = false) : Follows s.file.load (s.session (!i)) := by
  cases hj : s.session (!i) with
  | waiting => trivial
  | loaded | saving => simp [hj, busy] at hidle
  | done snapshot' saved' =>
    cases h with
    | fresh hall => simp [hall] at hj
    | @loaded k _ _ hk hother | @saving k _ _ hk hother hfile =>
      by_cases hik : k = i
      · simp [← hik, hk] at hi
      · rw [Bool.eq_not_of_ne hik, hj] at hk
        cases hk
    | @done k _ _ hk hother hfile =>
      by_cases hik : k = i
      · simp [← hik, hk] at hi
      · rw [Bool.eq_not_of_ne hik, hj] at hk
        cases hk
        rw [hfile]
        rfl

theorem Serial.step {x : StoreStep} (h : Serial s) (hok : s.apart x = true)
    (hs : s.step textLength x = some t) : Serial t := by
  cases Effect.of_step hs with
  | load hi =>
    refine .loaded session_setSession_self ?_
    rw [session_setSession_other]
    exact h.load hi (by simpa [apart] using hok)
  | update hi =>
    have hfollows := (h.follows (by simp [hi, busy])).1 _ _ hi
    exact .loaded session_setSession_self (by simpa using hfollows)
  | truncate hi =>
    have hfollows := (h.follows (by simp [hi, busy])).1 _ _ hi
    exact .saving session_setSession_self (by simpa using hfollows) rfl
  | write hi =>
    obtain ⟨hfollows, hfile⟩ := (h.follows (by simp [hi, busy])).2 _ _ hi
    refine .done session_setSession_self (by simpa using hfollows) ?_
    rw [file_setSession, hfile, write_truncated]

/-- The second of two processes that do not overlap has written the file, and has read what the
first saved. -/
theorem Serial.keepsChanges (h : Serial s) (i : Bool) : s.KeepsChanges i := by
  intro snapshot saved snapshot' saved' hi hj p f hown
  cases h with
  | fresh hall => simp [hall] at hi
  | @loaded k _ _ hk hother | @saving k _ _ hk hother hfile =>
    by_cases hik : k = i
    · simp [hik, hi] at hk
    · rw [Bool.eq_not_of_ne hik, hj] at hk
      cases hk
  | @done k _ _ hk hother hfile =>
    by_cases hik : k = i
    · subst hik
      obtain ⟨rfl, rfl⟩ := StoreSession.done.inj (hi.symm.trans hk)
      rw [hfile, FileContent.load]
    · have hkj := Bool.eq_not_of_ne hik
      subst hkj
      obtain ⟨rfl, rfl⟩ := StoreSession.done.inj (hj.symm.trans hk)
      rw [Bool.not_not, hi] at hother
      obtain rfl : saved = snapshot' := hother
      rw [hfile, FileContent.load, hown.untouched]

/-- A file that was written holds what one of the processes saved, or nothing that can be read. -/
def Written (s : SharedStore) : Prop :=
  (∃ i snapshot saved, s.session i = .done snapshot saved ∧ s.file = .text saved) ∨
    (∃ length, s.file = .garbled length) ∨ ∀ i snapshot saved, s.session i ≠ .done snapshot saved

theorem Written.step {x : StoreStep} (h : Written s) (hs : s.step textLength x = some t) :
    Written t := by
  -- a step that leaves the file alone and ends no session
  have hkeep : ∀ {i session}, (∀ snapshot saved, s.session i ≠ .done snapshot saved) →
      (∀ snapshot saved, session ≠ .done snapshot saved) → Written (s.setSession i session) := by
    intro i session hbefore hafter
    rcases h with ⟨k, snapshot, saved, hk, hfile⟩ | hgarbled | hnone
    · have hki : k ≠ i := by
        rintro rfl
        exact hbefore _ _ hk
      exact .inl ⟨k, snapshot, saved, by simpa [setSession, hki] using hk, hfile⟩
    · exact .inr (.inl hgarbled)
    · refine .inr (.inr fun k snapshot saved hk => ?_)
      by_cases hki : k = i
      · rw [hki, session_setSession_self] at hk
        exact hafter _ _ hk
      · exact hnone k snapshot saved (by simpa [setSession, hki] using hk)
  cases Effect.of_step hs with
  | load hi => exact hkeep (by simp [hi]) (by simp)
  | update hi => exact hkeep (by simp [hi]) (by simp)
  | truncate hi => exact .inr (.inl ⟨0, rfl⟩)
  | @write i snapshot saved hi =>
    by_cases hlength : s.file.length textLength ≤ textLength saved
    · exact .inl ⟨_, _, _, session_setSession_self, if_pos hlength⟩
    · exact .inr (.inl ⟨_, if_neg hlength⟩)

/-- Two processes that read the same store and changed different fields of it cannot both have
their way. -/
theorem Written.loses (h : Written s) (hi : s.session false = .done snapshot saved)
    (hj : s.session true = .done snapshot saved')
    (hown : ∃ p f, OwnChange snapshot saved snapshot saved' p f ∧ saved.field p f ≠ none)
    (hown' : ∃ p f, OwnChange snapshot saved' snapshot saved p f ∧ saved'.field p f ≠ none) :
    ¬ (s.KeepsChanges false ∧ s.KeepsChanges true) := by
  rintro ⟨hkeeps, hkeeps'⟩
  obtain ⟨p, f, hown, hsome⟩ := hown
  obtain ⟨p', f', hown', hsome'⟩ := hown'
  have hfield := hkeeps _ _ _ _ hi hj p f hown
  have hfield' := hkeeps' _ _ _ _ hj hi p' f' hown'
  rcases h with ⟨k, snapshot₁, saved₁, hk, hfile⟩ | ⟨length, hfile⟩ | hnone
  · rw [hfile, FileContent.load] at hfield hfield'
    cases k with
    | false =>
      obtain ⟨-, rfl⟩ := StoreSession.done.inj (hi.symm.trans hk)
      exact hown'.changed (hfield'.symm.trans hown'.untouched)
    | true =>
      obtain ⟨-, rfl⟩ := StoreSession.done.inj (hj.symm.trans hk)
      exact hown.changed (hfield.symm.trans hown.untouched)
  · rw [hfile] at hfield
    exact hsome hfield.symm
  · exact hnone false _ _ hi

/-- Processes that do not overlap keep each other's changes; two that have read the same store lose
one. -/
theorem changes_kept_apart (textLength : ConnectionStore → ℕ) (file : FileContent) :
    (∀ l s, Run (step textLength) (fun s x => s.apart x = true) (start file) l s →
      ∀ i, s.KeepsChanges i) ∧
    ∀ l s snapshot saved saved', Run (step textLength) (fun _ _ => True) (start file) l s →
      s.session false = .done snapshot saved → s.session true = .done snapshot saved' →
      (∃ p f, OwnChange snapshot saved snapshot saved' p f ∧ saved.field p f ≠ none) →
      (∃ p f, OwnChange snapshot saved' snapshot saved p f ∧ saved'.field p f ≠ none) →
      ¬ (s.KeepsChanges false ∧ s.KeepsChanges true) := by
  refine ⟨fun l s h => ?_, fun l s snapshot saved saved' h hi hj hown hown' => ?_⟩
  · have hserial : Serial s :=
      h.invariant (.fresh fun _ => rfl) fun _ _ _ hinv hok hs => hinv.step hok hs
    exact hserial.keepsChanges
  · have hwritten : Written s :=
      h.invariant (.inr (.inr (by simp [start]))) fun _ _ _ hinv _ hs => hinv.step hs
    exact hwritten.loses hi hj hown hown'

def peer (p : String) : Connection :=
  ConnectionStore.freshConnection 0
    { peerAddress := p, peerPublicKey := "", state := .active, nickname := p,
      autonomyLevel := some .notify, shortMessage := none, expiresAt := none }

def twoPeers : FileContent :=
  .text ((AList.insert "amy" (peer "amy") ∅).insert "bob" (peer "bob"))

/-- Some length that grows with the store. -/
def recordsLength (store : ConnectionStore) : ℕ := 400 * store.entries.length

def tripAmy : StoreOp Unit :=
  ConnectionStore.updateInPlace 1 "amy"
    { autonomyLevel := some .fullManual, circuitBreakerTripped := some true }

def muteBob : StoreOp Unit := ConnectionStore.updateInPlace 2 "bob" { muted := some true }

def bothKept : SharedStore :=
  (exec (step recordsLength) (fun s x => s.apart x = true) (start twoPeers)
    [.load false, .update false tripAmy, .truncate false, .write false, .load true,
      .update true muteBob, .truncate true, .write true]).get (by decide +kernel)

theorem changes_kept_apart_bothKept :
    bothKept.file.load.field "amy" .circuitBreakerTripped = some (.flag (some true)) ∧
    bothKept.file.load.field "bob" .muted = some (.flag (some true)) := by
  have hkeeps := (changes_kept_apart recordsLength twoPeers).1 _ bothKept
    (Run.of_exec (Option.some_get _).symm)
  have hamy := hkeeps false _ _ _ _ rfl rfl "amy" .circuitBreakerTripped
    ⟨by decide +kernel, by decide +kernel⟩
  have hbob := hkeeps true _ _ _ _ rfl rfl "bob" .muted ⟨by decide +kernel, by decide +kernel⟩
  exact ⟨hamy.trans (by decide +kernel), hbob.trans (by decide +kernel)⟩

def tripLost : SharedStore :=
  (exec (step recordsLength) (fun _ _ => True) (start twoPeers)
    [.load false, .load true, .update false tripAmy, .update true muteBob, .truncate false,
      .write false, .truncate true, .write true]).get (by decide +kernel)

def allErased : SharedStore :=
  (exec (step recordsLength) (fun _ _ => True) (start twoPeers)
    [.load false, .update false tripAmy, .truncate false, .load true, .write false,
      .truncate true, .write true]).get (by decide +kernel)

/-- The second `save()` undoes the trip, and a `load()` between truncation and write erases all. -/
theorem overlapping_saves_lose_changes :
    (∃ l, Run (step recordsLength) (fun _ _ => True) (start twoPeers) l tripLost) ∧
    ¬ tripLost.KeepsChanges false ∧
    (∃ l, Run (step recordsLength) (fun _ _ => True) (start twoPeers) l allErased) ∧
    ¬ allErased.KeepsChanges false ∧ allErased.file.load.getConnection "bob" = none := by
  refine ⟨⟨_, Run.of_exec (Option.some_get _).symm⟩, fun hkeeps => ?_,
    ⟨_, Run.of_exec (Option.some_get _).symm⟩, fun hkeeps => ?_, by decide +kernel⟩
  · have hfield := hkeeps _ _ _ _ rfl rfl "amy" .circuitBreakerTripped
      ⟨by decide +kernel, by decide +kernel⟩
    revert hfield
    decide +kernel
  · have hfield := hkeeps _ _ _ _ rfl rfl "amy" .circuitBreakerTripped
      ⟨by decide +kernel, by decide +kernel⟩
    revert hfield
    decide +kernel

end SharedStore

end Pinch
