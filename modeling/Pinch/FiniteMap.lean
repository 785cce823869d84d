import Pinch.StoreRefinement

/-! Any sequence of calls on the connection store, against the finite map of the records. -/

namespace Pinch

open JsHeap

section Steps

variable {h₀ h : StoreHeap} {s : ConnectionStore}

theorem ConnectionStore.getConnection_insert_eq (s : ConnectionStore) (a : String)
    (c : Connection) :
    ConnectionStore.getConnection (s.insert a c) = Function.update s.getConnection a (some c) := by
  funext b
  rw [ConnectionStore.getConnection_insert]
  by_cases hba : b = a
  · subst hba
    simp
  · simp [hba, Ne.symm hba]

theorem ConnectionStore.setAutonomy_eq (s : ConnectionStore) (now : Int) {a : String}
    {level : AutonomyLevel} (confirmed : Bool) {c : Connection} (hs : s.getConnection a = some c)
    (hgate : ¬ (level = .fullAuto ∧ c.autonomyLevel ≠ .fullAuto ∧ confirmed ≠ true)) :
    s.setAutonomy now a level confirmed =
      .ok (AList.insert a
        (ConnectionStore.assign (flagCleared c) { autonomyLevel := some level } now)
        (AList.insert a (flagCleared c) s)) := by
  simp only [ConnectionStore.setAutonomy, hs, if_neg hgate, ConnectionStore.updateConnection,
    ConnectionStore.getConnection_insert, if_true, flagCleared]

/-- The call returns the object of its record, or it throws what it throws on the map. -/
def Answers (result : EStateM.Result String StoreHeap JsValue) (a : String) :
    Except String ConnectionStore → Prop
  | .ok s => ∃ value h, result = .ok value h ∧ IsRecord h value (s.getConnection a)
  | .error e => ∃ h, result = .error e h

/-- The call answers as on the map, does to the store what it does to the map, and touches no
other record. -/
structure Simulates (h₀ : StoreHeap) (s : ConnectionStore) (call : StoreCall) (h : StoreHeap) :
    Prop where
  answers : Answers ((call.run h₀.size).run h) call.key (call.apply s)
  refines : Refines h₀ (call.next s).getConnection (finalState ((call.run h₀.size).run h))
  others : OthersKept h₀ call.key h (finalState ((call.run h₀.size).run h))

theorem Simulates.of_error {call : StoreCall} {e : String} {h' : StoreHeap}
    (H : Refines h₀ s.getConnection h) (happly : call.apply s = .error e)
    (hrun : (call.run h₀.size).run h = .error e h') (hg : Grows h h') :
    Simulates h₀ s call h := by
  refine ⟨?_, ?_, ?_⟩
  · rw [happly, hrun]
    exact ⟨h', rfl⟩
  · rw [StoreCall.next, happly, hrun]
    exact H.grows hg
  · rw [hrun]
    exact H.othersKept_grows hg

theorem Simulates.of_ok {call : StoreCall} {s' : ConnectionStore} {c : Connection} {r : ℕ}
    {h' : StoreHeap} (happly : call.apply s = .ok s')
    (hs' : s'.getConnection = Function.update s.getConnection call.key (some c))
    (hrun : (call.run h₀.size).run h = .ok (.object r) h') (hrep : Represents h' r c)
    (H' : Refines h₀ (Function.update s.getConnection call.key (some c)) h')
    (hkept : OthersKept h₀ call.key h h') : Simulates h₀ s call h := by
  refine ⟨?_, ?_, ?_⟩
  · rw [happly, hrun]
    refine ⟨_, h', rfl, ?_⟩
    rw [hs', Function.update_self]
    exact ⟨r, rfl, hrep⟩
  · rw [StoreCall.next, happly, hrun]
    exact hs' ▸ H'
  · rw [hrun]
    exact hkept

theorem Refines.simulates (H : Refines h₀ s.getConnection h) (call : StoreCall)
    (hkey : call.key ∉ inheritedNames) : Simulates h₀ s call h := by
  cases call with
  | addConnection now conn =>
    by_cases hlong : ConnectionStore.maxShortMessageLength < utf16Length (conn.shortMessage.getD "")
    · obtain ⟨h', hrun, hg⟩ := ObjectStore.addConnection_tooLong H now conn hlong
      exact .of_error H (if_pos hlong) hrun hg
    · obtain ⟨r, h', hrun, hrep, H', hkept⟩ := ObjectStore.addConnection_run H now conn hkey hlong
      exact .of_ok (if_neg hlong) (s.getConnection_insert_eq _ _) hrun hrep H' hkept
  | updateConnection now a updates =>
    have ha : a ∉ inheritedNames := hkey
    cases hs : s.getConnection a with
    | none =>
      obtain ⟨h', hrun, hg⟩ := ObjectStore.updateConnection_absent H ha now updates hs
      exact .of_error H (by simp [StoreCall.apply, ConnectionStore.updateConnection, hs]) hrun hg
    | some c =>
      obtain ⟨r, h', hrun, hrep, H', hkept⟩ :=
        ObjectStore.updateConnection_present H ha now updates hs
      refine .of_ok ?_ (s.getConnection_insert_eq _ _) hrun hrep H' hkept
      simp [StoreCall.apply, ConnectionStore.updateConnection, hs, StoreCall.key]
  | setAutonomy now a level confirmed =>
    have ha : a ∉ inheritedNames := hkey
    cases hs : s.getConnection a with
    | none =>
      have hrun := ObjectStore.setAutonomy_absent H ha now level confirmed hs
      exact .of_error H (by simp [StoreCall.apply, ConnectionStore.setAutonomy, hs]) hrun (.refl h)
    | some c =>
      obtain ⟨hdenied, hallowed⟩ := ObjectStore.setAutonomy_present H ha now level confirmed hs
      by_cases hgate : level = .fullAuto ∧ c.autonomyLevel ≠ .fullAuto ∧ confirmed ≠ true
      · refine .of_error H ?_ (hdenied hgate) (.refl h)
        simp only [StoreCall.apply, ConnectionStore.setAutonomy, hs]
        exact if_pos hgate
      · obtain ⟨r, h', hrun, hrep, H', hkept⟩ := hallowed hgate
        refine .of_ok (s.setAutonomy_eq now confirmed hs hgate) ?_ hrun hrep H' hkept
        rw [ConnectionStore.getConnection_insert_eq, ConnectionStore.getConnection_insert_eq,
          Function.update_idem]
        rfl
  | getConnection a =>
    have hvalue := H.own hkey
    exact ⟨⟨_, h, rfl, hvalue⟩, H, H.othersKept_grows (.refl h)⟩

theorem refines_withStore (hp : h₀.Pristine) :
    Refines h₀ (ConnectionStore.getConnection ∅) (withStore h₀) := by
  have hstore : (withStore h₀).objects h₀.size = literal fun _ => none := alloc_objects_new
  have hprops : ∀ a, ((withStore h₀).objects h₀.size).props a = none := by
    intro a
    rw [hstore]
    simp [literal]
  refine ⟨hp.grows grows_alloc, ⟨Nat.ne_of_gt hp.exists_, Nat.lt_succ_self _, ?_, ?_⟩,
    fun r hr => alloc_objects hr, fun a _ _ => hprops a, ?_, ?_, ?_⟩
  · rw [hstore]
    rfl
  · simp [hprops]
  · intro a c _ hc
    simp [ConnectionStore.getConnection] at hc
  · simp [hprops]
  · simp [hprops]

theorem Refines.runAll (H : Refines h₀ s.getConnection h) {calls : List StoreCall}
    (hcalls : ∀ call ∈ calls, call.key ∉ inheritedNames) :
    Refines h₀ (calls.foldl StoreCall.next s).getConnection
      (StoreCall.runAll h₀.size calls h) := by
  induction calls generalizing s h with
  | nil => exact H
  | cons call calls ih =>
    have hstep := (H.simulates call (hcalls call (by simp))).refines
    exact ih hstep fun x hx => hcalls x (by simp [hx])

end Steps

/-! ### The records of one key -/

namespace StoreCall

variable {s s' : ConnectionStore} {call : StoreCall} {a : String}

/-- What a call does to the record of its key. -/
def nextRecord (call : StoreCall) (record : Option Connection) : Option Connection :=
  match call with
  | addConnection now conn =>
    if ConnectionStore.maxShortMessageLength < utf16Length (conn.shortMessage.getD "") then record
    else some (ConnectionStore.freshConnection now conn)
  | updateConnection now _ updates => record.map (ConnectionStore.assign · updates now)
  | setAutonomy now _ level confirmed => record.map fun c =>
    if level = .fullAuto ∧ c.autonomyLevel ≠ .fullAuto ∧ confirmed ≠ true then c
    else ConnectionStore.assign (flagCleared c) { autonomyLevel := some level } now
  | getConnection _ => record

/-- The record that the calls for `a`, and no others, have built. -/
def recordOf (a : String) (calls : List StoreCall) : Option Connection :=
  (calls.filter fun call => call.key = a).foldl (fun record call => call.nextRecord record) none

theorem getConnection_next_of_error {e : String} (happly : call.apply s = .error e)
    (hrecord : call.nextRecord (s.getConnection call.key) = s.getConnection call.key) :
    (call.next s).getConnection =
      Function.update s.getConnection call.key (call.nextRecord (s.getConnection call.key)) := by
  rw [hrecord, Function.update_eq_self, next, happly]

theorem getConnection_next_of_ok {c : Connection} (happly : call.apply s = .ok s')
    (hs' : s'.getConnection = Function.update s.getConnection call.key (some c))
    (hrecord : call.nextRecord (s.getConnection call.key) = some c) :
    (call.next s).getConnection =
      Function.update s.getConnection call.key (call.nextRecord (s.getConnection call.key)) := by
  rw [hrecord, ← hs', next, happly]

theorem getConnection_next (s : ConnectionStore) (call : StoreCall) :
    (call.next s).getConnection =
      Function.update s.getConnection call.key (call.nextRecord (s.getConnection call.key)) := by
  cases call with
  | addConnection now conn =>
    by_cases hlong : ConnectionStore.maxShortMessageLength < utf16Length (conn.shortMessage.getD "")
    · exact getConnection_next_of_error (if_pos hlong) (if_pos hlong)
    · exact getConnection_next_of_ok (if_neg hlong) (s.getConnection_insert_eq _ _) (if_neg hlong)
  | updateConnection now a updates =>
    cases hs : s.getConnection a with
    | none =>
      have happly : apply s (.updateConnection now a updates) =
          .error ("connection not found: " ++ a) := by
        simp only [apply, ConnectionStore.updateConnection, hs]
      exact getConnection_next_of_error happly (by simp only [nextRecord, key, hs, Option.map_none])
    | some c =>
      have happly : apply s (.updateConnection now a updates) =
          .ok (AList.insert a (ConnectionStore.assign c updates now) s) := by
        simp only [apply, ConnectionStore.updateConnection, hs]
      exact getConnection_next_of_ok happly (s.getConnection_insert_eq _ _)
        (by simp only [nextRecord, key, hs, Option.map_some])
  | setAutonomy now a level confirmed =>
    cases hs : s.getConnection a with
    | none =>
      have happly : apply s (.setAutonomy now a level confirmed) =
          .error ("connection not found: " ++ a) := by
        simp only [apply, ConnectionStore.setAutonomy, hs]
      exact getConnection_next_of_error happly (by simp only [nextRecord, key, hs, Option.map_none])
    | some c =>
      by_cases hgate : level = .fullAuto ∧ c.autonomyLevel ≠ .fullAuto ∧ confirmed ≠ true
      · have happly : apply s (.setAutonomy now a level confirmed) =
            .error "Upgrading to Full Auto requires explicit confirmation" := by
          simp only [apply, ConnectionStore.setAutonomy, hs]
          exact if_pos hgate
        exact getConnection_next_of_error happly
          (by simp only [nextRecord, key, hs, Option.map_some, if_pos hgate])
      · have happly : apply s (.setAutonomy now a level confirmed) = _ :=
          s.setAutonomy_eq now confirmed hs hgate
        refine getConnection_next_of_ok happly
          (c := ConnectionStore.assign (flagCleared c) { autonomyLevel := some level } now) ?_
          (by simp only [nextRecord, key, hs, Option.map_some, if_neg hgate])
        rw [ConnectionStore.getConnection_insert_eq, ConnectionStore.getConnection_insert_eq,
          Function.update_idem]
        rfl
  | getConnection a =>
    rw [nextRecord, Function.update_eq_self]
    rfl

/-- The map has for every key what the calls for that key have built. -/
theorem getConnection_foldl (calls : List StoreCall) (s : ConnectionStore) (a : String) :
    (calls.foldl next s).getConnection a = (calls.filter fun call => call.key = a).foldl
      (fun record call => call.nextRecord record) (s.getConnection a) := by
  induction calls generalizing s with
  | nil => rfl
  | cons call calls ih =>
    rw [List.foldl_cons, ih, getConnection_next]
    by_cases hkey : call.key = a
    · subst hkey
      simp
    · simp [hkey, Ne.symm hkey]

theorem nextRecord_isSome_iff (call : StoreCall) (record : Option Connection) :
    (call.nextRecord record).isSome ↔ record.isSome ∨ ∃ now conn,
      call = .addConnection now conn ∧
        utf16Length (conn.shortMessage.getD "") ≤ ConnectionStore.maxShortMessageLength := by
  cases call with
  | addConnection now conn =>
    simp only [nextRecord, StoreCall.addConnection.injEq]
    split
    · rename_i hlong
      constructor
      · exact .inl
      · rintro (hrecord | ⟨now', conn', ⟨rfl, rfl⟩, hshort⟩)
        · exact hrecord
        · omega
    · rename_i hshort
      simp only [Option.isSome_some, true_iff]
      exact .inr ⟨now, conn, ⟨rfl, rfl⟩, not_lt.1 hshort⟩
  | _ => simp [nextRecord]

/-- There is a record for `a` once it was added. -/
theorem recordOf_isSome_iff (a : String) (calls : List StoreCall) :
    (recordOf a calls).isSome ↔ ∃ now conn, .addConnection now conn ∈ calls ∧
      conn.peerAddress = a ∧
      utf16Length (conn.shortMessage.getD "") ≤ ConnectionStore.maxShortMessageLength := by
  have hgeneral : ∀ (calls : List StoreCall) (record : Option Connection),
      (calls.foldl (fun record call => call.nextRecord record) record).isSome ↔ record.isSome ∨
        ∃ now conn, .addConnection now conn ∈ calls ∧
          utf16Length (conn.shortMessage.getD "") ≤ ConnectionStore.maxShortMessageLength := by
    intro calls
    induction calls with
    | nil => simp
    | cons call calls ih =>
      intro record
      rw [List.foldl_cons, ih, nextRecord_isSome_iff]
      simp only [List.mem_cons, or_assoc, or_and_right, exists_or, eq_comm]
  rw [recordOf, hgeneral]
  simp only [Option.isSome_none, Bool.false_eq_true, false_or, List.mem_filter, decide_eq_true_eq,
    and_assoc]
  rfl

end StoreCall

open StoreCall

/-- For keys that `Object.prototype` does not have, the store is a finite map. After any calls there
is a record for the keys that were added, and it is the one that the calls for its key have built.
The next call answers as it does on the map. It leaves the records of all other keys and everything
outside the store as it is. -/
theorem store_is_finite_map {h₀ : StoreHeap} (hp : h₀.Pristine) {calls : List StoreCall}
    (hcalls : ∀ call ∈ calls, call.key ∉ inheritedNames) {call : StoreCall}
    (hkey : call.key ∉ inheritedNames) :
    (∀ a, a ∉ inheritedNames →
      IsRecord (runAll h₀.size calls (withStore h₀))
        ((runAll h₀.size calls (withStore h₀)).getProperty h₀.size a) (recordOf a calls) ∧
      ((recordOf a calls).isSome ↔ ∃ now conn, .addConnection now conn ∈ calls ∧
        conn.peerAddress = a ∧
        utf16Length (conn.shortMessage.getD "") ≤ ConnectionStore.maxShortMessageLength)) ∧
    Answers ((call.run h₀.size).run (runAll h₀.size calls (withStore h₀))) call.key
      (call.apply (mapAll calls)) ∧
    OthersKept h₀ call.key (runAll h₀.size calls (withStore h₀))
      (runAll h₀.size (calls ++ [call]) (withStore h₀)) ∧
    ∀ r < h₀.size, (runAll h₀.size (calls ++ [call]) (withStore h₀)).objects r = h₀.objects r := by
  have H : Refines h₀ (mapAll calls).getConnection (runAll h₀.size calls (withStore h₀)) :=
    (refines_withStore hp).runAll hcalls
  have hstep := H.simulates call hkey
  have hnext : runAll h₀.size (calls ++ [call]) (withStore h₀) =
      finalState ((call.run h₀.size).run (runAll h₀.size calls (withStore h₀))) := by
    simp [runAll]
  rw [hnext]
  refine ⟨fun a ha => ⟨?_, recordOf_isSome_iff a calls⟩, hstep.answers, hstep.others,
    hstep.refines.outside⟩
  have hown := H.own ha
  rwa [mapAll, getConnection_foldl] at hown

/-- The objects that there are before the program starts: `Object.prototype`, its functions and
`Function.prototype`. -/
def nodeHeap : StoreHeap where
  size := 14
  objects
    | 0 =>
      { proto := none
        props := fun key =>
          if key = "__proto__" then some .protoAccessor
          else if key ∈ inheritedNames then
            some (.data (.object (inheritedNames.idxOf key + 1)))
          else none }
    | 13 => { proto := some objectPrototype, props := fun _ => none }
    | _ => { proto := some 13, props := fun _ => none }

theorem nodeHeap_pristine : nodeHeap.Pristine := by
  refine ⟨by decide, rfl, fun key hkey => ?_⟩
  have hproto : key ≠ "__proto__" := by
    rintro rfl
    exact hkey (by decide)
  show (if key = "__proto__" then _ else _) = _
  rw [if_neg hproto, if_neg hkey]

/-- The request of a stranger with this address. -/
def requestFrom (address : String) : NewConnection where
  peerAddress := address
  peerPublicKey := ""
  state := .pendingInbound
  nickname := ""
  autonomyLevel := some .fullManual
  shortMessage := none
  expiresAt := none

theorem store_is_finite_map_bob :
    ((recordOf "bob" [.addConnection 0 (requestFrom "bob"),
      .updateConnection 1000 "bob" { state := some .active }]).map Connection.state) =
        some .active ∧
    IsRecord (runAll nodeHeap.size [.addConnection 0 (requestFrom "bob"),
      .updateConnection 1000 "bob" { state := some .active }] (withStore nodeHeap))
      ((runAll nodeHeap.size [.addConnection 0 (requestFrom "bob"),
        .updateConnection 1000 "bob" { state := some .active }] (withStore nodeHeap)).getProperty
          nodeHeap.size "bob")
      (recordOf "bob" [.addConnection 0 (requestFrom "bob"),
        .updateConnection 1000 "bob" { state := some .active }]) := by
  have hmap := @store_is_finite_map nodeHeap nodeHeap_pristine
    [.addConnection 0 (requestFrom "bob"),
      .updateConnection 1000 "bob" { state := some .active }] (by decide)
    (.getConnection "alice") (by decide)
  exact ⟨by decide, (hmap.1 "bob" (by decide)).1⟩

/-- A store without records has one for `constructor`. An update of `__proto__` does not throw; it
gives all objects a state. Adding `__proto__` adds no key, but makes records out of the names of
fields. -/
theorem inherited_names_are_keys :
    returned ((StoreCall.run nodeHeap.size (.getConnection "constructor")).run
      (withStore nodeHeap)) = some (.object 1) ∧
    returned ((StoreCall.run nodeHeap.size
      (.updateConnection 0 "__proto__" { state := some .active })).run (withStore nodeHeap)) =
        some (.object objectPrototype) ∧
    (runAll nodeHeap.size [.updateConnection 0 "__proto__" { state := some .active }]
      (withStore nodeHeap)).own objectPrototype "state" = .string "active" ∧
    (runAll nodeHeap.size [.addConnection 0 (requestFrom "__proto__")]
      (withStore nodeHeap)).own nodeHeap.size "__proto__" = .undefined ∧
    (runAll nodeHeap.size [.addConnection 0 (requestFrom "__proto__")]
      (withStore nodeHeap)).getProperty nodeHeap.size "state" = .string "pending_inbound" := by
  decide

end Pinch
