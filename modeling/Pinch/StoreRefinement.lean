import Pinch.ObjectStore

/-! The heap of the connection store against the records of a finite map. One lemma for each outcome
of each call says what it does to both, for keys that `Object.prototype` does not have. -/

namespace Pinch

open JsHeap

/-- The value is the object of the record, or `undefined` if there is none. -/
def IsRecord (h : StoreHeap) : JsValue → Option Connection → Prop
  | value, none => value = .undefined
  | value, some c => ∃ r, value = .object r ∧ Represents h r c

/-- The store of the heap, made right after `h₀`, has the records `s`, each in an object of its
own. What was there before is as it was. -/
structure Refines (h₀ : StoreHeap) (s : String → Option Connection) (h : StoreHeap) : Prop where
  pristine : h.Pristine
  plain : h.Plain h₀.size
  outside : ∀ r < h₀.size, h.objects r = h₀.objects r
  absent : ∀ a, a ∉ inheritedNames → s a = none → (h.objects h₀.size).props a = none
  present : ∀ a c, a ∉ inheritedNames → s a = some c → ∃ r, h₀.size < r ∧
    (h.objects h₀.size).props a = some (.data (.object r)) ∧ Represents h r c
  bounded : ∀ a r, (h.objects h₀.size).props a = some (.data (.object r)) → r < h.size
  injective : ∀ a b r, (h.objects h₀.size).props a = some (.data (.object r)) →
    (h.objects h₀.size).props b = some (.data (.object r)) → a = b

/-- The records of all keys but `a` are the same objects, and these are as they were. -/
def OthersKept (h₀ : StoreHeap) (a : String) (h h' : StoreHeap) : Prop :=
  ∀ b, b ∉ inheritedNames → b ≠ a →
    (h'.objects h₀.size).props b = (h.objects h₀.size).props b ∧
    ∀ r, (h.objects h₀.size).props b = some (.data (.object r)) → h'.objects r = h.objects r

section Refinement

variable {h₀ h h' : StoreHeap} {s : String → Option Connection} {a : String} {c c' : Connection}
  {r : ℕ}

theorem Refines.grows (H : Refines h₀ s h) (hg : Grows h h') : Refines h₀ s h' := by
  have hstore := hg.objects _ H.plain.lt
  refine ⟨H.pristine.grows hg, H.plain.grows hg, fun r hr => ?_, ?_, ?_, ?_, ?_⟩
  · rw [hg.objects r (hr.trans H.plain.lt), H.outside r hr]
  · rw [hstore]
    exact H.absent
  · intro a c ha hc
    obtain ⟨r, hlt, hr, hrep⟩ := H.present a c ha hc
    exact ⟨r, hlt, by rw [hstore, hr], hrep.grows hg⟩
  · rw [hstore]
    exact fun a r hr => (H.bounded a r hr).trans_le hg.size
  · rw [hstore]
    exact H.injective

theorem Refines.own (H : Refines h₀ s h) (ha : a ∉ inheritedNames) :
    IsRecord h (h.getProperty h₀.size a) (s a) := by
  rw [getProperty_plain H.pristine H.plain ha]
  cases hs : s a with
  | none => simp [JsHeap.own, H.absent a ha hs, IsRecord]
  | some c =>
    obtain ⟨r, -, hr, hrep⟩ := H.present a c ha hs
    exact ⟨r, by simp [JsHeap.own, hr], hrep⟩

/-- The object of a record was made after the store. -/
theorem Refines.lt_of_props (H : Refines h₀ s h) (ha : a ∉ inheritedNames)
    (hr : (h.objects h₀.size).props a = some (.data (.object r))) : h₀.size < r := by
  cases hs : s a with
  | none =>
    rw [H.absent a ha hs] at hr
    cases hr
  | some c =>
    obtain ⟨r', hlt, hr', -⟩ := H.present a c ha hs
    rw [hr] at hr'
    cases hr'
    exact hlt

theorem Refines.othersKept_grows (H : Refines h₀ s h) (hg : Grows h h') : OthersKept h₀ a h h' := by
  intro b _ _
  exact ⟨by rw [hg.objects _ H.plain.lt], fun r hr => hg.objects r (H.bounded b r hr)⟩

theorem OthersKept.trans {h'' : StoreHeap} (hf : OthersKept h₀ a h h')
    (hf' : OthersKept h₀ a h' h'') : OthersKept h₀ a h h'' := by
  intro b hb hba
  obtain ⟨hprops, hobjects⟩ := hf b hb hba
  obtain ⟨hprops', hobjects'⟩ := hf' b hb hba
  refine ⟨hprops'.trans hprops, fun r hr => ?_⟩
  rw [hobjects' r (hprops.trans hr), hobjects r hr]

/-- Properties of one record are set. -/
theorem Refines.putAll {entries : List (String × JsValue)} (H : Refines h₀ s h)
    (ha : a ∉ inheritedNames) (hlt : h₀.size < r)
    (hr : (h.objects h₀.size).props a = some (.data (.object r)))
    (hrep : Represents (h.putAll r entries) r c') :
    Refines h₀ (Function.update s a (some c')) (h.putAll r entries) ∧
      OthersKept h₀ a h (h.putAll r entries) := by
  have hne : r ≠ objectPrototype := hrep.plain.ne
  have hstore : (h.putAll r entries).objects h₀.size = h.objects h₀.size :=
    putAll_objects_of_ne hlt.ne
  have hother : ∀ b r', b ≠ a → (h.objects h₀.size).props b = some (.data (.object r')) →
      r' ≠ r := by
    rintro b r' hba hb rfl
    exact hba (H.injective b a r' hb hr)
  constructor
  · refine ⟨H.pristine.putAll hne, H.plain.putAll, fun r' hr' => ?_, fun b hb hs => ?_,
      fun b c hb hs => ?_, ?_, ?_⟩
    · rw [putAll_objects_of_ne (hr'.trans hlt).ne, H.outside r' hr']
    · have hba : b ≠ a := by
        rintro rfl
        simp at hs
      rw [hstore]
      exact H.absent b hb (by simpa [hba] using hs)
    · by_cases hba : b = a
      · subst hba
        obtain rfl : c' = c := by simpa using hs
        exact ⟨r, hlt, by rw [hstore, hr], hrep⟩
      · obtain ⟨r', hlt', hr', hrep'⟩ := H.present b c hb (by simpa [hba] using hs)
        exact ⟨r', hlt', by rw [hstore, hr'], hrep'.putAll (hother b r' hba hr')⟩
    · rw [hstore, putAll_size]
      exact H.bounded
    · rw [hstore]
      exact H.injective
  · intro b hb hba
    exact ⟨by rw [hstore], fun r' hr' => putAll_objects_of_ne (hother b r' hba hr')⟩

/-- The record of a key is put in. -/
theorem Refines.put (H : Refines h₀ s h) (ha : a ∉ inheritedNames) (hlt : h₀.size < r)
    (hfresh : ∀ b, (h.objects h₀.size).props b ≠ some (.data (.object r)))
    (hrep : Represents h r c) :
    Represents (h.put h₀.size a (.object r)) r c ∧
      Refines h₀ (Function.update s a (some c)) (h.put h₀.size a (.object r)) ∧
      OthersKept h₀ a h (h.put h₀.size a (.object r)) := by
  have hstore : ∀ b, ((h.put h₀.size a (.object r)).objects h₀.size).props b =
      if b = a then some (.data (.object r)) else (h.objects h₀.size).props b := by
    intro b
    by_cases hba : b = a <;> simp [JsHeap.put, update, hba]
  have hkept : ∀ r' c', h₀.size < r' → Represents h r' c' →
      Represents (h.put h₀.size a (.object r)) r' c' := fun r' c' hr' hrep' =>
    hrep'.mono hrep'.plain.put (put_objects_of_ne hr'.ne') le_rfl fun k _ => put_content k
  refine ⟨hkept r c hlt hrep, ?_, ?_⟩
  · refine ⟨H.pristine.put H.plain.ne, H.plain.put, fun r' hr' => ?_, fun b hb hs => ?_,
      fun b c' hb hs => ?_, fun b r' hb => ?_, fun b b' r' hb hb' => ?_⟩
    · rw [put_objects_of_ne hr'.ne, H.outside r' hr']
    · have hba : b ≠ a := by
        rintro rfl
        simp at hs
      rw [hstore, if_neg hba]
      exact H.absent b hb (by simpa [hba] using hs)
    · by_cases hba : b = a
      · subst hba
        obtain rfl : c = c' := by simpa using hs
        exact ⟨r, hlt, by rw [hstore, if_pos rfl], hkept r c hlt hrep⟩
      · obtain ⟨r', hlt', hr', hrep'⟩ := H.present b c' hb (by simpa [hba] using hs)
        exact ⟨r', hlt', by rw [hstore, if_neg hba, hr'], hkept r' c' hlt' hrep'⟩
    · rw [hstore] at hb
      split at hb
      · cases hb
        exact hrep.plain.lt
      · exact H.bounded b r' hb
    · rw [hstore] at hb hb'
      split at hb
      · rename_i hba
        cases hb
        split at hb'
        · rename_i hba'
          rw [hba, hba']
        · exact absurd hb' (hfresh b')
      · split at hb'
        · cases hb'
          exact absurd hb (hfresh b)
        · exact H.injective b b' r' hb hb'
  · intro b hb hba
    exact ⟨by rw [hstore, if_neg hba], fun r' hr' => put_objects_of_ne (H.lt_of_props hb hr').ne'⟩

end Refinement

/-! ### The calls -/

section Calls

variable {h₀ h : StoreHeap} {s : String → Option Connection} {a : String} {c : Connection}

theorem passManifest_run (manifest : Option PermissionsManifest) (h : StoreHeap) :
    ∃ passed h', (passManifest manifest).run h = .ok passed h' ∧ Grows h h' ∧
      (passed = none ∧ manifest = none ∨
        ∃ k m, passed = some (.object k) ∧ manifest = some m ∧ k < h'.size ∧
          (h'.objects k).content = some m) := by
  cases manifest with
  | none => exact ⟨none, h, rfl, .refl h, .inl ⟨rfl, rfl⟩⟩
  | some m =>
    refine ⟨some (.object h.size), h.alloc (manifestObject m), rfl, grows_alloc,
      .inr ⟨h.size, m, rfl, rfl, Nat.lt_succ_self _, ?_⟩⟩
    rw [alloc_objects_new]
    rfl

theorem updates_own (updates : ConnectionUpdates) (passed : Option JsValue) (now : Int)
    (c : Connection) {f : ConnectionField} (hf : f ≠ .permissionsManifest)
    (hactivity : f ≠ .lastActivity) :
    (updates.own passed f).getD (f.value c).js =
      (f.value (ConnectionStore.assign c updates now)).js := by
  obtain ⟨state, nickname, level, key, policy, tripped, manifest, muted, passthrough⟩ := updates
  cases f with
  | state => cases state <;> rfl
  | nickname => cases nickname <;> rfl
  | autonomyLevel => cases level <;> rfl
  | peerPublicKey => cases key <;> rfl
  | autoRespondPolicy => cases policy <;> rfl
  | circuitBreakerTripped => cases tripped <;> rfl
  | muted => cases muted <;> rfl
  | passthrough => cases passthrough <;> rfl
  | permissionsManifest => exact absurd rfl hf
  | lastActivity => exact absurd rfl hactivity
  | _ => rfl

theorem extended_own (conn : NewConnection) (passed : Option JsValue) (manifest : JsValue)
    (now : Int) {f : ConnectionField} (hf : f ≠ .permissionsManifest) :
    (ObjectStore.extended (conn.own passed)
      (.string (conn.autonomyLevel.getD .fullManual).name) manifest (isoString now) f).getD
        .undefined = (f.value (ConnectionStore.freshConnection now conn)).js := by
  obtain ⟨address, key, state, nickname, level, policy, tripped, manifest', muted, passthrough,
    message, expires⟩ := conn
  cases f with
  | autoRespondPolicy => cases policy <;> rfl
  | circuitBreakerTripped => cases tripped <;> rfl
  | muted => cases muted <;> rfl
  | passthrough => cases passthrough <;> rfl
  | shortMessage => cases message <;> rfl
  | expiresAt => cases expires <;> rfl
  | permissionsManifest => exact absurd rfl hf
  | _ => rfl

/-- The fields of a record after `Object.assign(conn, updates, { lastActivity: now })`. -/
theorem Represents.assign {r : ℕ} (hrep : Represents h r c) (updates : ConnectionUpdates)
    {passed : Option JsValue} (now : Int)
    (hpassed : passed = none ∧ updates.permissionsManifest = none ∨
      ∃ k m, passed = some (.object k) ∧ updates.permissionsManifest = some m ∧ k < h.size ∧
        (h.objects k).content = some m) :
    Represents (h.putAll r (entriesOf (updates.own passed) ConnectionField.all ++
      [("lastActivity", .string (isoString now))])) r (ConnectionStore.assign c updates now) := by
  obtain ⟨t, ht⟩ : ∃ t, t = h.putAll r (entriesOf (updates.own passed) ConnectionField.all) :=
    ⟨_, rfl⟩
  have hput : h.putAll r (entriesOf (updates.own passed) ConnectionField.all ++
      [("lastActivity", .string (isoString now))]) =
      t.put r "lastActivity" (.string (isoString now)) := by
    rw [ht]
    simp [JsHeap.putAll]
  have hown : ∀ f : ConnectionField, f ≠ .lastActivity →
      (t.put r "lastActivity" (.string (isoString now))).own r f.name =
        (updates.own passed f).getD (h.own r f.name) := by
    intro f hf
    have hne : f.name ≠ "lastActivity" := fun hname =>
      hf (ConnectionField.name_injective (g := .lastActivity) hname)
    rw [own_put_of_ne (.inr hne), ht, own_putAll_entriesOf (by decide),
      if_pos (ConnectionField.mem_all f)]
  have hmono : ∀ value manifest, HoldsManifest h value manifest →
      HoldsManifest (t.put r "lastActivity" (.string (isoString now))) value manifest := by
    intro value manifest hm
    refine hm.mono (by rw [put_size, ht, putAll_size]) fun k _ => ?_
    rw [put_content, ht, putAll_content]
  rw [hput]
  refine ⟨(ht ▸ hrep.plain.putAll : t.Plain r).put, fun f hf => ?_, hmono _ _ ?_⟩
  · by_cases hactivity : f = .lastActivity
    · subst hactivity
      exact own_put
    · rw [hown f hactivity, hrep.fields f hf]
      exact updates_own updates passed now c hf hactivity
  · rw [hown .permissionsManifest (by decide)]
    rcases hpassed with ⟨rfl, hnone⟩ | ⟨k, m, rfl, hsome, hlt, hcontent⟩
    · have hkept : (ConnectionStore.assign c updates now).permissionsManifest =
          c.permissionsManifest := by simp [ConnectionStore.assign, hnone]
      rw [hkept]
      exact hrep.manifest
    · have hnew : (ConnectionStore.assign c updates now).permissionsManifest = some m := by
        simp [ConnectionStore.assign, hsome]
      rw [hnew]
      exact ⟨k, rfl, hlt, hcontent⟩

theorem objectAssign_run {r : ℕ} {entries : List (String × JsValue)} (hp : h.Pristine)
    (hr : h.Plain r) (hkeys : ∀ entry ∈ entries, entry.1 ∉ inheritedNames) :
    (JsOp.objectAssign (.object r) entries).run h = .ok () (h.putAll r entries) :=
  JsOp.forM_assign_run hp hr hkeys

theorem ObjectStore.updateConnection_absent (H : Refines h₀ s h) (ha : a ∉ inheritedNames)
    (now : Int) (updates : ConnectionUpdates) (hs : s a = none) :
    ∃ h', (updateConnection h₀.size now a updates).run h =
      .error ("connection not found: " ++ a) h' ∧ Grows h h' := by
  obtain ⟨passed, h', hrun, hg, -⟩ := passManifest_run updates.permissionsManifest h
  refine ⟨h', ?_, hg⟩
  have hvalue : h'.getProperty h₀.size a = .undefined := by
    have hown := (H.grows hg).own ha
    rwa [hs] at hown
  unfold updateConnection
  rw [EStateM.run_bind, hrun]
  show (JsOp.property (.object h₀.size) a >>= _).run h' = _
  rw [EStateM.run_bind, JsOp.property_run, hvalue]
  rfl

theorem ObjectStore.updateConnection_present (H : Refines h₀ s h) (ha : a ∉ inheritedNames)
    (now : Int) (updates : ConnectionUpdates) (hs : s a = some c) :
    ∃ r h', (updateConnection h₀.size now a updates).run h = .ok (.object r) h' ∧
      Represents h' r (ConnectionStore.assign c updates now) ∧
      Refines h₀ (Function.update s a (some (ConnectionStore.assign c updates now))) h' ∧
      OthersKept h₀ a h h' := by
  obtain ⟨passed, h₁, hrun, hg, hpassed⟩ := passManifest_run updates.permissionsManifest h
  have H₁ := H.grows hg
  obtain ⟨r, hlt, hr, hrep⟩ := H₁.present a c ha hs
  have hassigned := hrep.assign updates now hpassed
  obtain ⟨hrefines, hkept⟩ := H₁.putAll ha hlt hr hassigned
  refine ⟨r, _, ?_, hassigned, hrefines, (H.othersKept_grows hg).trans hkept⟩
  have hvalue : h₁.getProperty h₀.size a = .object r := by
    rw [getProperty_plain H₁.pristine H₁.plain ha]
    simp [JsHeap.own, hr]
  unfold updateConnection
  rw [EStateM.run_bind, hrun]
  show (JsOp.property (.object h₀.size) a >>= _).run h₁ = _
  rw [EStateM.run_bind, JsOp.property_run, hvalue]
  show (JsOp.objectAssign (.object r) _ >>= _).run h₁ = _
  rw [EStateM.run_bind, objectAssign_run H₁.pristine hrep.plain (entriesOf_not_inherited _ _)]
  show (JsOp.objectAssign (.object r) _ >>= _).run _ = _
  have hactivity : ∀ entry ∈ [("lastActivity", JsValue.string (isoString now))],
      entry.1 ∉ inheritedNames := by
    intro entry hentry
    obtain rfl := List.mem_singleton.1 hentry
    exact ConnectionField.lastActivity.name_not_inherited
  rw [EStateM.run_bind, objectAssign_run (H₁.pristine.putAll hrep.plain.ne) hrep.plain.putAll
    hactivity]
  simp only [JsHeap.putAll, List.foldl_append]
  rfl

theorem ObjectStore.setAutonomy_absent (H : Refines h₀ s h) (ha : a ∉ inheritedNames)
    (now : Int) (level : AutonomyLevel) (confirmed : Bool) (hs : s a = none) :
    (setAutonomy h₀.size now a level confirmed).run h =
      .error ("connection not found: " ++ a) h := by
  have hvalue : h.getProperty h₀.size a = .undefined := by
    have hown := H.own ha
    rwa [hs] at hown
  unfold setAutonomy
  rw [EStateM.run_bind, JsOp.property_run, hvalue]
  rfl

theorem level_name_eq (level : AutonomyLevel) :
    (JsValue.string level.name = .string "full_auto") ↔ level = .fullAuto := by
  cases level <;> decide

theorem truthy_jsFlag (flag : Option Bool) : (jsFlag flag).truthy = true ↔ flag = some true := by
  cases flag with
  | none => decide
  | some b => cases b <;> decide

/-- The flag of the breaker is cleared before the level is set. -/
theorem Represents.clearTripped {r : ℕ} (hrep : Represents h r c) :
    Represents (h.putAll r [("circuitBreakerTripped", .bool false)]) r
      { c with circuitBreakerTripped := some false } := by
  refine ⟨hrep.plain.putAll, fun f hf => ?_, ?_⟩
  · by_cases htripped : f = .circuitBreakerTripped
    · subst htripped
      exact own_put
    · have hne : f.name ≠ "circuitBreakerTripped" := fun hname =>
        htripped (ConnectionField.name_injective (g := .circuitBreakerTripped) hname)
      have hown : (h.putAll r [("circuitBreakerTripped", .bool false)]).own r f.name =
          h.own r f.name := own_put_of_ne (.inr hne)
      rw [hown, hrep.fields f hf]
      cases f with
      | circuitBreakerTripped => exact absurd rfl htripped
      | _ => rfl
  · have hown : (h.putAll r [("circuitBreakerTripped", .bool false)]).own r
        ConnectionField.permissionsManifest.name =
        h.own r ConnectionField.permissionsManifest.name := own_put_of_ne (.inr (by decide))
    rw [hown]
    exact hrep.manifest.mono putAll_size.ge fun k _ => putAll_content k

theorem ObjectStore.setAutonomy_present (H : Refines h₀ s h) (ha : a ∉ inheritedNames)
    (now : Int) (level : AutonomyLevel) (confirmed : Bool) (hs : s a = some c) :
    (level = .fullAuto ∧ c.autonomyLevel ≠ .fullAuto ∧ confirmed ≠ true →
      (setAutonomy h₀.size now a level confirmed).run h =
        .error "Upgrading to Full Auto requires explicit confirmation" h) ∧
    (¬ (level = .fullAuto ∧ c.autonomyLevel ≠ .fullAuto ∧ confirmed ≠ true) →
      ∃ r h', (setAutonomy h₀.size now a level confirmed).run h = .ok (.object r) h' ∧
        Represents h' r
          (ConnectionStore.assign (flagCleared c) { autonomyLevel := some level } now) ∧
        Refines h₀ (Function.update s a
          (some (ConnectionStore.assign (flagCleared c) { autonomyLevel := some level } now))) h' ∧
        OthersKept h₀ a h h') := by
  obtain ⟨r, hlt, hr, hrep⟩ := H.present a c ha hs
  have hvalue : h.getProperty h₀.size a = .object r := by
    rw [getProperty_plain H.pristine H.plain ha]
    simp [JsHeap.own, hr]
  have hlevel : h.getProperty r "autonomyLevel" = .string c.autonomyLevel.name :=
    hrep.getProperty H.pristine (f := .autonomyLevel) (by decide)
  have htripped : h.getProperty r "circuitBreakerTripped" = jsFlag c.circuitBreakerTripped :=
    hrep.getProperty H.pristine (f := .circuitBreakerTripped) (by decide)
  have hrun : (setAutonomy h₀.size now a level confirmed).run h =
      (if level = .fullAuto ∧ c.autonomyLevel ≠ .fullAuto ∧ confirmed ≠ true then
        throw "Upgrading to Full Auto requires explicit confirmation"
      else if c.circuitBreakerTripped = some true then do
        JsOp.assignProperty (.object r) "circuitBreakerTripped" (.bool false)
        updateConnection h₀.size now a { autonomyLevel := some level }
      else updateConnection h₀.size now a { autonomyLevel := some level } :
        StoreJs JsValue).run h := by
    unfold setAutonomy
    rw [EStateM.run_bind, JsOp.property_run, hvalue]
    show (JsOp.property (.object r) "autonomyLevel" >>= _).run h = _
    rw [EStateM.run_bind, JsOp.property_run, hlevel]
    simp only [ne_eq, level_name_eq]
    split
    · rfl
    · show (JsOp.property (.object r) "circuitBreakerTripped" >>= _).run h = _
      rw [EStateM.run_bind, JsOp.property_run, htripped]
      simp only [truthy_jsFlag]
  rw [hrun]
  constructor
  · intro hdenied
    rw [if_pos hdenied]
    rfl
  · intro hallowed
    rw [if_neg hallowed]
    by_cases hflag : c.circuitBreakerTripped = some true
    · rw [if_pos hflag, show flagCleared c = _ from if_pos hflag]
      obtain ⟨H₁, hkept⟩ := H.putAll ha hlt hr hrep.clearTripped
      obtain ⟨r', h', hrun', hrep', H', hkept'⟩ := updateConnection_present H₁ ha now
        { autonomyLevel := some level } (Function.update_self a _ s)
      rw [Function.update_idem] at H'
      refine ⟨r', h', ?_, hrep', H', hkept.trans hkept'⟩
      have hset : (JsOp.assignProperty (.object r) "circuitBreakerTripped" (.bool false)).run h =
          .ok () (h.put r "circuitBreakerTripped" (.bool false)) :=
        JsOp.assignProperty_run H.pristine hrep.plain (by decide) _
      rw [EStateM.run_bind, hset]
      exact hrun'
    · rw [if_neg hflag, show flagCleared c = c from if_neg hflag]
      exact updateConnection_present H ha now { autonomyLevel := some level } hs

theorem argument_run (hp : h.Pristine) (own : ConnectionField → Option JsValue)
    (f : ConnectionField) :
    (ObjectStore.argument own f).run h = .ok ((own f).getD .undefined) h := by
  unfold ObjectStore.argument
  cases own f with
  | some value => rfl
  | none =>
    show (JsOp.property (.object objectPrototype) f.name).run h = _
    rw [JsOp.property_run, getProperty_objectPrototype hp f.name_not_inherited]
    rfl

theorem shortMessage_run (hp : h.Pristine) (conn : NewConnection) (passed : Option JsValue) :
    (ObjectStore.argument (conn.own passed) .shortMessage).run h =
      .ok (jsText conn.shortMessage) h := by
  rw [argument_run hp]
  cases hm : conn.shortMessage <;> simp [NewConnection.own, hm, jsText]

theorem tooLong_jsText (message : Option String) : ObjectStore.tooLong (jsText message) =
    decide (ConnectionStore.maxShortMessageLength < utf16Length (message.getD "")) := by
  cases message with
  | none => decide
  | some text => rfl

theorem manifest_run {passed : Option JsValue} {manifest : Option PermissionsManifest}
    (hpassed : passed = none ∧ manifest = none ∨
      ∃ k m, passed = some (.object k) ∧ manifest = some m ∧ k < h.size ∧
        (h.objects k).content = some m) :
    ∃ k h', (ObjectStore.orElse (passed.getD .undefined) do
        let r ← JsOp.new (manifestObject defaultPermissionsManifest)
        pure (.object r)).run h = .ok (.object k) h' ∧ Grows h h' ∧ k < h'.size ∧
      (h'.objects k).content = some (manifest.getD defaultPermissionsManifest) := by
  rcases hpassed with ⟨rfl, rfl⟩ | ⟨k, m, rfl, rfl, hlt, hcontent⟩
  · refine ⟨h.size, h.alloc (manifestObject defaultPermissionsManifest), rfl, grows_alloc,
      Nat.lt_succ_self _, ?_⟩
    rw [alloc_objects_new]
    rfl
  · exact ⟨k, h, rfl, .refl h, hlt, hcontent⟩

/-- The object that `addConnection` makes. -/
theorem represents_literal (hp : h.Pristine) (conn : NewConnection) (passed : Option JsValue)
    (now : Int) {k : ℕ} (hk : k < h.size) (hcontent : (h.objects k).content =
      some (conn.permissionsManifest.getD defaultPermissionsManifest)) :
    Represents (h.alloc (literal (ObjectStore.extended (conn.own passed)
      (.string (conn.autonomyLevel.getD .fullManual).name) (.object k) (isoString now)))) h.size
      (ConnectionStore.freshConnection now conn) := by
  refine ⟨⟨Nat.ne_of_gt hp.exists_, Nat.lt_succ_self _, ?_, fun key => ?_⟩, fun f hf => ?_, ?_⟩
  · rw [alloc_objects_new]
    rfl
  · rw [alloc_objects_new]
    exact literal_data _ key
  · rw [own_literal]
    exact extended_own conn passed _ now hf
  · rw [own_literal]
    exact ⟨k, rfl, Nat.lt_succ_of_lt hk, by rw [alloc_objects hk, hcontent]⟩

theorem ObjectStore.addConnection_tooLong (H : Refines h₀ s h) (now : Int) (conn : NewConnection)
    (hlong : ConnectionStore.maxShortMessageLength < utf16Length (conn.shortMessage.getD "")) :
    ∃ h', (addConnection h₀.size now conn).run h =
      .error "shortMessage exceeds 280 character limit" h' ∧ Grows h h' := by
  obtain ⟨passed, h₁, hrun, hg, -⟩ := passManifest_run conn.permissionsManifest h
  refine ⟨h₁, ?_, hg⟩
  unfold addConnection
  rw [EStateM.run_bind, hrun]
  show (argument (conn.own passed) .shortMessage >>= _).run h₁ = _
  rw [EStateM.run_bind, shortMessage_run (H.pristine.grows hg)]
  simp only [tooLong_jsText, hlong, decide_true, if_true]
  rfl

theorem ObjectStore.addConnection_run (H : Refines h₀ s h) (now : Int) (conn : NewConnection)
    (ha : conn.peerAddress ∉ inheritedNames)
    (hshort : ¬ ConnectionStore.maxShortMessageLength < utf16Length (conn.shortMessage.getD "")) :
    ∃ r h', (addConnection h₀.size now conn).run h = .ok (.object r) h' ∧
      Represents h' r (ConnectionStore.freshConnection now conn) ∧
      Refines h₀ (Function.update s conn.peerAddress
        (some (ConnectionStore.freshConnection now conn))) h' ∧
      OthersKept h₀ conn.peerAddress h h' := by
  obtain ⟨passed, h₁, hrun, hg, hpassed⟩ := passManifest_run conn.permissionsManifest h
  obtain ⟨k, h₂, hmanifest, hg', hk, hcontent⟩ := manifest_run hpassed
  have H₂ := H.grows (hg.trans hg')
  have H₃ := H₂.grows (grows_alloc (o := literal (extended (conn.own passed)
    (.string (conn.autonomyLevel.getD .fullManual).name) (.object k) (isoString now))))
  have hfresh : ∀ b, ((h₂.alloc (literal (extended (conn.own passed)
      (.string (conn.autonomyLevel.getD .fullManual).name) (.object k)
      (isoString now)))).objects h₀.size).props b ≠ some (.data (.object h₂.size)) := by
    intro b hb
    rw [alloc_objects H₂.plain.lt] at hb
    exact Nat.lt_irrefl _ (H₂.bounded b _ hb)
  obtain ⟨hrep, hrefines, hkept⟩ := H₃.put ha H₂.plain.lt hfresh
    (represents_literal H₂.pristine conn passed now hk hcontent)
  refine ⟨h₂.size, _, ?_, hrep, hrefines,
    ((H.othersKept_grows (hg.trans hg')).trans (H₂.othersKept_grows grows_alloc)).trans hkept⟩
  have hp₁ := H.pristine.grows hg
  have hlevel : (orElse ((conn.own passed .autonomyLevel).getD .undefined)
      (pure (.string AutonomyLevel.fullManual.name))).run h₁ =
      .ok (.string (conn.autonomyLevel.getD .fullManual).name) h₁ := by
    cases hl : conn.autonomyLevel <;> simp only [NewConnection.own, hl] <;> rfl
  unfold addConnection
  rw [EStateM.run_bind, hrun]
  show (argument (conn.own passed) .shortMessage >>= _).run h₁ = _
  rw [EStateM.run_bind, shortMessage_run hp₁]
  simp only [tooLong_jsText, hshort, decide_false, Bool.false_eq_true, if_false]
  rw [EStateM.run_bind, argument_run hp₁]
  show (orElse _ _ >>= _).run h₁ = _
  rw [EStateM.run_bind, hlevel]
  show (argument (conn.own passed) .permissionsManifest >>= _).run h₁ = _
  rw [EStateM.run_bind, argument_run hp₁]
  show (orElse (passed.getD .undefined) _ >>= _).run h₁ = _
  rw [EStateM.run_bind, hmanifest]
  show (JsOp.new _ >>= _).run h₂ = _
  rw [EStateM.run_bind, JsOp.new_run]
  show (JsOp.assignProperty (.object h₀.size) conn.peerAddress _ >>= _).run _ = _
  rw [EStateM.run_bind, JsOp.assignProperty_run H₃.pristine H₃.plain ha]
  rfl

end Calls

end Pinch
