import LanguageHost.Proofs.Memory.Rules

/-!
# What the shared memory refuses

An operation on the shared memory is refused for one reason only, and the reason decides the error.
`Coordinator.Refuses` lists the reasons in terms of what the coordinator holds: which names are in
the table, the sum of the sizes of their regions, who has declared which use, and what can be
mapped.  Where several things are wrong, the conditions say which one counts.

In every state that can be reached, these are the errors that are given and no others
(`error?_answer_iff`), and whatever is refused changes nothing (`step_of_error?`).
-/

namespace LanguageHost

/-- The error that is given, if one is. -/
def MemoryAnswer.error? : MemoryAnswer → Option HostError
  | .region (.error e) => some e
  | .done (.error e) => some e
  | .guard (.error e) => some e
  | _ => none

namespace MemoryEvent

/-- The name under which a region is looked up. -/
def sought? : MemoryEvent → Option String
  | .free id => some id
  | .acquire _ id => some id
  | .release _ id => some id
  | .guard _ id => some id
  | _ => none

/-- The use that is asked for, and the name of the region. -/
def access? : MemoryEvent → Option (Access × String)
  | .acquire access id => some (access, id)
  | .guard access id => some (access, id)
  | _ => none

end MemoryEvent

namespace Coordinator

variable {c c' : Coordinator} {e : MemoryEvent} {err : HostError} {access : Access} {id : String}
variable {ref : RegionRef} {r : Region} {size : UInt64} {element : ElementType}

/-- The region that a name stands for, as it is now. -/
def Named (c : Coordinator) (id : String) (r : Region) : Prop :=
  ∃ ref, c.table.get? id = some ref ∧ c.region? ref = some r

/-- The regions in the table and one of this size are more than the limit together, as far as a word
can say. -/
def Exceeds (c : Coordinator) (size : UInt64) : Prop :=
  c.settings.limit.toNat < min (c.total + size.toNat) Word.largest

/-- Every reason for which something is refused, with the error that is given. -/
inductive Refuses (c : Coordinator) : MemoryEvent → HostError → Prop where
  /-- The name is in use. -/
  | taken {id : String} {size : UInt64} {element : ElementType} (hid : id ∈ c.ids) :
      c.Refuses (.allocate id size element) (.regionExists id)
  /-- The budget does not allow so much. -/
  | exceeded {id : String} {size : UInt64} {element : ElementType} (hid : id ∉ c.ids)
      (hsize : c.Exceeds size) :
      c.Refuses (.allocate id size element) (.memoryLimitExceeded size c.usage c.settings.limit)
  /-- The budget allows it, but so much cannot be mapped. -/
  | unmapped {id : String} {size : UInt64} {element : ElementType} {reason : String}
      (hid : id ∉ c.ids) (hsize : ¬ c.Exceeds size)
      (hfault : c.space.fault? c.total size = some reason) :
      c.Refuses (.allocate id size element)
        (.io ("failed to map region " ++ id ++ ": " ++ reason))
  /-- No region has the name. -/
  | missing {e : MemoryEvent} {id : String} (he : e.sought? = some id) (hid : id ∉ c.ids) :
      c.Refuses e (.regionNotFound id)
  /-- Somebody uses what shall be freed. -/
  | used {id : String} {r : Region} (hr : c.Named id r) (hused : 0 < r.readers ∨ 0 < r.writers) :
      c.Refuses (.free id) (.regionBusy id r.readers.toNat r.writers.toNat)
  /-- A writer meets a writer. -/
  | written {e : MemoryEvent} {id : String} {r : Region} (he : e.access? = some (.write, id))
      (hr : c.Named id r) (hwriters : 0 < r.writers) : c.Refuses e (.writerConflict id)
  /-- A writer meets readers. -/
  | beingRead {e : MemoryEvent} {id : String} {r : Region} (he : e.access? = some (.write, id))
      (hr : c.Named id r) (hrule : c.settings.rule = .exclusive) (hwriters : r.writers = 0)
      (hreaders : 0 < r.readers) : c.Refuses e (.regionBusy id r.readers.toNat 0)
  /-- A reader meets a writer. -/
  | beingWritten {e : MemoryEvent} {id : String} {r : Region} (he : e.access? = some (.read, id))
      (hr : c.Named id r) (hrule : c.settings.rule = .exclusive) (hwriters : 0 < r.writers) :
      c.Refuses e (.writerConflict id)

/-! ### What is found -/

theorem not_mem_ids : id ∉ c.ids ↔ c.table.get? id = none := by
  rw [ids, Dict.sortedNames_entries, Dict.mem_keys, not_exists, Option.eq_none_iff_forall_ne_some]

theorem contains_iff : c.table.contains id = true ↔ id ∈ c.ids := by
  rw [Dict.contains, Option.isSome_iff_exists, ids, Dict.sortedNames_entries, Dict.mem_keys]

theorem get_eq_error : c.get id = .error err ↔ id ∉ c.ids ∧ err = .regionNotFound id := by
  rw [not_mem_ids]
  unfold get
  cases c.table.get? id with
  | none => simp [eq_comm]
  | some ref => simp

/-- In the table there are only names of regions, so a region is missing just if its name is. -/
theorem find_eq_error (hc : c.Sound) :
    c.find id = .error err ↔ id ∉ c.ids ∧ err = .regionNotFound id := by
  rw [not_mem_ids]
  unfold find
  cases hid : c.table.get? id with
  | none => simp [eq_comm]
  | some ref =>
    obtain ⟨r, hr, -⟩ := hc.tabled id ref hid
    simp [hr]

theorem Named.of_find (h : c.find id = .ok (ref, r)) : c.Named id r := ⟨ref, find_eq_ok.mp h⟩

/-- A name stands for one region. -/
theorem Named.eq_of_find {q : Region} (hq : c.Named id q) (h : c.find id = .ok (ref, r)) :
    q = r := by
  obtain ⟨ref', hid', hq'⟩ := hq
  obtain ⟨hid, hr⟩ := find_eq_ok.mp h
  cases hid'.symm.trans hid
  exact Option.some.inj (hq'.symm.trans hr)

theorem Named.mem_ids (h : c.Named id r) : id ∈ c.ids := by
  obtain ⟨ref, hid, -⟩ := h
  rw [ids, Dict.sortedNames_entries]
  exact Dict.mem_keys.mpr ⟨ref, hid⟩

/-! ### Making a region -/

/-- The check of the budget compares the sum of the sizes. -/
theorem exceeds_iff_lt (hc : c.Balanced) :
    c.Exceeds size ↔ c.settings.limit < saturatingAdd c.usage size := by
  rw [Exceeds, UInt64.lt_iff_toNat_lt, toNat_saturatingAdd, hc.usage_eq]

/-- Below the largest limit the sum of the sizes is compared as a number. -/
theorem exceeds_iff (h : c.settings.limit.toNat < Word.largest) :
    c.Exceeds size ↔ c.settings.limit.toNat < c.total + size.toNat := by
  unfold Exceeds
  omega

/-- A region that is made has the next place, and its name was free. -/
theorem made_of_allocate (h : c.allocate id size element = (.ok ref, c')) :
    c.table.get? id = none ∧ ref = c.made.size ∧ c' = c.withRegion id size element := by
  rcases c.allocate_cases id size element with ⟨e, herr⟩ | ⟨hid, hok⟩
  · cases herr.symm.trans h
  · cases hok.symm.trans h
    exact ⟨hid, rfl, rfl⟩

theorem allocate_eq_error (hc : c.Balanced) : (c.allocate id size element).1 = .error err ↔
    c.Refuses (.allocate id size element) err := by
  unfold allocate
  constructor
  · intro h
    split at h
    · next hid =>
      cases h
      exact .taken (contains_iff.mp hid)
    · next hid =>
      split at h
      · next hlimit =>
        cases h
        exact .exceeded (mt contains_iff.mpr hid) ((exceeds_iff_lt hc).mpr hlimit)
      · next hlimit =>
        split at h
        · next reason hfault =>
          cases h
          exact .unmapped (mt contains_iff.mpr hid) (mt (exceeds_iff_lt hc).mp hlimit)
            (hc.usage_eq ▸ hfault)
        · cases h
  · intro h
    cases h with
    | taken hid => rw [if_pos (contains_iff.mpr hid)]
    | exceeded hid hsize =>
      rw [if_neg (mt contains_iff.mp hid), if_pos ((exceeds_iff_lt hc).mp hsize)]
    | @unmapped _ _ _ reason hid hsize hfault =>
      rw [if_neg (mt contains_iff.mp hid), if_neg (mt (exceeds_iff_lt hc).mpr hsize), hc.usage_eq,
        hfault]
    | missing he => cases he
    | written he => cases he
    | beingRead he => cases he
    | beingWritten he => cases he

/-! ### Freeing a region -/

theorem free_eq_error (hc : c.Sound) :
    (c.free id).1 = .error err ↔ c.Refuses (.free id) err := by
  unfold free
  cases hfind : c.find id with
  | error missing =>
    obtain ⟨hid, rfl⟩ := (find_eq_error hc).mp hfind
    constructor
    · intro h
      cases h
      exact .missing rfl hid
    · intro h
      cases h with
      | missing he _ =>
        cases he
        rfl
      | used hr _ => exact absurd hr.mem_ids hid
      | written he => cases he
      | beingRead he => cases he
      | beingWritten he => cases he
  | ok found =>
    obtain ⟨ref, r⟩ := found
    have hr : c.Named id r := .of_find hfind
    constructor
    · intro h
      dsimp only at h
      split at h
      · next hused =>
        cases h
        exact .used hr hused
      · cases h
    · intro h
      cases h with
      | missing he hid =>
        cases he
        exact absurd hr.mem_ids hid
      | used hq hused =>
        cases hq.eq_of_find hfind
        dsimp only
        rw [if_pos hused]
      | written he => cases he
      | beingRead he => cases he
      | beingWritten he => cases he

/-! ### Declaring and withdrawing uses -/

theorem release_eq_error : (c.release access id).1 = .error err ↔
    c.Refuses (.release access id) err := by
  have hget : (c.release access id).1 = .error err ↔ c.get id = .error err := by
    unfold release
    split
    · next heq => rw [heq]; simp
    · next heq => simp [heq]
  rw [hget, get_eq_error]
  constructor
  · rintro ⟨hid, rfl⟩
    exact .missing rfl hid
  · intro h
    cases h with
    | missing he hid =>
      cases he
      exact ⟨hid, rfl⟩
    | written he => cases he
    | beingRead he => cases he
    | beingWritten he => cases he

/-- The rule forbids a use of a region for one of the reasons of `Refuses`. -/
theorem refusal?_eq_some (he : e.access? = some (access, id)) (hr : c.Named id r)
    (h : refusal? c.settings.rule access id r = some err) : c.Refuses e err := by
  cases access with
  | read =>
    simp only [refusal?] at h
    split at h
    · next hcond =>
      cases h
      exact .beingWritten he hr hcond.1 hcond.2
    · cases h
  | write =>
    simp only [refusal?] at h
    split at h
    · next hwriters =>
      cases h
      exact .written he hr hwriters
    · next hwriters =>
      split at h
      · next hcond =>
        cases h
        exact .beingRead he hr hcond.1 (Word.eq_zero_of_not_pos hwriters) hcond.2
      · cases h

/-- A use that is asked for can only be refused because the region is missing or by the rule. -/
theorem refuses_access_iff (he : e.access? = some (access, id)) :
    c.Refuses e err ↔ (id ∉ c.ids ∧ err = .regionNotFound id) ∨
      ∃ r, c.Named id r ∧ refusal? c.settings.rule access id r = some err := by
  have hsought : e.sought? = some id := by
    cases e <;> cases he <;> rfl
  constructor
  · intro h
    cases h with
    | missing he' hid =>
      cases hsought.symm.trans he'
      exact .inl ⟨hid, rfl⟩
    | written he' hr hwriters =>
      cases he.symm.trans he'
      exact .inr ⟨_, hr, by simp only [refusal?, hwriters, if_true]⟩
    | beingRead he' hr hrule hwriters hreaders =>
      cases he.symm.trans he'
      exact .inr ⟨_, hr, by simp [refusal?, hrule, hwriters, hreaders]⟩
    | beingWritten he' hr hrule hwriters =>
      cases he.symm.trans he'
      exact .inr ⟨_, hr, by simp [refusal?, hrule, hwriters]⟩
    | taken => cases he
    | exceeded => cases he
    | unmapped => cases he
    | used => cases he
  · rintro (⟨hid, rfl⟩ | ⟨r, hr, hrefusal⟩)
    · exact .missing hsought hid
    · exact refusal?_eq_some he hr hrefusal

/-- A use is refused for one of the reasons of `Refuses`. -/
theorem acquire_eq_error (hc : c.Sound) (he : e.access? = some (access, id)) :
    (c.acquire access id).1 = .error err ↔ c.Refuses e err := by
  rw [refuses_access_iff he]
  unfold acquire
  cases hfind : c.find id with
  | error missing =>
    obtain ⟨hid, rfl⟩ := (find_eq_error hc).mp hfind
    constructor
    · intro h
      cases h
      exact .inl ⟨hid, rfl⟩
    · rintro (⟨-, rfl⟩ | ⟨r, hr, -⟩)
      · rfl
      · exact absurd hr.mem_ids hid
  | ok found =>
    obtain ⟨ref, r⟩ := found
    have hr : c.Named id r := .of_find hfind
    constructor
    · intro h
      dsimp only at h
      split at h
      · next hrefusal =>
        cases h
        exact .inr ⟨r, hr, hrefusal⟩
      · cases h
    · rintro (⟨hid, -⟩ | ⟨q, hq, hrefusal⟩)
      · exact absurd hr.mem_ids hid
      · cases hq.eq_of_find hfind
        dsimp only
        rw [hrefusal]

/-- A guard is given just if the use is declared. -/
theorem fst_guard (c : Coordinator) (access : Access) (id : String) :
    (c.guard access id).1 = (c.acquire access id).1.map fun ref => ⟨ref, access⟩ := by
  unfold guard
  rcases c.acquire access id with ⟨err | ref, d⟩
  · rfl
  · rfl

theorem guard_eq_error : (c.guard access id).1 = .error err ↔
    (c.acquire access id).1 = .error err := by
  rw [fst_guard]
  cases (c.acquire access id).1 with
  | error e => simp [Except.map]
  | ok ref => simp [Except.map]

/-! ### What is not refused -/

/-- A region that is made is a new one and adds its size to the usage. -/
theorem allocate_of_not_refused (hc : c.Balanced) (hcount : Countable c.settings c.space)
    (h : ∀ err, ¬ c.Refuses (.allocate id size element) err) :
    ∃ ref c', c.allocate id size element = (.ok ref, c') ∧ c.region? ref = none ∧
      c'.region? ref = some (.new id size element) ∧ (∀ way, c'.uses ref way = 0) ∧
      c'.get id = .ok ref ∧ c'.usage.toNat = c.usage.toNat + size.toNat := by
  rcases c.allocate_cases id size element with ⟨err, herr⟩ | ⟨-, hok⟩
  · exact absurd ((allocate_eq_error hc).mp (congrArg Prod.fst herr)) (h err)
  · refine ⟨c.made.size, _, hok, c.region?_size, ?_, fun way => ?_, ?_,
      (fits_of_allocate hok).toNat_add hcount⟩
    · rw [region?_withRegion, if_pos rfl]
    · rw [uses_withRegion, uses, c.region?_size]
      rfl
    · rw [get, withRegion, Dict.get?_insert, if_pos rfl]

/-- A region that is freed loses its name and takes its size off the usage. -/
theorem free_of_not_refused (hc : c.Balanced) (h : ∀ err, ¬ c.Refuses (.free id) err) :
    ∃ r c', c.Named id r ∧ c.free id = (.ok (), c') ∧ id ∉ c'.ids ∧
      c'.usage.toNat + r.size.toNat = c.usage.toNat := by
  rcases c.free_cases id with ⟨err, herr⟩ | ⟨ref, r, hid, hr, -, hok⟩
  · exact absurd ((free_eq_error hc.sound).mp (congrArg Prod.fst herr)) (h err)
  · refine ⟨r, _, ⟨ref, hid, hr⟩, hok, ?_, hc.toNat_sub hid hr⟩
    rw [not_mem_ids, withoutName, Dict.get?_erase, if_pos rfl]

/-- A use that is granted is counted, with a guard or without. -/
theorem acquire_of_not_refused (hc : c.Sound) (h : ∀ err, ¬ c.Refuses (.acquire access id) err) :
    ∃ ref c', c.get id = .ok ref ∧ c.acquire access id = (.ok ref, c') ∧
      c.guard access id = (.ok ⟨ref, access⟩, c') ∧
      c'.uses ref access = c.uses ref access + 1 := by
  rcases c.acquire_cases access id with ⟨err, herr⟩ | ⟨ref, r, hid, hr, -, hok⟩
  · exact absurd ((acquire_eq_error hc rfl).mp (congrArg Prod.fst herr)) (h err)
  · refine ⟨ref, _, by rw [get, hid], hok, by rw [guard, hok], ?_⟩
    rw [uses_changeRegion_declared hr, if_pos rfl]

/-- A use that is withdrawn by name is taken off, if there is one. -/
theorem release_of_not_refused (h : ∀ err, ¬ c.Refuses (.release access id) err) :
    ∃ ref c', c.get id = .ok ref ∧ c.release access id = (.ok (), c') ∧
      (c'.uses ref access).toNat = (c.uses ref access).toNat - 1 := by
  cases hget : c.get id with
  | error err =>
    refine absurd (release_eq_error.mp ?_) (h err)
    rw [release, hget]
  | ok ref =>
    refine ⟨ref, c.withdraw access ref, rfl, by rw [release, hget], ?_⟩
    rw [uses_withdraw, if_pos rfl, toNat_lowered]

end Coordinator

namespace MemoryUsers

variable {u : MemoryUsers} {e : MemoryEvent} {err : HostError}
variable {xs : List (AddressSpace × MemoryEvent)} {settings : MemorySettings}
variable {space now : AddressSpace}

/-- The errors that are given are those for which there is a reason. -/
theorem error?_answer_iff (hu : u.coordinator.Balanced) :
    (u.answer e).error? = some err ↔ u.coordinator.Refuses e err := by
  have hregion : ∀ outcome : Outcome RegionRef,
      (MemoryAnswer.region outcome).error? = some err ↔ outcome = .error err := by
    rintro (e | ref) <;> simp [MemoryAnswer.error?]
  have hdone : ∀ outcome : Outcome Unit,
      (MemoryAnswer.done outcome).error? = some err ↔ outcome = .error err := by
    rintro (e | ref) <;> simp [MemoryAnswer.error?]
  have hguard : ∀ outcome : Outcome Guard,
      (MemoryAnswer.guard outcome).error? = some err ↔ outcome = .error err := by
    rintro (e | ref) <;> simp [MemoryAnswer.error?]
  cases e with
  | allocate id size element => exact (hregion _).trans (Coordinator.allocate_eq_error hu)
  | free id => exact (hdone _).trans (Coordinator.free_eq_error hu.sound)
  | acquire access id => exact (hregion _).trans (Coordinator.acquire_eq_error hu.sound rfl)
  | release access id => exact (hdone _).trans Coordinator.release_eq_error
  | guard access id =>
    exact (hguard _).trans
      (Coordinator.guard_eq_error.trans (Coordinator.acquire_eq_error hu.sound rfl))
  | drop n => exact ⟨nofun, nofun⟩
  | write n place octets => exact ⟨nofun, nofun⟩
  | put ref place octets => exact ⟨nofun, nofun⟩

/-- What is refused changes nothing. -/
theorem step_of_error? (h : (u.answer e).error? = some err) : u.step e = some u := by
  cases e with
  | allocate id size element =>
    rcases u.coordinator.allocate_cases id size element with ⟨e, heq⟩ | ⟨-, heq⟩
    · rw [step, heq]
    · rw [answer, heq] at h
      cases h
  | free id =>
    rcases u.coordinator.free_cases id with ⟨e, heq⟩ | ⟨ref, r, -, -, -, heq⟩
    · rw [step, heq]
    · rw [answer, heq] at h
      cases h
  | acquire access id =>
    rcases u.coordinator.acquire_cases access id with ⟨e, heq⟩ | ⟨ref, r, -, -, -, heq⟩
    · simp only [step, heq]
    · rw [answer, heq] at h
      cases h
  | release access id =>
    simp only [answer, step, Coordinator.release] at h ⊢
    cases hget : u.coordinator.get id with
    | error e => rfl
    | ok ref =>
      rw [hget] at h
      cases h
  | guard access id =>
    simp only [answer, step, Coordinator.guard] at h ⊢
    rcases u.coordinator.acquire_cases access id with ⟨e, heq⟩ | ⟨ref, r, -, -, -, heq⟩
    · simp only [heq]
    · simp only [heq] at h
      cases h
  | drop n => cases h
  | write n place octets => cases h
  | put ref place octets => cases h

/-- An attempt at what is refused changes nothing but how much can be mapped. -/
theorem attempt_of_error? (h : ((u.inSpace now).answer e).error? = some err) :
    u.attempt (now, e) = u.inSpace now := by
  rw [attempt, step_of_error? h, Option.getD_some]

/-- The settings are always those of the start. -/
theorem settings_inSpace (h : (start (.new settings space)).attempts xs = u) (now : AddressSpace) :
    (u.inSpace now).coordinator.settings = settings := by
  subst h
  exact settings_attempts _ xs

/-- In every state of a shared memory, and however much can be mapped now:  An operation is refused
with an error exactly for the reasons of `Refuses`, and then the table, the usage, all counters and
all octets stay as they are.  The usage is the sum of the sizes of the regions in the table, and
unless the limit is the largest word that sum and a size are compared with the limit as numbers.
What is not refused is done: a region that is made is a new one, which nobody uses, and adds its
size to the usage, and one that is freed takes its size away; the uses that are asked for and those
that are withdrawn are counted. -/
theorem refused_of_attempts (hxs : ∀ x ∈ xs, Coordinator.Countable settings x.1)
    (hnow : Coordinator.Countable settings now)
    (h : (start (.new settings space)).attempts xs = u) :
    let v := u.inSpace now
    let c := v.coordinator
    ((∀ e err, (v.answer e).error? = some err ↔ c.Refuses e err) ∧
      ∀ id err, c.get id = .error err ↔ id ∉ c.ids ∧ err = .regionNotFound id) ∧
    (∀ e err, c.Refuses e err → u.attempt (now, e) = v) ∧
    (c.usage.toNat = c.total ∧ (settings.limit.toNat < Word.largest → ∀ size,
      c.Exceeds size ↔ settings.limit.toNat < c.total + size.toNat)) ∧
    (∀ id size element, (∀ err, ¬ c.Refuses (.allocate id size element) err) → ∃ ref c',
      c.allocate id size element = (.ok ref, c') ∧ c.region? ref = none ∧
      c'.region? ref = some (.new id size element) ∧ (∀ way, c'.uses ref way = 0) ∧
      c'.get id = .ok ref ∧ c'.usage.toNat = c.usage.toNat + size.toNat) ∧
    (∀ id, (∀ err, ¬ c.Refuses (.free id) err) → ∃ r c', c.Named id r ∧
      c.free id = (.ok (), c') ∧ id ∉ c'.ids ∧ c'.usage.toNat + r.size.toNat = c.usage.toNat) ∧
    (∀ access id, (∀ err, ¬ c.Refuses (.acquire access id) err) → ∃ ref c', c.get id = .ok ref ∧
      c.acquire access id = (.ok ref, c') ∧ c.guard access id = (.ok ⟨ref, access⟩, c') ∧
      c'.uses ref access = c.uses ref access + 1) ∧
    ∀ access id, (∀ err, ¬ c.Refuses (.release access id) err) → ∃ ref c', c.get id = .ok ref ∧
      c.release access id = (.ok (), c') ∧
      (c'.uses ref access).toNat = (c.uses ref access).toNat - 1 := by
  intro v c
  have hsettings : c.settings = settings := settings_inSpace h now
  have hbalanced : c.Balanced := balanced_inSpace (h ▸ balanced_attempts hxs) now
  refine ⟨⟨fun e err => error?_answer_iff hbalanced, fun id err => Coordinator.get_eq_error⟩,
    fun e err he => attempt_of_error? ((error?_answer_iff hbalanced).mpr he),
    ⟨hbalanced.usage_eq, fun hlimit size => ?_⟩, fun id size element hok => ?_,
    fun id hok => Coordinator.free_of_not_refused hbalanced hok,
    fun access id hok => Coordinator.acquire_of_not_refused hbalanced.sound hok,
    fun access id hok => Coordinator.release_of_not_refused hok⟩
  · rw [← hsettings] at hlimit ⊢
    exact Coordinator.exceeds_iff hlimit
  · exact Coordinator.allocate_of_not_refused hbalanced (hsettings.symm ▸ hnow) hok

/-- A region is read when a writer comes and when it shall be freed.  Beside it there is room for
one more region, up to the limit and not beyond. -/
theorem refused_of_attempts_while_read :
    ∃ u, (start (.new { limit := 64, rule := .exclusive } .usual)).attempts
        [(.usual, .allocate "a" 40 .bytes), (.usual, .guard .read "a")] = u ∧
      ((u.inSpace .usual).answer (.guard .write "a")).error? = some (.regionBusy "a" 1 0) ∧
      u.attempt (.usual, .free "a") = u.inSpace .usual ∧
      ((u.inSpace .usual).answer (.allocate "b" 25 .bytes)).error? =
        some (.memoryLimitExceeded 25 40 64) ∧
      ∃ ref c', (u.inSpace .usual).coordinator.allocate "b" 24 .bytes = (.ok ref, c') ∧
        c'.usage.toNat = 40 + 24 := by
  let settings : MemorySettings := { limit := 64, rule := .exclusive }
  let xs : List (AddressSpace × MemoryEvent) :=
    [(.usual, .allocate "a" 40 .bytes), (.usual, .guard .read "a")]
  let u := (start (.new settings .usual)).attempts xs
  let c := (u.inSpace .usual).coordinator
  have hcount : ∀ space, Coordinator.Countable settings space := fun space hmax => by cases hmax
  obtain ⟨⟨herrors, -⟩, hkept, ⟨husage, -⟩, hmake, -⟩ :=
    refused_of_attempts (u := u) (fun x _ => hcount x.1) (hcount .usual) rfl
  have hnamed : c.Named "a" ⟨"a", 40, .bytes, [], 1, 0⟩ :=
    ⟨0, by decide +kernel, by decide +kernel⟩
  have htotal : c.total = 40 := by decide +kernel
  have hnew : "b" ∉ c.ids := by decide +kernel
  have hexceeds : ∀ size, c.Exceeds size ↔ 64 < min (40 + size.toNat) Word.largest := fun size => by
    rw [← htotal]
    exact Iff.rfl
  refine ⟨u, rfl, (herrors _ _).mpr (.beingRead rfl hnamed rfl rfl (by decide)),
    hkept _ _ (.used hnamed (by decide)), ?_, ?_⟩
  · have hforty : c.usage = 40 := by decide +kernel
    exact (herrors _ _).mpr (hforty ▸ .exceeded hnew ((hexceeds 25).mpr (by decide)))
  · obtain ⟨ref, c', hok, -, -, -, -, hsum⟩ := hmake "b" 24 .bytes fun err herr => by
      cases herr with
      | taken hid => exact hnew hid
      | exceeded _ hsize => exact absurd ((hexceeds 24).mp hsize) (by decide)
      | unmapped _ _ hfault =>
        have hnone : c.space.fault? c.total 24 = none := by decide +kernel
        cases hnone.symm.trans hfault
      | missing he => cases he
      | written he => cases he
      | beingRead he => cases he
      | beingWritten he => cases he
    exact ⟨ref, c', hok, hsum.trans (congrArg (· + 24) (husage.trans htotal))⟩

end MemoryUsers

end LanguageHost
