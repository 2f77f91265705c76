import LanguageHost.Proofs.Memory.Exchange

/-!
# What calls are about

A call on a shared memory is about a region: the one that the caller has, the one of the guard that
is used, or the one that the name stands for.  The deed to which it comes down is about the same
(`confined_deedOf`), so deeds of calls that are apart are apart.

What is done, and what is answered, depends on little more than that.  So a call that makes no
region comes down to the same, and is answered in the same way, before and after a call that is
about something else (`agree_after`).
-/

namespace LanguageHost

namespace MemoryEvent

/-- The name that an event is about. -/
def name? : MemoryEvent → Option String
  | .allocate id _ _ => some id
  | e => e.sought?

/-- The guard that is used. -/
def number? : MemoryEvent → Option Nat
  | .drop n => some n
  | .write n _ _ => some n
  | _ => none

end MemoryEvent

/-- What somebody may do with a shared memory: something happens, or a region is looked up. -/
inductive MemoryCall where
  | event (e : MemoryEvent)
  | get (id : String)

namespace MemoryCall

/-- The name that a call is about. -/
def name? : MemoryCall → Option String
  | event e => e.name?
  | get id => some id

/-- The guard that is used. -/
def number? : MemoryCall → Option Nat
  | event e => e.number?
  | get _ => none

/-- The call is to make a region. -/
def Allocates (a : MemoryCall) : Prop := ∃ id size element, a = event (.allocate id size element)

/-- The call is to free a region. -/
def Frees (a : MemoryCall) : Prop := ∃ id, a = event (.free id)

/-- The first call is to make a region, and the other one is neither to make nor to free one. -/
def Beside (a b : MemoryCall) : Prop := a.Allocates ∧ ¬ b.Allocates ∧ ¬ b.Frees

end MemoryCall

namespace Coordinator

variable {c c' : Coordinator} {access : Access} {id : String}

/-! ### What the operations look at -/

theorem find_congr (hname : c'.table.get? id = c.table.get? id)
    (hregion : ∀ ref, c.table.get? id = some ref → c'.region? ref = c.region? ref) :
    c'.find id = c.find id := by
  unfold find
  rw [hname]
  cases hid : c.table.get? id with
  | none => rfl
  | some ref => rw [Option.bind_some, Option.bind_some, hregion ref hid]

theorem free_congr (hfind : c'.find id = c.find id) : (c'.free id).1 = (c.free id).1 := by
  unfold free
  rw [hfind]
  split
  · rfl
  · split <;> rfl

theorem acquire_congr (hsettings : c'.settings = c.settings) (hfind : c'.find id = c.find id) :
    (c'.acquire access id).1 = (c.acquire access id).1 := by
  unfold acquire
  rw [hfind, hsettings]
  split
  · rfl
  · split <;> rfl

theorem isSome_put? (c : Coordinator) (ref : RegionRef) (place : Nat) (octets : List UInt8) :
    (c.put? ref place octets).isSome =
      ((c.region? ref).bind fun r => r.put? place octets).isSome := by
  unfold put?
  cases c.region? ref with
  | none => rfl
  | some r => cases hput : r.put? place octets <;> simp [hput]

end Coordinator

namespace MemoryUsers

variable {u w : MemoryUsers} {a b : MemoryCall} {e : MemoryEvent} {id : String}
variable {ref : RegionRef} {n : Nat} {g : Guard}

/-! ### Calls -/

/-- What is left by a call. -/
def after (u : MemoryUsers) : MemoryCall → MemoryUsers
  | .event e => (u.step e).getD u
  | .get _ => u

/-- What is given to whoever makes a call. -/
def reply (u : MemoryUsers) : MemoryCall → MemoryAnswer
  | .event e => u.answer e
  | .get id => .region (u.coordinator.get id)

/-- The region that a call is about: the one that it is given, the one of its guard, or the one that
has its name. -/
def concerned? (u : MemoryUsers) : MemoryCall → Option RegionRef
  | .event (.put ref _ _) => some ref
  | .event (.drop n) => (u.guard? n).map Guard.region
  | .event (.write n _ _) => (u.guard? n).map Guard.region
  | a => a.name?.bind u.coordinator.table.get?

/-- A call uses a guard that was given, or a region that was made. -/
def Known (u : MemoryUsers) : MemoryCall → Prop
  | .event (.put ref _ _) => ref < u.coordinator.made.size
  | .event (.drop n) => n < u.opened
  | .event (.write n _ _) => n < u.opened
  | _ => True

/-- Two calls are about different names and about different regions. -/
structure Apart (u : MemoryUsers) (a b : MemoryCall) : Prop where
  names : ∀ id, a.name? = some id → b.name? ≠ some id
  regions : ∀ ref, u.concerned? a = some ref → u.concerned? b ≠ some ref

theorem Apart.symm (h : u.Apart a b) : u.Apart b a :=
  ⟨fun id hb ha => h.names id ha hb, fun ref hb ha => h.regions ref ha hb⟩

/-- What a call comes down to. -/
def deedOf (u : MemoryUsers) : MemoryCall → Deed
  | .event e => u.deed e
  | .get _ => {}

theorem apply_deedOf (u : MemoryUsers) (a : MemoryCall) : (u.deedOf a).apply u = u.after a := by
  cases a with
  | event e => exact (u.apply_deed e).symm
  | get id => rfl

/-! ### What a call is about -/

section Optional

variable {α : Type} {x : Option α} {p : α → Prop}

theorem of_none (h : x = none) (y : α) (hy : x = some y) : p y := by
  cases h.symm.trans hy

theorem of_some {z : α} (h : x = some z) (hz : p z) (y : α) (hy : x = some y) : p y := by
  cases h.symm.trans hy
  exact hz

end Optional

theorem concerned?_of_name (h : a.name? = some id) :
    u.concerned? a = u.coordinator.table.get? id := by
  cases a with
  | get id' =>
    cases h
    rfl
  | event e => cases e <;> cases h <;> rfl

/-- What is mentioned by a call that is possible was made. -/
theorem concerned?_lt (hu : u.Grounded) (ha : u.Known a) (h : u.concerned? a = some ref) :
    ref < u.coordinator.made.size := by
  cases hname : a.name? with
  | some id => exact hu.table id ref (concerned?_of_name hname ▸ h)
  | none =>
    have hguard : ∀ n, (u.guard? n).map Guard.region = some ref →
        ref < u.coordinator.made.size := by
      intro n hn
      obtain ⟨g, hg, rfl⟩ := Option.map_eq_some_iff.mp hn
      exact hu.lt_of_guard? hg
    cases a with
    | get id => cases hname
    | event e =>
      cases e with
      | drop n => exact hguard n h
      | write n => exact hguard n h
      | put s =>
        cases h
        exact ha
      | _ => cases hname

theorem number?_lt (ha : u.Known a) (h : a.number? = some n) : n < u.opened := by
  cases a with
  | get id => cases h
  | event e => cases e <;> cases h <;> exact ha

/-- A call that uses a guard is about its region. -/
theorem concerned?_of_number (h : a.number? = some n) (hg : u.guard? n = some g) :
    u.concerned? a = some g.region := by
  have hregion : (u.guard? n).map Guard.region = some g.region := by rw [hg, Option.map_some]
  cases a with
  | get id => cases h
  | event e => cases e <;> cases h <;> exact hregion

/-- A deed is about what its call is about. -/
structure Confined (u : MemoryUsers) (a : MemoryCall) (d : Deed) : Prop where
  name : ∀ id, d.change.name? = some id → a.name? = some id ∧ (a.Allocates ∨ a.Frees)
  makes : ∀ r, d.change.new? = some r → a.Allocates
  touched : ∀ ref, d.change.touched? = some ref → u.concerned? a = some ref
  opens : ∀ g, d.opens = some g → u.concerned? a = some g.region
  drops : ∀ n, d.drops = some n → ∃ g, u.guard? n = some g ∧ u.concerned? a = some g.region
  declares : ∀ x, d.declares = some x → u.concerned? a = some x.1
  withdraws : ∀ x, d.withdraws = some x → u.concerned? a = some x.1

theorem confined_nothing (u : MemoryUsers) (a : MemoryCall) : u.Confined a {} :=
  ⟨of_none rfl, of_none rfl, of_none rfl, of_none rfl, of_none rfl, of_none rfl, of_none rfl⟩

theorem confined_deedOfPut {place : Nat} {octets : List UInt8} (h : u.concerned? a = some ref) :
    u.Confined a (u.deedOfPut ref place octets) := by
  unfold deedOfPut
  split
  · exact ⟨of_none rfl, of_none rfl, of_some rfl h, of_none rfl, of_none rfl, of_none rfl,
      of_none rfl⟩
  · exact u.confined_nothing a

theorem confined_deed (u : MemoryUsers) (e : MemoryEvent) : u.Confined (.event e) (u.deed e) := by
  cases e with
  | allocate id size element =>
    have hallocates : (MemoryCall.event (.allocate id size element)).Allocates :=
      ⟨id, size, element, rfl⟩
    simp only [deed]
    split
    · exact ⟨of_some rfl ⟨rfl, .inl hallocates⟩, of_some rfl hallocates, of_none rfl, of_none rfl,
        of_none rfl, of_none rfl, of_none rfl⟩
    · exact u.confined_nothing _
  | free id =>
    simp only [deed]
    split
    · split
      · exact u.confined_nothing _
      · exact ⟨of_some rfl ⟨rfl, .inr ⟨id, rfl⟩⟩, of_none rfl, of_none rfl, of_none rfl,
          of_none rfl, of_none rfl, of_none rfl⟩
    · exact u.confined_nothing _
  | acquire access id =>
    simp only [deed]
    rcases u.coordinator.acquire_cases access id with ⟨err, heq⟩ | ⟨ref, r, hid, -, -, heq⟩
    · rw [heq]
      exact u.confined_nothing _
    · rw [heq]
      exact ⟨of_none rfl, of_none rfl, of_some rfl hid, of_none rfl, of_none rfl, of_some rfl hid,
        of_none rfl⟩
  | release access id =>
    simp only [deed, Coordinator.get]
    cases hid : u.coordinator.table.get? id with
    | none => exact u.confined_nothing _
    | some ref =>
      exact ⟨of_none rfl, of_none rfl, of_some rfl hid, of_none rfl, of_none rfl, of_none rfl,
        of_some rfl hid⟩
  | guard access id =>
    simp only [deed]
    rcases u.coordinator.acquire_cases access id with ⟨err, heq⟩ | ⟨ref, r, hid, -, -, heq⟩
    · rw [heq]
      exact u.confined_nothing _
    · rw [heq]
      exact ⟨of_none rfl, of_none rfl, of_some rfl hid, of_some rfl hid, of_none rfl, of_none rfl,
        of_none rfl⟩
  | drop n =>
    simp only [deed]
    cases hg : u.guard? n with
    | none => exact u.confined_nothing _
    | some g =>
      have hconcerned : u.concerned? (.event (.drop n)) = some g.region :=
        concerned?_of_number rfl hg
      exact ⟨of_none rfl, of_none rfl, of_some rfl hconcerned, of_none rfl,
        of_some rfl ⟨g, hg, hconcerned⟩, of_none rfl, of_none rfl⟩
  | write n place octets =>
    simp only [deed]
    split
    · next ref hg => exact confined_deedOfPut (concerned?_of_number rfl hg)
    · exact u.confined_nothing _
  | put ref place octets => exact confined_deedOfPut rfl

theorem confined_deedOf (u : MemoryUsers) (a : MemoryCall) : u.Confined a (u.deedOf a) := by
  cases a with
  | event e => exact u.confined_deed e
  | get id => exact u.confined_nothing _

theorem old_deedOf (hu : u.Grounded) (ha : u.Known a) : (u.deedOf a).Old u := by
  have hconfined := u.confined_deedOf a
  refine ⟨fun ref h => concerned?_lt hu ha (hconfined.touched ref h),
    fun g h => concerned?_lt hu ha (hconfined.opens g h), fun n h => ?_,
    fun x h => concerned?_lt hu ha (hconfined.declares x h),
    fun x h => concerned?_lt hu ha (hconfined.withdraws x h)⟩
  obtain ⟨g, hg, -⟩ := hconfined.drops n h
  exact hu.numbers _ (mem_of_guard? hg)

theorem apart_deedOf (h : u.Apart a b) : (u.deedOf a).Apart (u.deedOf b) := by
  have ha := u.confined_deedOf a
  have hb := u.confined_deedOf b
  refine ⟨fun id hid hid' => h.names id (ha.name id hid).1 (hb.name id hid').1,
    fun ref href href' => h.regions ref (ha.touched ref href) (hb.touched ref href'),
    fun n hn hn' => ?_⟩
  obtain ⟨g, hg, hconcerned⟩ := ha.drops n hn
  obtain ⟨g', hg', hconcerned'⟩ := hb.drops n hn'
  cases hg.symm.trans hg'
  exact h.regions g.region hconcerned hconcerned'

/-! ### What a call sees -/

/-- What a call is about is the same for both. -/
structure Agree (u w : MemoryUsers) (b : MemoryCall) : Prop where
  settings : w.coordinator.settings = u.coordinator.settings
  name : ∀ id, b.name? = some id → w.coordinator.table.get? id = u.coordinator.table.get? id
  number : ∀ n, b.number? = some n → w.guard? n = u.guard? n
  region : ∀ ref, u.concerned? b = some ref → w.coordinator.region? ref = u.coordinator.region? ref

/-- What one call is about stays as it is with a call that is about something else. -/
theorem agree_after (hu : u.Grounded) (hb : u.Known b) (h : u.Apart a b) :
    Agree u (u.after a) b := by
  have ha := u.confined_deedOf a
  rw [← apply_deedOf]
  refine ⟨Change.settings_apply _ _, fun id hid => ?_, fun n hn => ?_, fun ref href => ?_⟩
  · have hother : (u.deedOf a).change.name? ≠ some id := fun hname =>
      h.names id (ha.name id hname).1 hid
    exact (Change.table_apply _ _ _).trans (if_neg hother)
  · have hold : ¬ (n = u.opened ∧ (u.deedOf a).opens.isSome) := fun hnew =>
      Nat.ne_of_lt (number?_lt hb hn) hnew.1
    have hother : (u.deedOf a).drops ≠ some n := by
      intro hdrops
      obtain ⟨g, hg, hconcerned⟩ := ha.drops n hdrops
      exact h.regions g.region hconcerned (concerned?_of_number hn hg)
    rw [Deed.guard?_apply, if_neg hold, if_neg hother]
  · exact Change.region?_apply_of_lt (concerned?_lt hu hb href) fun htouched =>
      h.regions ref (ha.touched ref htouched) href

namespace Agree

theorem find (h : Agree u w b) (hid : b.name? = some id) :
    w.coordinator.find id = u.coordinator.find id :=
  Coordinator.find_congr (h.name id hid) fun ref href =>
    h.region ref (concerned?_of_name hid ▸ href)

theorem get (h : Agree u w b) (hid : b.name? = some id) :
    w.coordinator.get id = u.coordinator.get id := by
  rw [Coordinator.get, Coordinator.get, h.name id hid]

theorem acquire (h : Agree u w b) (hid : b.name? = some id) (access : Access) :
    (w.coordinator.acquire access id).1 = (u.coordinator.acquire access id).1 :=
  Coordinator.acquire_congr h.settings (h.find hid)

/-- Whether something can be written is the same for both. -/
theorem bind_put? (h : Agree u w b) (href : u.concerned? b = some ref) (place : Nat)
    (octets : List UInt8) :
    ((w.coordinator.region? ref).bind fun r => r.put? place octets) =
      (u.coordinator.region? ref).bind fun r => r.put? place octets := by
  rw [h.region ref href]

/-- A call that makes no region comes down to the same for both. -/
theorem deedOf (h : Agree u w b) (hb : ¬ b.Allocates) : w.deedOf b = u.deedOf b := by
  cases b with
  | get id => rfl
  | event e =>
    cases e with
    | allocate => exact absurd ⟨_, _, _, rfl⟩ hb
    | free id => simp only [MemoryUsers.deedOf, deed, h.find rfl]
    | acquire access id => simp only [MemoryUsers.deedOf, deed, h.acquire rfl]
    | release access id => simp only [MemoryUsers.deedOf, deed, h.get rfl]
    | guard access id => simp only [MemoryUsers.deedOf, deed, h.acquire rfl]
    | drop n => simp only [MemoryUsers.deedOf, deed, h.number n rfl]
    | write n place octets =>
      simp only [MemoryUsers.deedOf, deed, h.number n rfl]
      split
      · next ref hg =>
        rw [deedOfPut, deedOfPut, h.bind_put? (concerned?_of_number rfl hg)]
      · rfl
    | put ref place octets =>
      simp only [MemoryUsers.deedOf, deed, deedOfPut, h.bind_put? rfl]

/-- A call that makes no region is answered in the same way for both. -/
theorem reply (h : Agree u w b) (hb : ¬ b.Allocates) : w.reply b = u.reply b := by
  cases b with
  | get id => exact congrArg MemoryAnswer.region (h.get rfl)
  | event e =>
    cases e with
    | allocate => exact absurd ⟨_, _, _, rfl⟩ hb
    | free id => exact congrArg MemoryAnswer.done (Coordinator.free_congr (h.find rfl))
    | acquire access id => exact congrArg MemoryAnswer.region (h.acquire rfl access)
    | release access id =>
      simp only [MemoryUsers.reply, answer, Coordinator.release, h.get rfl]
      cases u.coordinator.get id <;> rfl
    | guard access id =>
      simp only [MemoryUsers.reply, answer, Coordinator.fst_guard, h.acquire rfl]
    | drop n =>
      simp only [MemoryUsers.reply, answer, step, h.number n rfl, Option.isSome_map]
    | write n place octets =>
      simp only [MemoryUsers.reply, answer, step, h.number n rfl]
      split
      · next ref hg =>
        rw [Option.isSome_map, Option.isSome_map, Coordinator.isSome_put?, Coordinator.isSome_put?,
          h.bind_put? (concerned?_of_number rfl hg)]
      · rfl
    | put ref place octets =>
      simp only [MemoryUsers.reply, answer, step, Option.isSome_map, Coordinator.isSome_put?,
        h.bind_put? rfl]

end Agree

end MemoryUsers

end LanguageHost
