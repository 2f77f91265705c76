import LanguageHost.Proofs.Memory.Calls

/-!
# Independent calls

Two calls concern different regions and different names.  Then neither sees what the other does, but
for the budget, which all regions share: each comes down to the same deed before and after the other
(`Undisturbed`), and deeds can be done in either order.

The budget comes between two calls only if one of them makes a region and the other makes or frees
one.  If they succeed when one that makes a region comes first, they do so in the other order: less
is used after a region was freed, and two sizes fit in either order (`Fits.exchange`).
-/

namespace LanguageHost

/-- The answer that is given where regions have other identities. -/
def MemoryAnswer.renamed (π : Equiv.Perm RegionRef) : MemoryAnswer → MemoryAnswer
  | .region (.ok ref) => .region (.ok (π ref))
  | .guard (.ok g) => .guard (.ok (g.renamed π))
  | answer => answer

/-- No error was given. -/
def MemoryAnswer.Succeeds (answer : MemoryAnswer) : Prop := answer.error? = none

namespace Coordinator

variable {c c' : Coordinator} {id : String} {size : UInt64} {element : ElementType}

/-! ### What fits -/

/-- A region is made if its name is free and its size fits. -/
theorem allocate_of_fits (hid : c.table.get? id = none) (h : c.Fits size) :
    c.allocate id size element = (.ok c.made.size, c.withRegion id size element) := by
  have hlimit : ¬ c.settings.limit < saturatingAdd c.usage size := UInt64.not_lt.mpr h.limit
  have hsigned : ¬ Word.half ≤ size.toNat := Nat.not_le_of_lt h.signed
  have hspace : ¬ c.space.size < c.usage.toNat + size.toNat := Nat.not_lt_of_le h.space
  simp only [allocate, Dict.contains, hid, Option.isSome_none, Bool.false_eq_true, hlimit,
    AddressSpace.fault?, hsigned, hspace, if_false]

/-- What fits beside so much fits beside less. -/
theorem Fits.of_add_le (h : c.Fits size) (c' : Coordinator) (hsettings : c'.settings = c.settings)
    (hspace : c'.space = c.space) {m : UInt64} (hm : m.toNat < Word.half)
    (hle : c'.usage.toNat + m.toNat ≤ c.usage.toNat + size.toNat) : c'.Fits m := by
  have hlimit := UInt64.le_iff_toNat_le.mp h.limit
  refine ⟨UInt64.le_iff_toNat_le.mpr ?_, hm, hspace ▸ Nat.le_trans hle h.space⟩
  rw [toNat_saturatingAdd] at hlimit ⊢
  rw [hsettings]
  omega

/-- If one size fits after another one, they fit in the other order. -/
theorem Fits.exchange {m : UInt64} {id' : String} {element' : ElementType}
    (hs : Countable c.settings c.space) (hm : c.Fits m)
    (h : (c.withRegion id m element).Fits size) :
    c.Fits size ∧ (c.withRegion id' size element').Fits m := by
  have husage : (c.withRegion id m element).usage.toNat = c.usage.toNat + m.toNat := hm.toNat_add hs
  have hfirst : c.Fits size := h.of_add_le c rfl rfl h.signed (by omega)
  have husage' : (c.withRegion id' size element').usage.toNat = c.usage.toNat + size.toNat :=
    hfirst.toNat_add hs
  exact ⟨hfirst, h.of_add_le (c.withRegion id' size element') rfl rfl hm.signed (by omega)⟩

/-- Whether a region is made is decided by its name and by the budget. -/
theorem allocate_congr {d : Change} (h : d.name? = none) :
    ((d.apply c).allocate id size element).1 = (c.allocate id size element).1 := by
  cases d with
  | nothing => rfl
  | make => cases h
  | unname => cases h
  | touch ref f =>
    simp only [allocate, Change.apply, changeRegion, Array.size_modify]
    split
    · rfl
    · split
      · rfl
      · split <;> rfl

end Coordinator

namespace MemoryUsers

variable {u : MemoryUsers} {a b : MemoryCall} {id : String} {size : UInt64}
variable {element : ElementType} {ref : RegionRef} {r : Region}
variable {xs : List (AddressSpace × MemoryEvent)} {settings : MemorySettings}
variable {space now : AddressSpace}

/-! ### The budget -/

/-- The second call comes down to the same after the first one, and is answered in the same way
unless it makes a region. -/
structure Undisturbed (u : MemoryUsers) (a b : MemoryCall) : Prop where
  deed : (u.after a).deedOf b = u.deedOf b
  reply : (u.deedOf b).change.new? = none → (u.after a).reply b = u.reply b

theorem Agree.undisturbed (h : Agree u (u.after a) b) (hb : ¬ b.Allocates) : u.Undisturbed a b :=
  ⟨h.deedOf hb, fun _ => h.reply hb⟩

theorem undisturbed_of_allocate (hb : b = .event (.allocate id size element))
    (h : ((u.after a).coordinator.allocate id size element).1 =
      (u.coordinator.allocate id size element).1) : u.Undisturbed a b := by
  subst hb
  refine ⟨?_, fun _ => congrArg MemoryAnswer.region h⟩
  simp only [deedOf, deed, h]

/-- A call that makes no region and frees none takes no part in the budget. -/
theorem undisturbed_of_beside (ha : ¬ a.Allocates) (ha' : ¬ a.Frees) (hb : b.Allocates) :
    u.Undisturbed a b := by
  obtain ⟨id, size, element, hb⟩ := hb
  have hname : (u.deedOf a).change.name? = none := by
    rw [Option.eq_none_iff_forall_ne_some]
    intro id hid
    rcases ((u.confined_deedOf a).name id hid).2 with halloc | hfree
    · exact ha halloc
    · exact ha' hfree
  refine undisturbed_of_allocate hb ?_
  rw [← apply_deedOf]
  exact Coordinator.allocate_congr hname

theorem reply_of_new (h : (u.deedOf a).change.new?.isSome) :
    u.reply a = .region (.ok u.coordinator.made.size) := by
  obtain ⟨r, hr⟩ := Option.isSome_iff_exists.mp h
  obtain ⟨id, size, element, rfl⟩ := (u.confined_deedOf a).makes r hr
  rcases u.coordinator.allocate_cases id size element with ⟨err, heq⟩ | ⟨-, heq⟩
  · simp only [deedOf, deed, heq] at h
    cases h
  · simp only [reply, answer, heq]

/-- A region is given just if its name is free and its size fits. -/
theorem succeeds_iff : (u.reply (.event (.allocate id size element))).Succeeds ↔
    u.coordinator.table.get? id = none ∧ u.coordinator.Fits size := by
  simp only [MemoryAnswer.Succeeds, reply, answer]
  constructor
  · intro h
    rcases hok : u.coordinator.allocate id size element with ⟨err | ref, c⟩
    · rw [hok] at h
      cases h
    · exact ⟨(Coordinator.made_of_allocate hok).1, Coordinator.fits_of_allocate hok⟩
  · rintro ⟨hid, hfits⟩
    rw [Coordinator.allocate_of_fits hid hfits]
    rfl

theorem after_of_fits (hid : u.coordinator.table.get? id = none)
    (hfits : u.coordinator.Fits size) :
    (u.after (.event (.allocate id size element))).coordinator =
      u.coordinator.withRegion id size element := by
  simp only [after, step, Coordinator.allocate_of_fits hid hfits, Option.getD_some]

/-- Both calls find that the region can be made. -/
theorem undisturbed_of_fits (hb : b = .event (.allocate id size element))
    (hid : u.coordinator.table.get? id = none) (hfits : u.coordinator.Fits size)
    (hid' : (u.after a).coordinator.table.get? id = none)
    (hfits' : (u.after a).coordinator.Fits size) : u.Undisturbed a b := by
  subst hb
  have hdeed : u.deedOf (.event (.allocate id size element)) =
      { change := .make id size element } := by
    simp only [deedOf, deed, Coordinator.allocate_of_fits hid hfits]
  refine ⟨?_, fun hnew => ?_⟩
  · rw [hdeed]
    simp only [deedOf, deed, Coordinator.allocate_of_fits hid' hfits']
  · rw [hdeed] at hnew
    cases hnew

/-- Only a call that makes a region uses more. -/
theorem usage_after_le (hu : u.coordinator.Balanced) (ha : ¬ a.Allocates) :
    (u.after a).coordinator.usage.toNat ≤ u.coordinator.usage.toNat := by
  cases a with
  | get id => exact Nat.le_refl _
  | event e =>
    simp only [after]
    cases hstep : u.step e with
    | none => exact Nat.le_refl _
    | some u' =>
      have hmoves := moves_of_step hstep
      rw [Option.getD_some]
      generalize u'.coordinator = c at hmoves
      cases hmoves with
      | made => exact absurd ⟨_, _, _, rfl⟩ ha
      | freed hid hr => exact Nat.le.intro (hu.toNat_sub hid hr)
      | kept _ husage => exact Nat.le_of_eq (congrArg UInt64.toNat husage)

theorem space_after (u : MemoryUsers) (a : MemoryCall) :
    (u.after a).coordinator.space = u.coordinator.space := by
  rw [← apply_deedOf]
  exact Change.space_apply _ _

/-- The calls that make a region succeed, and the first one comes first. -/
def Granted (u : MemoryUsers) (a b : MemoryCall) : Prop :=
  a.Allocates ∧ (u.reply a).Succeeds ∧ (b.Allocates → ((u.after a).reply b).Succeeds)

/-- Calls that succeed when one that makes a region comes first do so in the other order. -/
theorem undisturbed_of_granted (hu : u.coordinator.Balanced)
    (hcount : Coordinator.Countable u.coordinator.settings u.coordinator.space)
    (hab : Agree u (u.after a) b) (hba : Agree u (u.after b) a) (h : u.Granted a b) :
    u.Undisturbed a b ∧ u.Undisturbed b a := by
  obtain ⟨⟨id, size, element, rfl⟩, hok, hboth⟩ := h
  obtain ⟨hid, hfits⟩ := succeeds_iff.mp hok
  have hid' : (u.after b).coordinator.table.get? id = none := (hba.name id rfl).trans hid
  by_cases hb : b.Allocates
  · have hok' := hboth hb
    obtain ⟨id', size', element', rfl⟩ := hb
    obtain ⟨hfree, hfits'⟩ := succeeds_iff.mp hok'
    rw [after_of_fits hid hfits] at hfits'
    obtain ⟨hfirst, hsecond⟩ := Coordinator.Fits.exchange hcount hfits hfits'
    have hfree' : u.coordinator.table.get? id' = none := (hab.name id' rfl).symm.trans hfree
    refine ⟨undisturbed_of_fits rfl hfree' hfirst hfree ?_,
      undisturbed_of_fits rfl hid hfits hid' ?_⟩
    · rw [after_of_fits hid hfits]
      exact hfits'
    · rw [after_of_fits hfree' hfirst]
      exact hsecond
  · -- The other call can only have freed something.
    have hle := usage_after_le hu hb
    exact ⟨hab.undisturbed hb, undisturbed_of_fits rfl hid hfits hid'
      (hfits.of_add_le _ hba.settings (u.space_after b) hfits.signed (by omega))⟩

/-- The budget does not come between two calls: neither of them makes a region, or one does and the
other neither makes nor frees one, or they succeed with one that makes a region first. -/
def Affordable (u : MemoryUsers) (a b : MemoryCall) : Prop :=
  (¬ a.Allocates ∧ ¬ b.Allocates) ∨ (a.Beside b ∨ b.Beside a) ∨ (u.Granted a b ∨ u.Granted b a)

theorem undisturbed_of_affordable (hu : u.coordinator.Balanced)
    (hcount : Coordinator.Countable u.coordinator.settings u.coordinator.space)
    (hab : Agree u (u.after a) b) (hba : Agree u (u.after b) a) (h : u.Affordable a b) :
    u.Undisturbed a b ∧ u.Undisturbed b a := by
  rcases h with ⟨ha, hb⟩ | (⟨ha, hb, hfrees⟩ | ⟨hb, ha, hfrees⟩) | (hgranted | hgranted)
  · exact ⟨hab.undisturbed hb, hba.undisturbed ha⟩
  · exact ⟨hab.undisturbed hb, undisturbed_of_beside hb hfrees ha⟩
  · exact ⟨undisturbed_of_beside ha hfrees hb, hba.undisturbed ha⟩
  · exact undisturbed_of_granted hu hcount hab hba hgranted
  · exact (undisturbed_of_granted hu hcount hba hab hgranted).symm

/-! ### In either order -/

/-- What is given is there already unless it is new. -/
theorem renamed_reply {π : Equiv.Perm RegionRef} (hu : u.Grounded)
    (hπ : ∀ ref, ref < u.coordinator.made.size → π ref = ref)
    (h : (u.deedOf a).change.new? = none) : (u.reply a).renamed π = u.reply a := by
  have hname : ∀ id ref, u.coordinator.table.get? id = some ref → π ref = ref := fun id ref hid =>
    hπ ref (hu.table id ref hid)
  cases a with
  | get id =>
    simp only [reply, Coordinator.get]
    cases hid : u.coordinator.table.get? id with
    | none => rfl
    | some ref => simp only [MemoryAnswer.renamed, hname id ref hid]
  | event e =>
    cases e with
    | allocate id size element =>
      simp only [deedOf, deed] at h
      simp only [reply, answer]
      cases hok : (u.coordinator.allocate id size element).1 with
      | error err => rfl
      | ok ref =>
        rw [hok] at h
        cases h
    | acquire access id =>
      simp only [reply, answer]
      rcases u.coordinator.acquire_cases access id with ⟨err, heq⟩ | ⟨ref, r, hid, -, -, heq⟩
      · rw [heq]
        rfl
      · simp only [heq, MemoryAnswer.renamed, hname id ref hid]
    | guard access id =>
      simp only [reply, answer, Coordinator.guard]
      rcases u.coordinator.acquire_cases access id with ⟨err, heq⟩ | ⟨ref, r, hid, -, -, heq⟩
      · rw [heq]
        rfl
      · simp only [heq, MemoryAnswer.renamed, Guard.renamed, hname id ref hid]
    | _ => rfl

/-- Calls that do not disturb each other can be made in either order. -/
theorem exchange_of_undisturbed (hu : u.Grounded) (ha : u.Known a) (hb : u.Known b)
    (h : u.Apart a b) (hab : u.Undisturbed a b) (hba : u.Undisturbed b a) :
    let π := exchange (u.deedOf a).change.new? (u.deedOf b).change.new? u.coordinator.made.size
    let σ := exchange (u.deedOf a).opens (u.deedOf b).opens u.opened
    ((u.after b).reply a = (u.reply a).renamed π ∧ u.reply b = ((u.after a).reply b).renamed π) ∧
      Renamed π σ ((u.after a).after b) ((u.after b).after a) := by
  intro π σ
  have hπ : ∀ ref, ref < u.coordinator.made.size → π ref = ref := fun ref => exchange_of_lt
  have hsize : ∀ c : MemoryCall, (u.after c).coordinator.made.size =
      u.coordinator.made.size + (u.deedOf c).change.new?.toList.length := by
    intro c
    rw [← apply_deedOf]
    exact Change.size_apply _ _
  refine ⟨⟨?_, ?_⟩, ?_⟩
  · -- Whoever makes a region gets the next place, which depends on the order.
    cases hnew : (u.deedOf a).change.new? with
    | none => rw [hba.reply hnew, renamed_reply hu hπ hnew]
    | some r =>
      have hsome : (u.deedOf a).change.new?.isSome := by rw [hnew]; rfl
      rw [reply_of_new hsome, reply_of_new (hba.deed.symm ▸ hsome), hsize]
      exact congrArg (fun ref => MemoryAnswer.region (.ok ref)) (exchange_first hsome).symm
  · cases hnew : (u.deedOf b).change.new? with
    | none => rw [hab.reply hnew, renamed_reply hu hπ hnew]
    | some r =>
      have hsome : (u.deedOf b).change.new?.isSome := by rw [hnew]; rfl
      rw [reply_of_new hsome, reply_of_new (hab.deed.symm ▸ hsome), hsize]
      exact congrArg (fun ref => MemoryAnswer.region (.ok ref)) (exchange_second hsome).symm
  · have hdeeds := renamed_of_deeds hu (old_deedOf hu ha) (old_deedOf hu hb) (apart_deedOf h)
    rw [← (u.after a).apply_deedOf b, ← (u.after b).apply_deedOf a, hab.deed, hba.deed,
      ← apply_deedOf, ← apply_deedOf]
    exact hdeeds

/-- A call leaves every region alone that it is not about, with the names that stand for it. -/
theorem kept_after (hr : u.coordinator.region? ref = some r) (h : u.concerned? a ≠ some ref) :
    (u.after a).coordinator.region? ref = some r ∧ ∀ id,
      (u.after a).coordinator.table.get? id = some ref ↔
        u.coordinator.table.get? id = some ref := by
  have ha := u.confined_deedOf a
  have hlt := Coordinator.region?_eq_some_iff.mp ⟨r, hr⟩
  rw [← apply_deedOf]
  refine ⟨?_, fun id => ?_⟩
  · exact (Change.region?_apply_of_lt hlt fun htouched => h (ha.touched ref htouched)).trans hr
  · simp only [Deed.apply, Change.table_apply]
    split
    · next hname =>
      have hgone : u.coordinator.table.get? id ≠ some ref :=
        concerned?_of_name (ha.name id hname).1 ▸ h
      -- A name that begins to stand for a region does so for a new one.
      have hnew : (u.deedOf a).change.entry? u.coordinator.made.size ≠ some ref := by
        intro hentry
        cases hchange : (u.deedOf a).change with
        | make id size element =>
          rw [hchange] at hentry
          cases hentry
          exact Nat.lt_irrefl _ hlt
        | _ =>
          rw [hchange] at hentry
          cases hentry
      exact iff_of_false hnew hgone
    · exact Iff.rfl

/-- In every state of a shared memory, however much can be mapped now:  Two calls that are about
different names and different regions, and use only guards and regions that were given, can be made
in either order, if the budget does not come between them.  Each is answered in the same way, and
what is left is the same, up to the identity of what is new: two new regions, and two new guards,
have each other's.  And a call leaves every region as it is that it is not about, with its counters,
its octets and the names that stand for it.  A guard is about the region for which it was given,
whatever its name stands for now. -/
theorem independent_of_attempts (hxs : ∀ x ∈ xs, Coordinator.Countable settings x.1)
    (hnow : Coordinator.Countable settings now)
    (h : (start (.new settings space)).attempts xs = u) :
    let v := u.inSpace now
    (∀ a b, v.Known a → v.Known b → v.Apart a b → v.Affordable a b → ∃ π σ,
      ((∀ ref, ref < v.coordinator.made.size → π ref = ref) ∧ ∀ n, n < v.opened → σ n = n) ∧
      ((v.after b).reply a = (v.reply a).renamed π ∧ v.reply b = ((v.after a).reply b).renamed π) ∧
      Renamed π σ ((v.after a).after b) ((v.after b).after a)) ∧
    ∀ a ref r, v.coordinator.region? ref = some r → v.concerned? a ≠ some ref →
      (v.after a).coordinator.region? ref = some r ∧ ∀ id,
        (v.after a).coordinator.table.get? id = some ref ↔
          v.coordinator.table.get? id = some ref := by
  intro v
  have hgrounded : v.Grounded := grounded_inSpace (h ▸ grounded_attempts xs) now
  have hbalanced : v.coordinator.Balanced := balanced_inSpace (h ▸ balanced_attempts hxs) now
  have hsettings : v.coordinator.settings = settings := settings_inSpace h now
  refine ⟨fun a b ha hb hapart hbudget => ?_, fun a ref r => kept_after⟩
  obtain ⟨hab, hba⟩ := undisturbed_of_affordable hbalanced (hsettings.symm ▸ hnow)
    (agree_after hgrounded hb hapart) (agree_after hgrounded ha hapart.symm) hbudget
  exact ⟨_, _, ⟨fun _ => exchange_of_lt, fun _ => exchange_of_lt⟩,
    exchange_of_undisturbed hgrounded ha hb hapart hab hba⟩

/-- A guard is dropped whose name belongs to a newer region, which keeps its writer.  And of two
regions that are made beside it, each has the identity of the other one in the other order. -/
theorem independent_of_attempts_after_reuse :
    ∃ v r π σ, ((start (.new { limit := 64, rule := .exclusive } .usual)).attempts
        [(.usual, .allocate "a" 4 .bytes), (.usual, .guard .write "a"),
          (.usual, .release .write "a"), (.usual, .free "a"), (.usual, .allocate "a" 4 .bytes),
          (.usual, .acquire .write "a")]).inSpace .usual = v ∧
      v.coordinator.get "a" = .ok 1 ∧ v.coordinator.region? 1 = some r ∧ r.writers = 1 ∧
      v.guard? 0 = some ⟨0, .write⟩ ∧
      (v.after (.event (.drop 0))).coordinator.region? 1 = some r ∧
      π 2 = 3 ∧ Renamed π σ
        ((v.after (.event (.allocate "b" 40 .bytes))).after (.event (.allocate "c" 20 .bytes)))
        ((v.after (.event (.allocate "c" 20 .bytes))).after
          (.event (.allocate "b" 40 .bytes))) := by
  let settings : MemorySettings := { limit := 64, rule := .exclusive }
  let xs : List (AddressSpace × MemoryEvent) :=
    [(.usual, .allocate "a" 4 .bytes), (.usual, .guard .write "a"),
      (.usual, .release .write "a"), (.usual, .free "a"), (.usual, .allocate "a" 4 .bytes),
      (.usual, .acquire .write "a")]
  let u := (start (.new settings .usual)).attempts xs
  let v := u.inSpace .usual
  let a : MemoryCall := .event (.allocate "b" 40 .bytes)
  let b : MemoryCall := .event (.allocate "c" 20 .bytes)
  have hcount : ∀ space, Coordinator.Countable settings space := fun space hmax => by cases hmax
  obtain ⟨hexchange, hkept⟩ :=
    independent_of_attempts (u := u) (fun x _ => hcount x.1) (hcount .usual) rfl
  have hnone : v.concerned? a = none := by decide +kernel
  have hapart : v.Apart a b := by
    refine ⟨?_, fun ref href => ?_⟩
    · rintro id ⟨⟩
      decide
    · cases hnone.symm.trans href
  have hgranted : v.Granted a b := by
    refine ⟨⟨_, _, _, rfl⟩, ?_, fun _ => ?_⟩
    · show (v.reply a).error? = none
      decide +kernel
    · show ((v.after a).reply b).error? = none
      decide +kernel
  obtain ⟨π, σ, -, ⟨hreply, -⟩, hrenamed⟩ :=
    hexchange a b trivial trivial hapart (.inr (.inr (.inl hgranted)))
  have htwo : v.coordinator.made.size = 2 := by decide +kernel
  have hthree : (v.after b).coordinator.made.size = 3 := by decide +kernel
  rw [reply_of_new (by decide +kernel), reply_of_new (by decide +kernel), htwo, hthree] at hreply
  simp only [MemoryAnswer.renamed, MemoryAnswer.region.injEq, Except.ok.injEq] at hreply
  let r := (v.coordinator.region? 1).get (by decide +kernel)
  have hr : v.coordinator.region? 1 = some r := (Option.some_get _).symm
  have hother : v.concerned? (.event (.drop 0)) ≠ some 1 := by decide +kernel
  have hname : v.coordinator.table.get? "a" = some 1 := by decide +kernel
  exact ⟨v, r, π, σ, rfl, by rw [Coordinator.get, hname], hr, by decide +kernel, by decide +kernel,
    (hkept (.event (.drop 0)) 1 r hr hother).1, hreply.symm, hrenamed⟩

end MemoryUsers

end LanguageHost
