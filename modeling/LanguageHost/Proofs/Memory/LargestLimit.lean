import LanguageHost.Proofs.Memory.Refusals

/-!
# The largest limit

A size is checked against the limit after it was added to the usage, and that sum stops at the
largest word.  So the check is exact under every limit but one: nothing is ever more than the
largest word, and under that limit only the mapping keeps the sum of the sizes within the words.

Here nothing is assumed of what can be mapped.  The usage is then the sum of the sizes up to a carry
(`Coordinator.Carried`), and under smaller limits there is no carry.
-/

namespace LanguageHost

namespace Coordinator

variable {c c' : Coordinator} {e : MemoryEvent} {id : String} {size : UInt64}
variable {element : ElementType}

/-! ### The usage up to a carry -/

/-- The usage is the sum of the sizes in the table, as far as a word can say. -/
structure Carried (c : Coordinator) : Prop where
  sound : c.Sound
  usage_eq : c.usage.toNat = c.total % Word.count

theorem toNat_usage_withRegion (hc : c.Carried) :
    (c.withRegion id size element).usage.toNat = (c.total + size.toNat) % Word.count := by
  have hadd : (c.usage + size).toNat = (c.usage.toNat + size.toNat) % Word.count :=
    UInt64.toNat_add _ _
  rw [withRegion, hadd, hc.usage_eq, Nat.mod_add_mod]

/-- Every step keeps the usage right up to a carry, whatever can be mapped. -/
theorem carried_step (h : c.Carried) (hsound : c'.Sound) (hmoves : c.Moves e c') :
    c'.Carried := by
  refine ⟨hsound, ?_⟩
  cases hmoves with
  | made hid _ =>
    rw [total_withRegion h.sound hid]
    exact toNat_usage_withRegion h
  | @freed id ref r hid hr =>
    have htotal := total_withoutName hid hr
    have husage := h.usage_eq
    have hsize : r.size.toNat < Word.count := r.size.toNat_lt
    have hsub : (c.usage - r.size).toNat =
        (Word.count - r.size.toNat + c.usage.toNat) % Word.count := UInt64.toNat_sub _ _
    rw [withoutName, hsub]
    rw [withoutName] at htotal
    simp only [Word.count] at *
    omega
  | kept htable husage _ hshape =>
    rw [total_of_shape? htable hshape, husage]
    exact h.usage_eq

/-! ### The check of the budget -/

/-- The errors that say that the limit is exceeded. -/
theorem allocate_eq_memoryLimitExceeded {requested usage limit : UInt64} :
    (c.allocate id size element).1 = .error (.memoryLimitExceeded requested usage limit) ↔
      (id ∉ c.ids ∧ c.settings.limit < saturatingAdd c.usage size) ∧
        requested = size ∧ usage = c.usage ∧ limit = c.settings.limit := by
  unfold allocate
  split
  · next hid => simp [contains_iff.mp hid]
  · next hid =>
    have hnew : id ∉ c.ids := mt contains_iff.mpr hid
    split
    · next hlimit => simp [hnew, hlimit, eq_comm]
    · next hlimit => split <;> simp [hlimit]

/-- Where the limit allows a region, only the mapping can refuse it. -/
theorem exists_allocate_eq_error (hid : id ∉ c.ids)
    (hlimit : ¬ c.settings.limit < saturatingAdd c.usage size) :
    (∃ err, (c.allocate id size element).1 = .error err) ↔
      ∃ reason, c.space.fault? c.usage.toNat size = some reason := by
  rw [allocate, if_neg (mt contains_iff.mp hid), if_neg hlimit]
  cases c.space.fault? c.usage.toNat size with
  | none => simp
  | some reason => simp

/-- No sum is more than the largest word once it stops there. -/
theorem not_lt_saturatingAdd (h : c.settings.limit.toNat = Word.largest) :
    ¬ c.settings.limit < saturatingAdd c.usage size := by
  rw [UInt64.lt_iff_toNat_lt, toNat_saturatingAdd, h]
  omega

/-- The check compares the sum of the sizes, where that can be more than the limit at all. -/
theorem limit_lt_saturatingAdd_iff (hc : c.settings.limit.toNat < Word.largest → c.Balanced) :
    c.settings.limit < saturatingAdd c.usage size ↔
      c.settings.limit.toNat < Word.largest ∧ c.settings.limit.toNat < c.total + size.toNat := by
  by_cases hlt : c.settings.limit.toNat < Word.largest
  · rw [← exceeds_iff_lt (hc hlt), exceeds_iff hlt]
    exact (and_iff_right hlt).symm
  · have hword : c.settings.limit.toNat < Word.largest + 1 := c.settings.limit.toNat_lt
    have hmax : c.settings.limit.toNat = Word.largest := by omega
    exact iff_of_false (not_lt_saturatingAdd hmax) fun hboth => hlt hboth.1

end Coordinator

namespace MemoryUsers

variable {u : MemoryUsers} {id : String} {xs : List (AddressSpace × MemoryEvent)}
variable {settings : MemorySettings} {space : AddressSpace}

/-- Whatever is tried, and whatever can be mapped, the usage is right up to a carry. -/
theorem carried_attempts (xs : List (AddressSpace × MemoryEvent)) :
    ((start (.new settings space)).attempts xs).coordinator.Carried := by
  induction xs using List.reverseRecOn with
  | nil => exact ⟨Coordinator.sound_new _ _, rfl⟩
  | append_singleton xs x ih =>
    have hspace : (((start (.new settings space)).attempts xs).inSpace x.1).coordinator.Carried :=
      ⟨sound_inSpace ih.sound x.1, ih.usage_eq⟩
    rw [attempts_concat]
    rcases ((start (.new settings space)).attempts xs).attempt_cases x with hstep | hnothing
    · exact Coordinator.carried_step hspace (sound_step hspace.sound (occurs_of_step hstep))
        (moves_of_step hstep)
    · rw [hnothing]
      exact hspace

/-- Below the largest limit nothing has to be said of what can be mapped. -/
theorem countable_of_lt (h : settings.limit.toNat < Word.largest) (now : AddressSpace) :
    Coordinator.Countable settings now :=
  fun hmax => absurd hmax (Nat.ne_of_lt h)

/-- The budget in every state of a shared memory, whatever could and can be mapped:  A new region is
refused with the error of the limit exactly if its size and the sum of the sizes in the table are
more than the limit, and the limit is not the largest word.  Below the largest limit the usage is
that sum and stays within the limit, also after the next region.  Under the largest limit a region
is refused only if it cannot be mapped, and the usage is the sum without what a word cannot say. -/
theorem limitExceeded_iff_below_largest (h : (start (.new settings space)).attempts xs = u)
    (hid : id ∉ u.coordinator.ids) (now : AddressSpace) (size : UInt64) (element : ElementType) :
    let c := (u.inSpace now).coordinator
    ((∃ requested usage limit, (c.allocate id size element).1 =
        .error (.memoryLimitExceeded requested usage limit)) ↔
      settings.limit.toNat < Word.largest ∧ settings.limit.toNat < c.total + size.toNat) ∧
    (settings.limit.toNat < Word.largest → settings.limit.toNat < c.total + size.toNat →
      (c.allocate id size element).1 =
        .error (.memoryLimitExceeded size c.usage settings.limit)) ∧
    (settings.limit.toNat < Word.largest → c.usage.toNat = c.total ∧
      c.total ≤ settings.limit.toNat ∧ ∀ ref c', c.allocate id size element = (.ok ref, c') →
        c'.usage.toNat = c.total + size.toNat ∧ c.total + size.toNat ≤ settings.limit.toNat) ∧
    (settings.limit.toNat = Word.largest → c.usage.toNat = c.total % Word.count ∧
      ((∃ err, (c.allocate id size element).1 = .error err) ↔
        ∃ reason, now.fault? c.usage.toNat size = some reason) ∧
      ∀ ref c', c.allocate id size element = (.ok ref, c') →
        c'.usage.toNat = (c.total + size.toNat) % Word.count) := by
  intro c
  have hcarried : c.Carried := by
    have hall : u.coordinator.Carried := h ▸ carried_attempts xs
    exact ⟨sound_inSpace hall.sound now, hall.usage_eq⟩
  have hsettings : c.settings = settings := settings_inSpace h now
  have hsmall : settings.limit.toNat < Word.largest → c.Balanced := fun hlt =>
    balanced_inSpace (h ▸ balanced_attempts fun x _ => countable_of_lt hlt x.1) now
  have hcheck : c.settings.limit < Coordinator.saturatingAdd c.usage size ↔
      settings.limit.toNat < Word.largest ∧ settings.limit.toNat < c.total + size.toNat := by
    rw [Coordinator.limit_lt_saturatingAdd_iff (hsettings.symm ▸ hsmall), hsettings]
  refine ⟨⟨?_, ?_⟩, ?_, ?_, ?_⟩
  · rintro ⟨requested, usage, limit, hexceeded⟩
    exact hcheck.mp (Coordinator.allocate_eq_memoryLimitExceeded.mp hexceeded).1.2
  · intro hover
    exact ⟨size, c.usage, c.settings.limit, Coordinator.allocate_eq_memoryLimitExceeded.mpr
      ⟨⟨hid, hcheck.mpr hover⟩, rfl, rfl, rfl⟩⟩
  · intro hlt hover
    exact Coordinator.allocate_eq_memoryLimitExceeded.mpr
      ⟨⟨hid, hcheck.mpr ⟨hlt, hover⟩⟩, rfl, rfl, congrArg MemorySettings.limit hsettings.symm⟩
  · intro hlt
    have hbalanced := hsmall hlt
    have hcount : Coordinator.Countable c.settings c.space :=
      hsettings.symm ▸ countable_of_lt hlt now
    refine ⟨hbalanced.usage_eq, hsettings ▸ hbalanced.total_le, fun ref c' hok => ?_⟩
    have hfits := Coordinator.fits_of_allocate hok
    obtain ⟨-, -, rfl⟩ := Coordinator.made_of_allocate hok
    rw [← hbalanced.usage_eq, ← hsettings]
    exact ⟨hfits.toNat_add hcount, hfits.add_le hcount⟩
  · intro hmax
    have hnever := mt hcheck.mp fun hboth => absurd hmax (Nat.ne_of_lt hboth.1)
    refine ⟨hcarried.usage_eq, Coordinator.exists_allocate_eq_error hid hnever,
      fun ref c' hok => ?_⟩
    obtain ⟨-, -, rfl⟩ := Coordinator.made_of_allocate hok
    exact Coordinator.toNat_usage_withRegion hcarried

/-- Under the limit that is one less than the largest word, a size is refused with the error of the
limit although its sum with the usage is no word. -/
theorem limitExceeded_one_below_largest :
    ∃ u, (start (.new { limit := 0xFFFFFFFFFFFFFFFE, rule := .exclusive } .usual)).attempts
        [(.usual, .allocate "a" 10 .bytes)] = u ∧
      "b" ∉ u.coordinator.ids ∧ Word.count ≤ u.coordinator.total + 0xFFFFFFFFFFFFFFFF ∧
      ((u.inSpace .usual).coordinator.allocate "b" 0xFFFFFFFFFFFFFFFF .bytes).1 =
        .error (.memoryLimitExceeded 0xFFFFFFFFFFFFFFFF 10 0xFFFFFFFFFFFFFFFE) := by
  let settings : MemorySettings := { limit := 0xFFFFFFFFFFFFFFFE, rule := .exclusive }
  let u := (start (.new settings .usual)).attempts [(.usual, .allocate "a" 10 .bytes)]
  have hu : (start (.new settings .usual)).attempts [(.usual, .allocate "a" 10 .bytes)] = u := rfl
  have hid : "b" ∉ u.coordinator.ids := by decide +kernel
  obtain ⟨-, hexceeded, -, -⟩ :=
    limitExceeded_iff_below_largest hu hid .usual 0xFFFFFFFFFFFFFFFF .bytes
  have husage : (u.inSpace .usual).coordinator.usage = 10 := by decide +kernel
  rw [husage] at hexceeded
  exact ⟨u, rfl, hid, by decide +kernel, hexceeded (by decide) (by decide +kernel)⟩

/-- Under the largest limit a size that is too large beside what is in use is not refused by the
limit; here it cannot be mapped.  Where so much could be mapped, regions would be made until the
usage begins at zero again. -/
theorem not_limitExceeded_at_largest :
    let settings : MemorySettings := { limit := 0xFFFFFFFFFFFFFFFF, rule := .exclusive }
    let u := (start (.new settings .usual)).attempts [(.usual, .allocate "a" 1 .bytes)]
    let outcome := (u.coordinator.allocate "b" 0xFFFFFFFFFFFFFFFF .bytes).1
    let wide : AddressSpace := ⟨0x10000000000000000⟩
    let v := (start (.new settings wide)).attempts
      [(wide, .allocate "a" 0x7FFFFFFFFFFFFFFF .bytes),
        (wide, .allocate "b" 0x7FFFFFFFFFFFFFFF .bytes), (wide, .allocate "c" 2 .bytes)]
    ("b" ∉ u.coordinator.ids ∧
      settings.limit.toNat < u.coordinator.total + 0xFFFFFFFFFFFFFFFF ∧
      (∀ requested usage limit, outcome ≠ .error (.memoryLimitExceeded requested usage limit)) ∧
      outcome = .error (.io "failed to map region b: memory map length overflows isize")) ∧
    v.coordinator.ids = ["a", "b", "c"] ∧ v.coordinator.total = 0x10000000000000000 ∧
      v.coordinator.usage = 0 := by
  intro settings u outcome wide v
  have hio : outcome =
      .error (.io "failed to map region b: memory map length overflows isize") := by
    have hname : u.coordinator.table.contains "b" = false := by decide +kernel
    have hlimit : ¬ u.coordinator.settings.limit <
        Coordinator.saturatingAdd u.coordinator.usage 0xFFFFFFFFFFFFFFFF := by decide +kernel
    have hfault : u.coordinator.space.fault? u.coordinator.usage.toNat 0xFFFFFFFFFFFFFFFF =
        some AddressSpace.tooLong := by decide +kernel
    simp only [outcome, Coordinator.allocate, hname, hlimit, hfault, Bool.false_eq_true, if_false]
    rfl
  refine ⟨⟨by decide +kernel, by decide +kernel, fun requested usage limit h => ?_, hio⟩, ?_⟩
  · cases hio.symm.trans h
  · exact ⟨by decide +kernel, by decide +kernel, by decide +kernel⟩

end MemoryUsers

end LanguageHost
