import LanguageHost.Proofs.Memory.Budget

/-!
# The counters of regions

The readers and the writers of a region are counted in words, which begin again at zero after the
largest one and at the largest one below zero.  Nothing is asked here of those who use the memory:
a use may be withdrawn that nobody declared, a region may lose its name while a guard for it is
alive, and the guard may be dropped when the name belongs to another region.

A counter that is zero is not lowered (`Coordinator.lowered`), and a counter is at most as large as
the number of things that were tried (`uses_attempts_le`).  So no counter passes zero, and as long
as fewer things are tried than there are words, none passes the largest word (`counts_attempt`).
What is left of the rule of access however the counters stand is `Coordinator.Sound`.
-/

namespace LanguageHost

namespace MemoryUsers

variable {u : MemoryUsers} {settings : MemorySettings} {space : AddressSpace}

/-- An attempt moves a counter that is not full by one at most, and does not lower it below
zero. -/
theorem counts_attempt (x : AddressSpace × MemoryEvent) (ref : RegionRef) (way : Access)
    (hroom : (u.coordinator.uses ref way).toNat < Word.largest) :
    Word.Counts (u.coordinator.uses ref way) ((u.attempt x).coordinator.uses ref way) := by
  rcases u.attempt_cases x with hstep | hnothing
  · exact counts_step (occurs_of_step hstep) ref way hroom
  · rw [hnothing]
    exact .kept

/-- As long as fewer things were tried than there are words, there are at most as many uses of a
region as there were attempts. -/
theorem uses_attempts_le (xs : List (AddressSpace × MemoryEvent)) (hxs : xs.length < Word.count)
    (ref : RegionRef) (way : Access) :
    (((start (.new settings space)).attempts xs).coordinator.uses ref way).toNat ≤ xs.length := by
  induction xs using List.reverseRecOn with
  | nil => exact Nat.le_refl 0
  | append_singleton xs x ih =>
    rw [List.length_append, List.length_singleton] at hxs ⊢
    have hle := ih (Nat.lt_of_succ_lt hxs)
    have hroom := Nat.lt_of_le_of_lt hle (Nat.lt_of_succ_lt_succ hxs)
    rw [attempts_concat]
    exact Nat.le_trans (counts_attempt x ref way hroom).toNat_le (Nat.succ_le_succ hle)

/-- Whatever is tried, the regions are right. -/
theorem sound_attempts (xs : List (AddressSpace × MemoryEvent)) :
    ((start (.new settings space)).attempts xs).coordinator.Sound := by
  induction xs using List.reverseRecOn with
  | nil => exact Coordinator.sound_new settings space
  | append_singleton xs x ih =>
    have hsound := sound_inSpace ih x.1
    rw [attempts_concat]
    rcases ((start (.new settings space)).attempts xs).attempt_cases x with hstep | hnothing
    · exact sound_step hsound (occurs_of_step hstep)
    · rw [hnothing]
      exact hsound

/-- Whatever is tried with a shared memory, in whichever order and by whomever, as long as fewer
things are tried than there are words:  Every region that was ever made has one writer at most, and
under the exclusive rule never readers beside a writer.  Each attempt on the way left the counters
of a region as they were, or moved one by one without passing zero or the largest word, so that
none is larger than the number of attempts. -/
theorem counters_of_attempts {xs : List (AddressSpace × MemoryEvent)}
    (hxs : xs.length < Word.count) (h : (start (.new settings space)).attempts xs = u) :
    (∀ ref r, u.coordinator.region? ref = some r →
      r.writers ≤ 1 ∧ (settings.rule = .exclusive → ¬ (0 < r.readers ∧ 0 < r.writers))) ∧
    (∀ before x after, xs = before ++ x :: after → ∀ ref way,
      Word.Counts (((start (.new settings space)).attempts before).coordinator.uses ref way)
        (((start (.new settings space)).attempts (before ++ [x])).coordinator.uses ref way)) ∧
    ∀ ref r way, u.coordinator.region? ref = some r →
      (r.uses way).toNat ≤ xs.length ∧ u.coordinator.uses ref way = r.uses way := by
  refine ⟨fun ref r hr => ?_, ?_, fun ref r way hr => ?_⟩
  · have hsound : u.coordinator.Sound := h ▸ sound_attempts xs
    have hsettings : u.coordinator.settings = settings := h ▸ settings_attempts _ xs
    have hwriters := hsound.writers_le ref
    rw [Coordinator.uses_of_region? hr] at hwriters
    refine ⟨hwriters, fun hrule hboth => ?_⟩
    have hnone := hsound.exclusive (hsettings ▸ hrule) ref
    rw [Coordinator.uses_of_region? hr, Coordinator.uses_of_region? hr] at hnone
    exact UInt64.ne_of_lt hboth.1 (hnone hboth.2).symm
  · rintro before x after rfl ref way
    rw [List.length_append, List.length_cons] at hxs
    have hle : (((start (.new settings space)).attempts before).coordinator.uses ref way).toNat ≤
        before.length := uses_attempts_le before (by omega) ref way
    have hcount := Word.largest_add_one
    rw [attempts_concat]
    exact counts_attempt x ref way (by omega)
  · have huses := Coordinator.uses_of_region? hr way
    rw [← huses, ← h]
    exact ⟨uses_attempts_le xs hxs ref way, rfl⟩

/-- A writer is withdrawn by name that only a guard had declared, the region loses its name, the
name is used again, and the guard is dropped after that. -/
theorem counters_of_attempts_after_stray_release :
    ∃ u r r', (start (.new { limit := 64, rule := .exclusive } .usual)).attempts
        [(.usual, .allocate "a" 4 .bytes), (.usual, .guard .write "a"),
          (.usual, .release .write "a"), (.usual, .free "a"), (.usual, .allocate "a" 4 .bytes),
          (.usual, .acquire .write "a"), (.usual, .drop 0)] = u ∧
      u.coordinator.region? 0 = some r ∧ r.writers = 0 ∧
      u.coordinator.region? 1 = some r' ∧ r'.writers = 1 ∧
      ¬ (0 < r'.readers ∧ 0 < r'.writers) := by
  let settings : MemorySettings := { limit := 64, rule := .exclusive }
  let xs : List (AddressSpace × MemoryEvent) :=
    [(.usual, .allocate "a" 4 .bytes), (.usual, .guard .write "a"),
      (.usual, .release .write "a"), (.usual, .free "a"), (.usual, .allocate "a" 4 .bytes),
      (.usual, .acquire .write "a"), (.usual, .drop 0)]
  let u := (start (.new settings .usual)).attempts xs
  have hlength : xs.length < Word.count := by decide
  have hu : (start (.new settings .usual)).attempts xs = u := rfl
  obtain ⟨hcounters, -⟩ := counters_of_attempts hlength hu
  let r := (u.coordinator.region? 0).get (by decide +kernel)
  have hr : u.coordinator.region? 0 = some r := (Option.some_get _).symm
  let r' := (u.coordinator.region? 1).get (by decide +kernel)
  have hr' : u.coordinator.region? 1 = some r' := (Option.some_get _).symm
  obtain ⟨-, hexclusive⟩ := hcounters 1 r' hr'
  exact ⟨u, r, r', rfl, hr, by decide +kernel, hr', by decide +kernel, hexclusive rfl⟩

end MemoryUsers

end LanguageHost
