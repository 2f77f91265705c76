import LanguageHost.Lifecycle
import LanguageHost.Proofs.Runs

/-!
# What becomes of a claim

The claim on a lifecycle is given while nothing was started, and whoever has it is the only one.  It
is taken until the start that has it gives it back; it also stays taken after the start has
published a state, and if the start was dropped: `Lifecycle.Claims`.

A state is handed out by one stop if it was published before the first stop, and by none if it was
published later, for stops after the first one hand out nothing.
-/

namespace LanguageHost

namespace Lifecycle

variable {σ : Type} {l l' : Lifecycle σ} {starting lost : Bool}

/-- A claim is given, or the lifecycle stays as it is. -/
theorem claim_cases (l : Lifecycle σ) :
    l.claim = (.ok (), { l with claimed := true }) ∧ l.stopped = false ∧ l.claimed = false ∨
      ∃ e, l.claim = (.error e, l) := by
  unfold claim
  split
  · exact .inr ⟨_, rfl⟩
  · next hstopped =>
    split
    · exact .inr ⟨_, rfl⟩
    · next hclaimed => exact .inl ⟨rfl, by simpa using hstopped, by simpa using hclaimed⟩

theorem publish_of_none (h : l.started? = none) (s : σ) :
    l.publish s = { l with started? := some s } := by
  unfold publish
  rw [h]

/-- The claim is taken for one of three reasons: a start has it, a start was dropped that had it, or
a state was published. -/
structure Claims (l : Lifecycle σ) (starting lost : Bool) : Prop where
  claimed_iff : l.claimed = true ↔
    starting = true ∨ lost = true ∨ l.started?.isSome = true
  starting_alone : starting = true → lost = false ∧ l.started? = none
  lost_alone : lost = true → l.started? = none

theorem claims_new (name : String) : (new name : Lifecycle σ).Claims false false where
  claimed_iff := by simp [new]
  starting_alone := nofun
  lost_alone := nofun

namespace Claims

/-- Whoever gets the claim is the only one. -/
theorem claim (h : l.Claims starting lost) (hfree : l.claimed = false) :
    starting = false ∧ lost = false ∧ ({ l with claimed := true } : Lifecycle σ).Claims true lost :=
  by
  have hnone : ¬ (starting = true ∨ lost = true ∨ l.started?.isSome = true) := fun hsome => by
    cases hfree.symm.trans (h.claimed_iff.mpr hsome)
  simp only [not_or, Bool.not_eq_true] at hnone
  obtain ⟨hstarting, hlost, hstarted⟩ := hnone
  have hnone : l.started? = none := by simpa using hstarted
  exact ⟨hstarting, hlost, ⟨by simp, fun _ => ⟨hlost, hnone⟩, fun _ => hnone⟩⟩

theorem abandon (h : l.Claims true lost) : l.abandon.Claims false lost := by
  obtain ⟨hlost, hnone⟩ := h.starting_alone rfl
  exact ⟨by simp [Lifecycle.abandon, hlost, hnone], nofun, fun _ => hnone⟩

theorem publish (h : l.Claims true lost) (s : σ) : (l.publish s).Claims false lost := by
  obtain ⟨hlost, hnone⟩ := h.starting_alone rfl
  have hclaimed : l.claimed = true := h.claimed_iff.mpr (.inl rfl)
  rw [publish_of_none hnone]
  refine ⟨by simp [hclaimed], nofun, fun hl => ?_⟩
  cases hlost.symm.trans hl

/-- A start that is dropped leaves the claim taken. -/
theorem lose (h : l.Claims true lost) : l.Claims false true := by
  have hclaimed : l.claimed = true := h.claimed_iff.mpr (.inl rfl)
  exact ⟨by simp [hclaimed], nofun, fun _ => (h.starting_alone rfl).2⟩

/-- Only the claim and whether there is a state matter. -/
theorem congr {τ : Type} {k : Lifecycle τ} (h : l.Claims starting lost)
    (hclaimed : k.claimed = l.claimed) (hstarted : k.started?.isSome = l.started?.isSome) :
    k.Claims starting lost := by
  have hnone : l.started? = none → k.started? = none := fun hl => by
    rw [hl] at hstarted
    simpa using hstarted
  refine ⟨?_, fun hs => ?_, fun hl => hnone (h.lost_alone hl)⟩
  · rw [hclaimed, hstarted]
    exact h.claimed_iff
  · obtain ⟨hlost, hl⟩ := h.starting_alone hs
    exact ⟨hlost, hnone hl⟩

end Claims

/-- A state may be used once it was published, and until the stop. -/
theorem running_eq_ok_iff {s : σ} :
    l.running = .ok s ↔ l.stopped = false ∧ l.started? = some s := by
  unfold running
  cases l.stopped with
  | true => simp
  | false => cases l.started? <;> simp

/-- The refusal of a second start. -/
def takenError (l : Lifecycle σ) : HostError :=
  .invalidState (l.name ++ " runtime already initialized")

/-- The refusal of a task before the start. -/
def idleError (l : Lifecycle σ) : HostError :=
  .invalidState (l.name ++ " runtime not initialized")

theorem claim_of_stopped (h : l.stopped = true) : l.claim = (.error l.shutDownError, l) := if_pos h

theorem claim_of_claimed (hopen : l.stopped = false) (h : l.claimed = true) :
    l.claim = (.error l.takenError, l) := by
  rw [claim, if_neg (by simp [hopen]), if_pos h]
  rfl

theorem claim_of_free (hopen : l.stopped = false) (h : l.claimed = false) :
    l.claim = (.ok (), { l with claimed := true }) := by
  rw [claim, if_neg (by simp [hopen]), if_neg (by simp [h])]

theorem running_of_stopped (h : l.stopped = true) : l.running = .error l.shutDownError := if_pos h

theorem running_of_none (hopen : l.stopped = false) (h : l.started? = none) :
    l.running = .error l.idleError := by
  rw [running, if_neg (by simp [hopen]), h]
  rfl

/-- The first stop hands out the state and changes nothing else. -/
theorem stop_of_not_stopped (h : l.stopped = false) :
    l.stop = (l.started?, { l with stopped := true }) := by
  rw [stop, if_neg (by simp [h])]

/-- A later stop does nothing. -/
theorem stop_of_stopped (h : l.stopped = true) : l.stop = (none, l) := if_pos h

end Lifecycle

namespace LifecycleUsers

variable {σ : Type} {u u' v : LifecycleUsers σ} {e : LifecycleEvent σ}
variable {es es' : List (LifecycleEvent σ)} {s : σ}

/-! ### One step -/

/-- Everything that may happen to a lifecycle, with its condition and its effect. -/
inductive Occurs (u : LifecycleUsers σ) : LifecycleEvent σ → LifecycleUsers σ → Prop where
  | claimed (hopen : u.lifecycle.stopped = false) (hfree : u.lifecycle.claimed = false) :
      u.Occurs .claim { u with lifecycle := { u.lifecycle with claimed := true }, starting := true }
  | refused : u.Occurs .claim u
  | abandoned (hs : u.starting = true) :
      u.Occurs .abandon { u with lifecycle := u.lifecycle.abandon, starting := false }
  | published (hs : u.starting = true) (s : σ) :
      u.Occurs (.publish s) { u with lifecycle := u.lifecycle.publish s, starting := false }
  | stopped (hopen : u.lifecycle.stopped = false) :
      u.Occurs .stop
        { u with
          lifecycle := { u.lifecycle with stopped := true }
          handed := u.lifecycle.started?.toList ++ u.handed }
  | stoppedAgain (hstopped : u.lifecycle.stopped = true) : u.Occurs .stop u

/-- Every step is one of the cases of `Occurs`. -/
theorem occurs_of_step (h : u.step e = some u') : u.Occurs e u' := by
  cases e with
  | claim =>
    rcases u.lifecycle.claim_cases with ⟨hok, hopen, hfree⟩ | ⟨e, hrefused⟩
    · simp only [step, hok, Option.some.injEq] at h
      subst h
      exact .claimed hopen hfree
    · simp only [step, hrefused, Option.some.injEq] at h
      subst h
      exact .refused
  | abandon =>
    simp only [step] at h
    split at h
    · next hs =>
      cases h
      exact .abandoned hs
    · cases h
  | publish s =>
    simp only [step] at h
    split at h
    · next hs =>
      cases h
      exact .published hs s
    · cases h
  | stop =>
    simp only [step, Option.some.injEq] at h
    subst h
    cases hstopped : u.lifecycle.stopped with
    | false =>
      rw [Lifecycle.stop_of_not_stopped hstopped]
      exact .stopped hstopped
    | true =>
      rw [Lifecycle.stop_of_stopped hstopped]
      exact .stoppedAgain hstopped

theorem claims_step (h : u.lifecycle.Claims u.starting false) (ho : u.Occurs e u') :
    u'.lifecycle.Claims u'.starting false := by
  cases ho with
  | claimed _ hfree => exact (h.claim hfree).2.2
  | refused => exact h
  | abandoned hs => exact (hs ▸ h).abandon
  | published hs s => exact (hs ▸ h).publish s
  | stopped => exact h.congr rfl rfl
  | stoppedAgain => exact h

/-- A state that was published stays. -/
theorem started_step (h : u.lifecycle.started? = some s) (ho : u.Occurs e u') :
    u'.lifecycle.started? = some s := by
  cases ho with
  | published =>
    simp only [Lifecycle.publish, h]
  | _ => exact h

/-- Only a stop stops a lifecycle, and only a stop hands out a state. -/
theorem handed_step (he : e ≠ .stop) (ho : u.Occurs e u') :
    u'.lifecycle.stopped = u.lifecycle.stopped ∧ u'.handed = u.handed := by
  cases ho with
  | stopped => exact absurd rfl he
  | published s =>
    refine ⟨?_, rfl⟩
    unfold Lifecycle.publish
    split <;> rfl
  | _ => exact ⟨rfl, rfl⟩

/-- After a stop no state is handed out any more. -/
theorem handed_step_of_stopped (h : u.lifecycle.stopped = true) (ho : u.Occurs e u') :
    u'.lifecycle.stopped = true ∧ u'.handed = u.handed := by
  by_cases he : e = .stop
  · subst he
    cases ho with
    | stopped hopen => cases hopen.symm.trans h
    | stoppedAgain => exact ⟨h, rfl⟩
  · obtain ⟨hsame, hhanded⟩ := handed_step he ho
    exact ⟨hsame.trans h, hhanded⟩

/-! ### Runs -/

theorem plays : Plays (@step σ) run := ⟨fun _ => rfl, fun _ _ _ => rfl⟩

theorem run_append_eq_some :
    u.run (es ++ es') = some u' ↔ ∃ v, u.run es = some v ∧ v.run es' = some u' :=
  plays.append_eq_some

theorem run_cons_eq_some :
    u.run (e :: es) = some u' ↔ ∃ v, u.step e = some v ∧ v.run es = some u' :=
  plays.cons_eq_some

/-- What every step keeps holds after every run. -/
theorem run_induction {motive : LifecycleUsers σ → Prop} (hu : motive u)
    (next : ∀ v e w, e ∈ es → motive v → v.Occurs e w → motive w) (h : u.run es = some u') :
    motive u' :=
  plays.induction hu (fun v e w he hv hs => next v e w he hv (occurs_of_step hs)) h

theorem claims_run {name : String} (h : (new name).run es = some u) :
    u.lifecycle.Claims u.starting false :=
  run_induction (motive := fun v => v.lifecycle.Claims v.starting false)
    (Lifecycle.claims_new name) (fun _ _ _ _ hv ho => claims_step hv ho) h

theorem started_run (hs : u.lifecycle.started? = some s) (h : u.run es = some u') :
    u'.lifecycle.started? = some s :=
  run_induction (motive := fun v => v.lifecycle.started? = some s) hs
    (fun _ _ _ _ hv ho => started_step hv ho) h

/-- Before the first stop no state is handed out. -/
theorem handed_run (hstop : .stop ∉ es) (h : u.run es = some u') :
    u'.lifecycle.stopped = u.lifecycle.stopped ∧ u'.handed = u.handed := by
  refine run_induction (motive := fun v => v.lifecycle.stopped = u.lifecycle.stopped ∧
    v.handed = u.handed) ⟨rfl, rfl⟩ (fun v e w he hv ho => ?_) h
  obtain ⟨hsame, hhanded⟩ := handed_step (fun heq => hstop (heq ▸ he)) ho
  exact ⟨hsame.trans hv.1, hhanded.trans hv.2⟩

theorem handed_run_of_stopped (hstopped : u.lifecycle.stopped = true) (h : u.run es = some u') :
    u'.handed = u.handed := by
  refine (run_induction (motive := fun v => v.lifecycle.stopped = true ∧ v.handed = u.handed)
    ⟨hstopped, rfl⟩ (fun v e w _ hv ho => ?_) h).2
  obtain ⟨hstill, hhanded⟩ := handed_step_of_stopped hv.1 ho
  exact ⟨hstill, hhanded.trans hv.2⟩

/-- The first stop hands out the state that there is. -/
theorem handed_of_first_stop (hopen : u.lifecycle.stopped = false) (hnone : u.handed = [])
    (h : u.run (.stop :: es) = some u') : u'.handed = u.lifecycle.started?.toList := by
  obtain ⟨v, hstep, hrest⟩ := run_cons_eq_some.mp h
  have hoccurs := occurs_of_step hstep
  cases hoccurs with
  | stopped =>
    rw [handed_run_of_stopped rfl hrest, hnone, List.append_nil]
  | stoppedAgain hstopped => cases hopen.symm.trans hstopped

/-- A published state is handed out once if it was published before the first stop. -/
theorem handed_of_publish_before {name : String} {before after : List (LifecycleEvent σ)}
    (h : (new name).run (before ++ .publish s :: after) = some u) (hbefore : .stop ∉ before)
    (hafter : .stop ∈ after) : u.handed = [s] := by
  obtain ⟨v, hv, hrest⟩ := run_append_eq_some.mp h
  obtain ⟨w, hstep, hrest⟩ := run_cons_eq_some.mp hrest
  have hclaims := claims_run hv
  obtain ⟨hopen, hnone⟩ := handed_run hbefore hv
  have hoccurs := occurs_of_step hstep
  cases hoccurs with
  | published hstarting =>
    have hfirst := (hclaims.starting_alone hstarting).2
    rw [Lifecycle.publish_of_none hfirst] at hrest
    obtain ⟨early, late, rfl, hearly⟩ := List.eq_append_cons_of_mem hafter
    obtain ⟨x, hx, hlate⟩ := run_append_eq_some.mp hrest
    obtain ⟨hopen', hnone'⟩ := handed_run hearly hx
    rw [handed_of_first_stop (hopen'.trans hopen) (hnone'.trans hnone) hlate, started_run rfl hx]
    rfl

/-- A published state is never handed out if there was a stop before. -/
theorem handed_of_stop_before {name : String} {before after : List (LifecycleEvent σ)}
    (h : (new name).run (before ++ .publish s :: after) = some u) (hbefore : .stop ∈ before) :
    u.handed = [] := by
  obtain ⟨w, hw, hrest⟩ := run_append_eq_some.mp h
  obtain ⟨x, hstep, -⟩ := run_cons_eq_some.mp hrest
  obtain ⟨early, late, rfl, hearly⟩ := List.eq_append_cons_of_mem hbefore
  obtain ⟨v, hv, hlate⟩ := run_append_eq_some.mp hw
  obtain ⟨hopen, hnone⟩ := handed_run hearly hv
  have hrun : v.run (.stop :: late ++ .publish s :: after) = some u :=
    run_append_eq_some.mpr ⟨w, hlate, hrest⟩
  rw [handed_of_first_stop hopen hnone hrun]
  -- Had a state been there at the stop, it would be there when this one was published.
  cases hstarted : v.lifecycle.started? with
  | none => rfl
  | some s' =>
    have hstill := started_run hstarted hlate
    have hoccurs := occurs_of_step hstep
    cases hoccurs with
    | published hstarting =>
      cases hstill.symm.trans ((claims_run hw).starting_alone hstarting).2

end LifecycleUsers

end LanguageHost
