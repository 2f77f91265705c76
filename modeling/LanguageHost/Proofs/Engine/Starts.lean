import LanguageHost.Proofs.Engine.Pools
import LanguageHost.Proofs.Lifecycle

/-!
# Starting and stopping an engine

What a start and a stop do to an engine, whatever happens in between.  If a start publishes its
state before the first stop, that stop closes the pool and shuts its idle workers down.  If the
first stop comes while the start is under way, the stop finds no state; the start publishes one
afterwards, and its pool stays open with all its workers idle, for nothing reaches it any more.
-/

namespace LanguageHost

namespace Engine

variable {e : Engine} {f : Pool → Pool}

@[simp] theorem isSome_started_withPool (e : Engine) (f : Pool → Pool) :
    (e.withPool f).lifecycle.started?.isSome = e.lifecycle.started?.isSome := by
  simp [withPool]

theorem pool?_withPool (e : Engine) (f : Pool → Pool) : (e.withPool f).pool? = e.pool?.map f := by
  simp only [pool?, withPool, Option.map_map]
  rfl

/-- An engine without a pool stays as it is. -/
theorem withPool_of_none (h : e.lifecycle.started? = none) (f : Pool → Pool) : e.withPool f = e := by
  obtain ⟨name, kind, ⟨name', claimed, stopped, started?⟩, works⟩ := e
  simp only at h
  subst h
  rfl

/-- A task is refused and changes nothing, or it asks the pool of a running engine for a worker. -/
theorem run_cases (e : Engine) (task : Task) (token : Token) (fired : Bool) :
    (e.run task token fired).2 = e ∨
      e.lifecycle.stopped = false ∧ ∃ works, (e.run task token fired).2 =
        { e.withPool fun p => p.follow (.askRun fired) with works } := by
  unfold run
  split
  · exact .inl rfl
  · next s hrunning =>
    split
    · exact .inl rfl
    · refine .inr ⟨(Lifecycle.running_eq_ok_iff.mp hrunning).1, ?_⟩
      unfold enqueue
      simp only
      split
      · exact ⟨_, rfl⟩
      · exact ⟨_, rfl⟩

/-- The first stop closes the pool, if there is one. -/
theorem stop_of_not_stopped (h : e.lifecycle.stopped = false) :
    e.stop =
      { e with lifecycle := { e.lifecycle with stopped := true } }.withPool Pool.closeAtOnce := by
  rw [stop, Lifecycle.stop_of_not_stopped h]
  simp only
  split
  · rfl
  · next hnone =>
    refine (withPool_of_none ?_ _).symm
    exact hnone

theorem stop_of_stopped (h : e.lifecycle.stopped = true) : e.stop = e := by
  rw [stop, Lifecycle.stop_of_stopped h]

end Engine

namespace EngineUsers

variable {u u' v : EngineUsers} {e : EngineEvent} {es es' : List EngineEvent} {engine : Engine}
variable {p : Pool} {settings : RuntimeSettings} {report : StartReport} {now : Nat}

/-! ### One step -/

/-- Everything that may happen to an engine, with its condition and its effect. -/
inductive Occurs (u : EngineUsers) : EngineEvent → EngineUsers → Prop where
  | claimed (hopen : u.engine.lifecycle.stopped = false)
      (hfree : u.engine.lifecycle.claimed = false) :
      u.Occurs .claim
        { u with
          engine := { u.engine with lifecycle := { u.engine.lifecycle with claimed := true } }
          starting := true }
  | refused : u.Occurs .claim u
  | published (hs : u.starting = true) (settings : RuntimeSettings) (report : StartReport)
      (now : Nat) :
      u.Occurs (.settle settings (.ok report) now)
        { u with
          engine := { u.engine with
            lifecycle := u.engine.lifecycle.publish
              ⟨Pool.forSettings u.engine.name settings now, settings, report⟩ }
          starting := false }
  | failed (hs : u.starting = true) (settings : RuntimeSettings) (err : HostError) (now : Nat) :
      u.Occurs (.settle settings (.error err) now)
        { u with engine := u.engine.abandonStart, starting := false }
  | lost (hs : u.starting = true) : u.Occurs .lose { u with starting := false, lost := true }
  | ran {task : Task} {token : Token} {fired : Bool}
      (hopen : u.engine.lifecycle.stopped = false) (works : List Work) :
      u.Occurs (.run task token fired)
        { u with engine := { u.engine.withPool fun p => p.follow (.askRun fired) with works } }
  | notRun {task : Task} {token : Token} {fired : Bool} : u.Occurs (.run task token fired) u
  | stopped (hopen : u.engine.lifecycle.stopped = false) :
      u.Occurs .stop
        { u with
          engine := { u.engine with
            lifecycle := { u.engine.lifecycle with stopped := true } }.withPool Pool.closeAtOnce }
  | stoppedAgain (hstopped : u.engine.lifecycle.stopped = true) : u.Occurs .stop u
  | pool {e : PoolEvent} (he : e.isWithin = true) :
      u.Occurs (.pool e) { u with engine := u.engine.withPool fun p => p.follow e }

/-- Every step is one of the cases of `Occurs`. -/
theorem occurs_of_step (h : u.step e = some u') : u.Occurs e u' := by
  cases e with
  | claim =>
    rcases u.engine.lifecycle.claim_cases with ⟨hok, hopen, hfree⟩ | ⟨e, hrefused⟩
    · simp only [step, hok, Option.some.injEq] at h
      subst h
      exact .claimed hopen hfree
    · simp only [step, hrefused, Option.some.injEq] at h
      subst h
      exact .refused
  | settle settings report now =>
    simp only [step] at h
    split at h
    · next hs =>
      cases h
      cases report with
      | ok report => exact .published hs settings report now
      | error err => exact .failed hs settings err now
    · cases h
  | lose =>
    simp only [step] at h
    split at h
    · next hs =>
      cases h
      exact .lost hs
    · cases h
  | run task token fired =>
    simp only [step, Option.some.injEq] at h
    subst h
    rcases u.engine.run_cases task token fired with hsame | ⟨hopen, works, hran⟩
    · rw [hsame]
      exact .notRun
    · rw [hran]
      exact .ran hopen works
  | stop =>
    simp only [step, Option.some.injEq] at h
    subst h
    cases hstopped : u.engine.lifecycle.stopped with
    | false =>
      rw [Engine.stop_of_not_stopped hstopped]
      exact .stopped hstopped
    | true =>
      rw [Engine.stop_of_stopped hstopped]
      exact .stoppedAgain hstopped
  | pool e =>
    simp only [step] at h
    split at h
    · next he =>
      cases h
      exact .pool he
    · cases h

theorem claims_step (h : u.engine.lifecycle.Claims u.starting u.lost) (ho : u.Occurs e u') :
    u'.engine.lifecycle.Claims u'.starting u'.lost := by
  cases ho with
  | claimed _ hfree => exact (h.claim hfree).2.2
  | refused => exact h
  | published hs => exact Lifecycle.Claims.publish (hs ▸ h) _
  | failed hs => exact Lifecycle.Claims.abandon (hs ▸ h)
  | lost hs => exact Lifecycle.Claims.lose (hs ▸ h)
  | @ran _ _ fired _ _ =>
    exact h.congr rfl (Engine.isSome_started_withPool u.engine fun p => p.follow (.askRun fired))
  | notRun => exact h
  | stopped => exact h.congr rfl (Engine.isSome_started_withPool _ _)
  | stoppedAgain => exact h
  | pool => exact h.congr rfl (Engine.isSome_started_withPool _ _)

/-- Only a stop stops an engine. -/
theorem stopped_step (he : e ≠ .stop) (ho : u.Occurs e u') :
    u'.engine.lifecycle.stopped = u.engine.lifecycle.stopped := by
  cases ho with
  | stopped => exact absurd rfl he
  | published =>
    simp only [Lifecycle.publish]
    split <;> rfl
  | _ => rfl

/-- An engine that was stopped stays so. -/
theorem stopped_step_of_stopped (h : u.engine.lifecycle.stopped = true) (ho : u.Occurs e u') :
    u'.engine.lifecycle.stopped = true := by
  by_cases he : e = .stop
  · subst he
    cases ho with
    | stopped hopen => cases hopen.symm.trans h
    | stoppedAgain => exact h
  · exact (stopped_step he ho).trans h

/-- What an event does to the pool of an engine that has one. -/
theorem pool?_step (h : u.engine.pool? = some p) (ho : u.Occurs e u') :
    u'.engine.pool? = some p ∨
      (∃ pe, Pool.Within pe ∧ u'.engine.pool? = some (p.follow pe)) ∨
      e = .stop ∧ u'.engine.pool? = some p.closeAtOnce := by
  have hmap : ∀ f, (u.engine.withPool f).pool? = some (f p) := fun f => by
    rw [Engine.pool?_withPool, h, Option.map_some]
  cases ho with
  | claimed => exact .inl h
  | refused => exact .inl h
  | published =>
    obtain ⟨s, hs, -⟩ := Option.map_eq_some_iff.mp h
    refine .inl ?_
    simp only [Engine.pool?, Lifecycle.publish, hs]
    exact (congrArg (Option.map Started.pool) hs).symm.trans h
  | failed => exact .inl h
  | lost => exact .inl h
  | @ran _ _ fired _ _ =>
    refine .inr (.inl ⟨.askRun fired, .inr ⟨fired, rfl⟩, ?_⟩)
    exact hmap fun p => p.follow (.askRun fired)
  | notRun => exact .inl h
  | stopped => exact .inr (.inr ⟨rfl, hmap _⟩)
  | stoppedAgain => exact .inl h
  | @pool pe he => exact .inr (.inl ⟨pe, .inl he, hmap _⟩)

/-- An engine without a pool gets one from a start that succeeds. -/
theorem pool?_step_of_none (h : u.engine.pool? = none) (ho : u.Occurs e u') :
    u'.engine.pool? = none ∨ ∃ settings report now, e = .settle settings (.ok report) now ∧
      u'.engine.pool? = some (.forSettings u.engine.name settings now) := by
  have hmap : ∀ f, (u.engine.withPool f).pool? = none := fun f => by
    rw [Engine.pool?_withPool, h, Option.map_none]
  cases ho with
  | published hs settings report now =>
    refine .inr ⟨settings, report, now, rfl, ?_⟩
    have hnone : u.engine.lifecycle.started? = none := Option.map_eq_none_iff.mp h
    rw [Lifecycle.publish_of_none hnone]
    rfl
  | @ran _ _ fired _ _ => exact .inl (hmap fun p => p.follow (.askRun fired))
  | stopped => exact .inl (hmap _)
  | pool => exact .inl (hmap _)
  | _ => exact .inl h

/-- The pool of an engine was started and then used, and no operation has panicked in it as it was
called or told itself to stop. -/
theorem tame_step (h : ∀ p, u.engine.pool? = some p → p.Tame) (ho : u.Occurs e u') :
    ∀ p, u'.engine.pool? = some p → p.Tame := by
  intro p' hp'
  cases hp : u.engine.pool? with
  | none =>
    rcases pool?_step_of_none hp ho with hnone | ⟨settings, report, now, -, hnew⟩
    · cases hnone.symm.trans hp'
    · cases hnew.symm.trans hp'
      exact Pool.tame_forSettings _ _ _
  | some p =>
    have htame := h p hp
    rcases pool?_step hp ho with hsame | ⟨pe, hwithin, hfollow⟩ | ⟨-, hclose⟩
    · cases hsame.symm.trans hp'
      exact htame
    · cases hfollow.symm.trans hp'
      exact htame.follow hwithin.tame
    · cases hclose.symm.trans hp'
      exact Pool.tame_closeAtOnce htame

/-! ### Runs -/

theorem plays : Plays step run := ⟨fun _ => rfl, fun _ _ _ => rfl⟩

theorem run_cons_eq_some :
    u.run (e :: es) = some u' ↔ ∃ v, u.step e = some v ∧ v.run es = some u' :=
  plays.cons_eq_some

theorem run_append_eq_some :
    u.run (es ++ es') = some u' ↔ ∃ v, u.run es = some v ∧ v.run es' = some u' :=
  plays.append_eq_some

/-- What every step keeps holds after every run. -/
theorem run_induction {motive : EngineUsers → Prop} (hu : motive u)
    (next : ∀ v e w, e ∈ es → motive v → v.Occurs e w → motive w) (h : u.run es = some u') :
    motive u' :=
  plays.induction hu (fun v e w he hv hs => next v e w he hv (occurs_of_step hs)) h

/-- What is known of an engine that was used from its beginning: the claim is taken by what the
users know of, and the pool, if there is one, was started and then used tamely. -/
structure Sound (u : EngineUsers) : Prop where
  claims : u.engine.lifecycle.Claims u.starting u.lost
  tame : ∀ p, u.engine.pool? = some p → p.Tame

theorem Sound.used (h : u.Sound) : ∀ p, u.engine.pool? = some p → p.Used :=
  fun p hp => (h.tame p hp).used

theorem sound_new (h : engine.lifecycle = .new engine.name) : (new engine).Sound where
  claims := by
    rw [new, h]
    exact Lifecycle.claims_new _
  tame := fun p hp => by simp [new, Engine.pool?, h, Lifecycle.new] at hp

theorem sound_step (h : u.Sound) (ho : u.Occurs e u') : u'.Sound :=
  ⟨claims_step h.claims ho, tame_step h.tame ho⟩

theorem sound_run (h : u.Sound) (hr : u.run es = some u') : u'.Sound :=
  run_induction (motive := Sound) h (fun _ _ _ _ hv ho => sound_step hv ho) hr

theorem stopped_run (hstop : .stop ∉ es) (h : u.run es = some u') :
    u'.engine.lifecycle.stopped = u.engine.lifecycle.stopped :=
  run_induction (motive := fun v => v.engine.lifecycle.stopped = u.engine.lifecycle.stopped) rfl
    (fun _ _ _ he hv ho => (stopped_step (fun heq => hstop (heq ▸ he)) ho).trans hv) h

/-- After a stop among the events the engine is stopped. -/
theorem stopped_of_mem (hstop : .stop ∈ es) (h : u.run es = some u') :
    u'.engine.lifecycle.stopped = true := by
  obtain ⟨early, late, rfl⟩ := List.append_of_mem hstop
  obtain ⟨v, -, hrest⟩ := run_append_eq_some.mp h
  obtain ⟨w, hstep, hlate⟩ := run_cons_eq_some.mp hrest
  have hstopped : w.engine.lifecycle.stopped = true := by
    have hoccurs := occurs_of_step hstep
    cases hoccurs with
    | stopped => rfl
    | stoppedAgain hstopped => exact hstopped
  exact run_induction (motive := fun v => v.engine.lifecycle.stopped = true) hstopped
    (fun _ _ _ _ hv ho => stopped_step_of_stopped hv ho) hlate

/-- A start that succeeds gives the engine its pool. -/
theorem pool?_of_settle (h : u.Sound)
    (hs : u.step (.settle settings (.ok report) now) = some u') :
    u'.starting = false ∧ u'.engine.lifecycle.stopped = u.engine.lifecycle.stopped ∧
      u'.engine.pool? = some (.forSettings u.engine.name settings now) := by
  have hoccurs := occurs_of_step hs
  have hstopped := stopped_step EngineEvent.noConfusion hoccurs
  cases hoccurs with
  | published hstarting =>
    have hnone := (h.claims.starting_alone hstarting).2
    refine ⟨rfl, hstopped, ?_⟩
    rw [Lifecycle.publish_of_none hnone]
    rfl

/-- An engine that has a pool keeps having one. -/
theorem pool?_run (hp : u.engine.pool? = some p) (h : u.run es = some u') :
    ∃ p', u'.engine.pool? = some p' := by
  refine run_induction (motive := fun v => ∃ p', v.engine.pool? = some p') ⟨p, hp⟩
    (fun v e w _ hv ho => ?_) h
  obtain ⟨q, hq⟩ := hv
  rcases pool?_step hq ho with hsame | ⟨pe, -, hfollow⟩ | ⟨-, hclose⟩
  · exact ⟨q, hsame⟩
  · exact ⟨_, hfollow⟩
  · exact ⟨_, hclose⟩

/-! ### A stop after the start -/

/-- A stop that finds a pool closes it and shuts its idle workers down. -/
theorem shut_of_stop (h : u.Sound) (hopen : u.engine.lifecycle.stopped = false)
    (hp : u.engine.pool? = some p) (hs : u.step .stop = some u') :
    u'.engine.lifecycle.stopped = true ∧ ∃ p', u'.engine.pool? = some p' ∧ p'.Shut p.idle := by
  have hoccurs := occurs_of_step hs
  cases hoccurs with
  | stopped =>
    refine ⟨rfl, _, ?_, Pool.shut_closeAtOnce (h.used p hp)⟩
    rw [Engine.pool?_withPool]
    exact congrArg (Option.map Pool.closeAtOnce) hp
  | stoppedAgain hstopped => cases hopen.symm.trans hstopped

/-- The pool of a stopped engine stays closed, with no worker idle. -/
theorem shut_run {workers : List Worker} (hstopped : u.engine.lifecycle.stopped = true)
    (hp : u.engine.pool? = some p) (hshut : p.Shut workers) (h : u.run es = some u') :
    ∃ p', u'.engine.pool? = some p' ∧ p'.Shut workers := by
  refine (run_induction (motive := fun v => v.engine.lifecycle.stopped = true ∧
    ∃ p', v.engine.pool? = some p' ∧ p'.Shut workers) ⟨hstopped, p, hp, hshut⟩
    (fun v e w _ hv ho => ?_) h).2
  obtain ⟨hstopped, q, hq, hshut⟩ := hv
  refine ⟨stopped_step_of_stopped hstopped ho, ?_⟩
  by_cases he : e = .stop
  · subst he
    cases ho with
    | stopped hopen => cases hopen.symm.trans hstopped
    | stoppedAgain => exact ⟨q, hq, hshut⟩
  · rcases pool?_step hq ho with hsame | ⟨pe, hwithin, hfollow⟩ | ⟨hstop, -⟩
    · exact ⟨q, hsame, hshut⟩
    · exact ⟨_, hfollow, hshut.follow hwithin⟩
    · exact absurd hstop he

/-- If a start has succeeded before the first stop, that stop shuts the pool. -/
theorem shut_of_settle_before {before mid late : List EngineEvent} (h : u.Sound)
    (hopen : u.engine.lifecycle.stopped = false) (hbefore : .stop ∉ before) (hmid : .stop ∉ mid)
    (hr : u.run (before ++ .settle settings (.ok report) now :: mid ++ .stop :: late) = some u') :
    ∃ v p p', u.run (before ++ .settle settings (.ok report) now :: mid) = some v ∧
      v.engine.pool? = some p ∧ u'.engine.pool? = some p' ∧ p'.Shut p.idle := by
  obtain ⟨v, hv, hrest⟩ := run_append_eq_some.mp hr
  obtain ⟨x, hx, hsettle⟩ := run_append_eq_some.mp hv
  obtain ⟨y, hstep, hy⟩ := run_cons_eq_some.mp hsettle
  obtain ⟨-, hstopped, hpool⟩ := pool?_of_settle (sound_run h hx) hstep
  obtain ⟨p, hp⟩ := pool?_run hpool hy
  have hopen' : v.engine.lifecycle.stopped = false := by
    rw [stopped_run hmid hy, hstopped, stopped_run hbefore hx]
    exact hopen
  obtain ⟨w, hstop, hlate⟩ := run_cons_eq_some.mp hrest
  obtain ⟨hdone, q, hq, hshut⟩ := shut_of_stop (sound_run h hv) hopen' hp hstop
  obtain ⟨p', hp', hshut'⟩ := shut_run hdone hq hshut hlate
  exact ⟨v, p, p', hv, hp, hp', hshut'⟩

/-! ### A stop before the start has succeeded -/

/-- Nothing reaches the pool that a start publishes after the first stop. -/
theorem opened_run {name : String} {grace time n : Nat} {workers : List Worker}
    (hstopped : u.engine.lifecycle.stopped = true) (hstarting : u.starting = false)
    (hp : u.engine.pool? = some (.opened name grace time workers n)) (h : u.run es = some u') :
    ∃ time, u'.engine.pool? = some (.opened name grace time workers n) := by
  refine (run_induction (motive := fun v => v.engine.lifecycle.stopped = true ∧
    v.starting = false ∧ ∃ time, v.engine.pool? = some (.opened name grace time workers n))
    ⟨hstopped, hstarting, time, hp⟩ (fun v e w _ hv ho => ?_) h).2.2
  obtain ⟨hstopped, hstarting, time, hp⟩ := hv
  cases ho with
  | claimed hopen => cases hopen.symm.trans hstopped
  | refused => exact ⟨hstopped, hstarting, time, hp⟩
  | published hs => cases hstarting.symm.trans hs
  | failed hs => cases hstarting.symm.trans hs
  | lost hs => cases hstarting.symm.trans hs
  | ran hopen => cases hopen.symm.trans hstopped
  | notRun => exact ⟨hstopped, hstarting, time, hp⟩
  | stopped hopen => cases hopen.symm.trans hstopped
  | stoppedAgain => exact ⟨hstopped, hstarting, time, hp⟩
  | pool he =>
    obtain ⟨later, hlater⟩ := Pool.follow_opened name grace time workers n he
    refine ⟨hstopped, hstarting, later, ?_⟩
    rw [Engine.pool?_withPool, hp, Option.map_some, hlater]

/-- If a start succeeds after the first stop, its pool stays open with all its workers idle. -/
theorem open_of_settle_after {before after : List EngineEvent} (h : u.Sound)
    (hbefore : .stop ∈ before)
    (hr : u.run (before ++ .settle settings (.ok report) now :: after) = some u') :
    ∃ p, u'.engine.pool? = some p ∧ p.closed = false ∧ p.retired = [] ∧
      p.idle.length = settings.poolSize := by
  obtain ⟨v, hv, hrest⟩ := run_append_eq_some.mp hr
  obtain ⟨w, hstep, hafter⟩ := run_cons_eq_some.mp hrest
  obtain ⟨hstarting, hstopped, hpool⟩ := pool?_of_settle (sound_run h hv) hstep
  obtain ⟨time, htime⟩ :=
    opened_run (hstopped.trans (stopped_of_mem hbefore hv)) hstarting hpool hafter
  refine ⟨_, htime, rfl, rfl, ?_⟩
  simp [Pool.opened]

/-! ### Both orders -/

/-- A state that was published before the first stop is handed out by exactly one stop, and a state
that was published after it by none.  So it is with engines, whatever else happens: the pool of a
start that succeeds before the first stop is closed by that stop, with no worker left idle, and all
that were idle are shut down; the pool of a start that succeeds after the first stop stays open,
with all its workers idle and none shut down. -/
theorem published_before_or_after_stop {σ : Type} {name : String} {s : σ}
    {users : LifecycleUsers σ} {opening closing : List (LifecycleEvent σ)}
    {before after : List EngineEvent}
    (hl : (LifecycleUsers.new name).run (opening ++ .publish s :: closing) = some users)
    (hnew : engine.lifecycle = .new engine.name)
    (hr : (new engine).run (before ++ .settle settings (.ok report) now :: after) = some u) :
    (.stop ∉ opening → .stop ∈ closing → users.handed = [s]) ∧
    (.stop ∈ opening → users.handed = []) ∧
    (.stop ∉ before → .stop ∈ after → ∃ mid late v p p', after = mid ++ .stop :: late ∧
      (new engine).run (before ++ .settle settings (.ok report) now :: mid) = some v ∧
      v.engine.pool? = some p ∧ u.engine.pool? = some p' ∧ p'.closed = true ∧ p'.idle = [] ∧
      p'.closing = [] ∧ p.idle ⊆ p'.retired) ∧
    (.stop ∈ before → ∃ p, u.engine.pool? = some p ∧ p.closed = false ∧ p.retired = [] ∧
      p.idle.length = settings.poolSize) := by
  have hsound := sound_new hnew
  refine ⟨LifecycleUsers.handed_of_publish_before hl, LifecycleUsers.handed_of_stop_before hl,
    fun hbefore hafter => ?_, fun hbefore => open_of_settle_after hsound hbefore hr⟩
  obtain ⟨mid, late, rfl, hmid⟩ := List.eq_append_cons_of_mem hafter
  have hopen : (new engine).engine.lifecycle.stopped = false := by
    rw [new, hnew]
    rfl
  rw [← List.cons_append, ← List.append_assoc] at hr
  obtain ⟨v, p, p', hv, hp, hp', hshut⟩ := shut_of_settle_before hsound hopen hbefore hmid hr
  exact ⟨mid, late, v, p, p', rfl, hv, hp, hp', hshut.closed, hshut.used.idle_eq hshut.closed,
    hshut.closing_eq, hshut.retired⟩

/-- A stop comes while an interpreter is being started: no stop hands out the state, and the pool
stays open. -/
theorem open_after_stop_during_start :
    (∃ users, (LifecycleUsers.new "lua").run [.claim, .stop, .publish 1, .stop] = some users ∧
      users.handed = []) ∧
    ∃ u p, (new (.interpreter .python)).run
        [.claim, .stop, .settle (.new "python" "3") (.ok ⟨"Python 3.12.0", ""⟩) 0, .stop] =
          some u ∧ u.starting = false ∧ u.engine.lifecycle.stopped = true ∧
      u.engine.pool? = some p ∧ p.closed = false ∧ p.idle ≠ [] :=
  ⟨⟨_, rfl, rfl⟩, _, _, rfl, rfl, rfl, rfl, rfl, by decide +kernel⟩

/-- The start of an interpreter succeeds first, and the stop comes after it. -/
theorem published_before_or_after_stop_in_order :
    ∃ users u p, (LifecycleUsers.new "lua").run [.claim, .publish 1, .stop, .stop] = some users ∧
      users.handed = [1] ∧
      (new (.interpreter .python)).run
        [.claim, .settle (.new "python" "3") (.ok ⟨"Python 3.12.0", ""⟩) 0, .stop] = some u ∧
      u.engine.pool? = some p ∧ p.closed = true ∧ p.idle = [] := by
  obtain ⟨users, hl⟩ : ∃ users, (LifecycleUsers.new "lua").run
      ([.claim] ++ .publish 1 :: [.stop, .stop]) = some users := ⟨_, rfl⟩
  obtain ⟨u, hr⟩ : ∃ u, (new (.interpreter .python)).run
      ([.claim] ++ .settle (.new "python" "3") (.ok ⟨"Python 3.12.0", ""⟩) 0 :: [.stop]) = some u :=
    ⟨_, rfl⟩
  obtain ⟨hhanded, -, hshut, -⟩ := published_before_or_after_stop hl rfl hr
  obtain ⟨mid, late, v, p, p', -, -, -, hp', hclosed, hidle, -⟩ :=
    hshut (by simp) (by simp)
  exact ⟨users, u, p', hl, hhanded (by simp) (by simp), hr, hp', hclosed, hidle⟩

end EngineUsers

end LanguageHost
