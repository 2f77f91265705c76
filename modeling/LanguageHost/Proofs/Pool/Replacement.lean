import LanguageHost.Proofs.Pool.Fates

/-!
# What becomes of the worker of an operation

An operation ends by itself, or it is given up: because it panics, or because it is still under way
when its time to end is over.  In the first case the pool gets the worker back, in the second one
it replaces the worker.  An operation that panics as it is called, before there is anything to
watch, is not given up: its worker is lost, and nothing comes in its place
(`not_replaced_after_crash`).  `operation_fate` says so of every operation, from the start of it on.

What is added here to the fates of operations is about others and about time.  If the last worker
is lost, the pool is closed, and whoever waits for a worker is told so (`Failing`).  And if nothing
comes too late, which `punctual` decides, an operation is under way only as long as its time is not
over, because that is kept by every step (`inTime_step`).
-/

namespace LanguageHost

namespace Pool

variable {p₀ p q q' : Pool} {e : PoolEvent} {es : List PoolEvent} {t u : Ticket} {w : Worker}
variable {j : Job}

/-! ### Callers who wait when the last worker is lost -/

/-- A caller that waited for a worker when the pool was closed never gets one: it was told that the
pool is closed, or can be told so at once. -/
structure Failing (u : Ticket) (p : Pool) : Prop where
  uncancelled : u ∉ p.fired
  not_started : u ∉ p.started.map Prod.fst
  not_held : u ∉ p.held.map Prod.fst
  told : p.answer? u = some (.error .poolClosed) ∨ u ∈ p.members ∧
    ∃ e p', (e = .learn u ∨ e = .take u) ∧ p.step e = some p' ∧
      p'.answer? u = some (.error .poolClosed)

theorem fired_runs {n : Nat} (h₀ : Fresh n p₀) (h : p₀.run es = some p) :
    ∀ t ∈ p.fired, t ∈ p.runs := by
  refine run_induction (motive := fun _ q => ∀ t ∈ q.fired, t ∈ q.runs) ?_ ?_ h
  · obtain ⟨-, name, grace, now, rfl⟩ := fresh_eq h₀
    exact nofun
  · intro es q e q' _ hfired hs t ht
    have hoccurs := occurs_of_step hs
    have hold : t ∈ q.fired → t ∈ q'.runs := fun hmem => runs_subset hoccurs (hfired t hmem)
    cases hoccurs with
    | askFired =>
      rcases List.mem_cons.mp ht with rfl | hmem
      · exact List.mem_cons_self
      · exact hold hmem
    | fire hr =>
      rcases List.mem_cons.mp ht with rfl | hmem
      · exact hr
      · exact hold hmem
    | fireRunning hr =>
      rcases List.mem_cons.mp ht with rfl | hmem
      · exact hr
      · exact hold hmem
    | _ => exact hold ht

/-- Nobody is handed a worker of a closed pool. -/
theorem held_step_of_closed (h : q.Occurs e q') (hc : q.closed = true) : q'.held ⊆ q.held := by
  cases h with
  | takeHeld _ _ hopen => cases hopen.symm.trans hc
  | releaseOpen => exact List.filter_subset_self _
  | releaseClosed => exact List.filter_subset_self _
  | _ => exact List.Subset.refl _

/-- A caller that waits for a worker when the pool is closed fails. -/
theorem failing_of_members (hu : q.Used) (hc : q.closed = true) (hmember : u ∈ q.members)
    (hnot : u ∉ q.fired) : Failing u q where
  uncancelled := hnot
  not_started := not_started_of_members hu.orderly hmember
  not_held := fun hheld => List.disjoint_of_nodup_append hu.orderly.claims_nodup hmember
    (List.mem_append_left _ hheld)
  told := .inr ⟨hmember, learns_closed hu.orderly hc hnot hmember⟩

theorem Failing.asked (h : Failing u q) (ho : q.Orderly) : u < q.asked := by
  refine ho.callers_asked u ?_
  rcases h.told with htold | ⟨hmember, -⟩
  · obtain ⟨a, hfind, -⟩ := Option.map_eq_some_iff.mp htold
    have hticket : a.1 = u := by simpa using List.find?_some hfind
    have hanswer : u ∈ q.answers.map Prod.fst :=
      hticket ▸ List.mem_map_of_mem (List.mem_of_find?_eq_some hfind)
    exact List.mem_append_right _ (List.mem_append_right _ hanswer)
  · exact List.mem_append_left _ hmember

theorem Failing.step (h : Failing u q) (hu : q.Used) (hc : q.closed = true)
    (hs : q.step e = some q') (hfire : e ≠ .fire u) (hstays : e ≠ .withdraw u) :
    Failing u q' := by
  have hoccurs := occurs_of_step hs
  have hfired : u ∉ q'.fired :=
    not_fired_step hoccurs (h.asked hu.orderly) hfire h.uncancelled
  refine ⟨hfired, ?_, fun hheld => ?_, ?_⟩
  · rw [started_step_of_closed hoccurs hc]
    exact h.not_started
  · exact h.not_held (List.map_subset Prod.fst (held_step_of_closed hoccurs hc) hheld)
  rcases h.told with htold | ⟨hmember, -⟩
  · exact .inl (answer?_step hu.orderly hoccurs htold)
  rcases placed_step_of_closed hu hc hs hfired hstays hmember with hmember' | htold
  · exact .inr ⟨hmember',
      learns_closed (hu.step hs).orderly (closed_of_step hoccurs hc) hfired hmember'⟩
  · exact .inl htold

/-- Whoever waits in a closed pool fails, whatever else happens, unless its token fires or it goes
away. -/
theorem failing_run (hu : q.Used) (hc : q.closed = true) (hmember : u ∈ q.members)
    (hnot : q.hasFired u = false) (h : q.run es = some p) (hfire : .fire u ∉ es)
    (hstays : .withdraw u ∉ es) : Failing u p := by
  obtain ⟨n, p₀, before, h₀, hq⟩ := id hu
  have hquiet : u ∉ q.fired := fun hmem => by
    cases (hasFired_iff.mpr ⟨fired_runs h₀ hq u hmem, hmem⟩).symm.trans hnot
  refine (run_induction (motive := fun es p => .fire u ∉ es → .withdraw u ∉ es →
    Failing u p ∧ p.Used ∧ p.closed = true)
    (fun _ _ => ⟨failing_of_members hu hc hmember hquiet, hu, hc⟩) ?_ h hfire hstays).1
  intro es q e q' _ ih hs hfire hstays
  obtain ⟨hfailing, hu, hc⟩ := ih (fun hmem => hfire (List.mem_append_left _ hmem))
    fun hmem => hstays (List.mem_append_left _ hmem)
  refine ⟨hfailing.step hu hc hs ?_ ?_, hu.step hs, closed_of_step (occurs_of_step hs) hc⟩
  · exact fun heq => hfire (heq ▸ List.mem_append_right _ List.mem_cons_self)
  · exact fun heq => hstays (heq ▸ List.mem_append_right _ List.mem_cons_self)

/-! ### Time -/

/-- Whether nothing comes too late with an event: time does not pass the end of the time that an
operation under way has. -/
def inDue (p : Pool) : PoolEvent → Bool
  | .wait time => p.jobs.all fun j =>
    match j.phase with
    | .winding deadline => decide (time ≤ deadline)
    | _ => true
  | _ => true

/-- Whether nothing comes too late among events. -/
def punctual (p : Pool) : List PoolEvent → Bool
  | [] => true
  | e :: es => p.inDue e && (p.step e).all fun q => q.punctual es

theorem punctual_concat (h : p.run es = some q) (e : PoolEvent) :
    p.punctual (es ++ [e]) = (p.punctual es && (q.inDue e && (q.step e).all fun _ => true)) := by
  induction es generalizing p with
  | nil =>
    cases h
    rfl
  | cons e' es ih =>
    obtain ⟨p₁, hstep, hrest⟩ := Option.bind_eq_some_iff.mp h
    simp only [List.cons_append, punctual, hstep, Option.all_some, ih hrest, Bool.and_assoc]

theorem le_of_inDue {time deadline : Nat} (h : p.inDue (.wait time) = true)
    (hj : p.job? t = some j) (hp : j.phase = .winding deadline) : time ≤ deadline := by
  have hdue := List.all_eq_true.mp h j (mem_jobs_of_job? hj)
  rw [hp] at hdue
  exact of_decide_eq_true hdue

/-- As long as nothing comes too late, no operation under way is past its time. -/
def InTime (q : Pool) : Prop :=
  ∀ t j deadline, q.job? t = some j → j.phase = .winding deadline → q.now ≤ deadline

theorem inTime_step (hold : q.InTime) (h : q.Occurs e q') (hdue : q.inDue e = true) :
    q'.InTime := by
  intro t j deadline hj hp
  by_cases ht : e.jobTicket? = some t
  · -- Only waiting moves the time, and that is about no job.
    have hnow : q'.now = q.now := (now_step h).resolve_right fun ⟨time, heq, _⟩ => by
      rw [heq] at ht
      cases ht
    have hgone : ∀ {k}, q'.job? t = some k → (∀ d, k.phase ≠ .winding d) →
        q'.now ≤ deadline := fun hk hnot => by
      obtain rfl := Option.some.inj (hj.symm.trans hk)
      exact absurd hp (hnot deadline)
    have hnone : q'.job? t = none → q'.now ≤ deadline := fun hnone => by
      cases hnone.symm.trans hj
    cases jobStep_of_step h ht with
    | stays hjob => exact hnow ▸ hold t j deadline (hjob.symm.trans hj) hp
    | starts _ _ _ hjob =>
      rcases Option.or_eq_some_iff.mp (hjob.symm.trans hj) with hk | ⟨-, hk⟩
      · exact hnow ▸ hold t j deadline hk hp
      · cases hk
        cases hp
    | told _ _ _ hjob =>
      obtain rfl := Option.some.inj (hj.symm.trans hjob)
      obtain rfl := JobPhase.winding.inj hp
      exact Nat.le_add_right _ _
    | returning _ _ _ hjob => exact hgone hjob nofun
    | retiring _ _ hjob => exact hgone hjob nofun
    | rebuilding _ _ hjob => exact hgone hjob nofun
    | discarding _ _ _ _ hjob => exact hgone hjob nofun
    | back _ _ _ hjob => exact hnone hjob
    | lost _ _ hjob => exact hnone hjob
    | shut _ _ hjob => exact hnone hjob
    | replaced _ _ _ hjob => exact hnone hjob
    | shrunk _ _ hjob => exact hnone hjob
  · have hbefore : q.job? t = some j := (job?_step_of_ne h ht).1.symm.trans hj
    rcases now_step h with hsame | ⟨time, rfl, -, hnow⟩
    · exact hsame ▸ hold t j deadline hbefore hp
    · exact hnow ▸ le_of_inDue hdue hbefore hp

theorem inTime_run {n : Nat} (h₀ : Fresh n p₀) (h : p₀.run es = some p)
    (hpunctual : p₀.punctual es = true) : p.InTime := by
  refine run_induction (motive := fun es q => p₀.punctual es = true → q.InTime) ?_ ?_ h hpunctual
  · obtain ⟨-, name, grace, now, rfl⟩ := fresh_eq h₀
    exact fun _ => nofun
  · intro es q e q' hq hold hs hpunctual
    rw [punctual_concat hq, Bool.and_eq_true, Bool.and_eq_true] at hpunctual
    exact inTime_step (hold hpunctual.1) (occurs_of_step hs) hpunctual.2.1

theorem punctual_of_append {es' : List PoolEvent} (h : p.run es = some q)
    (hpunctual : p.punctual (es ++ es') = true) : p.punctual es = true := by
  induction es generalizing p with
  | nil => rfl
  | cons e es ih =>
    obtain ⟨p₁, hstep, hrest⟩ := Option.bind_eq_some_iff.mp h
    simp only [List.cons_append, punctual, hstep, Option.all_some, Bool.and_eq_true]
      at hpunctual ⊢
    exact ⟨hpunctual.1, ih hrest hpunctual.2⟩

/-- A token does not fire before the time. -/
theorem now_le_firesAt? {c : Nat} (h : p.firesAt? t es = some c) : p.now ≤ c := by
  induction es generalizing p with
  | nil => cases h
  | cons e es ih =>
    rw [firesAt?] at h
    split at h
    · exact Nat.le_of_eq (Option.some.inj h)
    · obtain ⟨q, hs, hc⟩ := Option.bind_eq_some_iff.mp h
      refine Nat.le_trans ?_ (ih hc)
      rcases now_step (occurs_of_step hs) with hsame | ⟨time, -, hlt, hnow⟩
      · exact Nat.le_of_eq hsame.symm
      · exact hnow ▸ Nat.le_of_lt hlt

/-- An operation under way whose token fires at some time in the run has time until then, and the
time of grace. -/
theorem now_le_of_operating {n c : Nat} (h₀ : Fresh n p₀) {after : List PoolEvent}
    (hq : p₀.run es = some q) (hpunctual : p₀.punctual es = true) (hj : q.job? t = some j)
    (hop : j.phase.operating = true) (hc : p₀.firesAt? t (es ++ after) = some c) :
    q.now ≤ c + p₀.grace := by
  rw [firesAt?_append _ after hq] at hc
  rcases told_of_operating h₀ hq hj hop with ⟨-, hnone⟩ | ⟨c', hsome, hp⟩
  · rw [hnone, Option.none_or] at hc
    exact Nat.le_trans (now_le_firesAt? hc) (Nat.le_add_right _ _)
  · rw [hsome, Option.some_or] at hc
    obtain rfl := Option.some.inj hc
    exact inTime_run h₀ hq hpunctual t j _ hj hp

/-- When an operation ends, if nothing comes too late: by itself before its token fires or within
the time of grace, dropped exactly when that time is over, and not later. -/
structure Timed (p₀ : Pool) (es : List PoolEvent) (p : Pool) (t : Ticket) : Prop where
  finished : ∀ r q q' c, Happens p₀ es (.finish t r) q q' → p₀.firesAt? t es = some c →
    q.now ≤ c + p₀.grace
  expired : ∀ q q', Happens p₀ es (.expire t) q q' →
    ∃ c, p₀.firesAt? t es = some c ∧ q.now = c + p₀.grace
  late : ∀ c j, p₀.firesAt? t es = some c → c + p₀.grace < p.now → p.job? t = some j →
    j.phase.operating = false

theorem timed_run {n : Nat} (h₀ : Fresh n p₀) (h : p₀.run es = some p)
    (hpunctual : p₀.punctual es = true) (t : Ticket) : Timed p₀ es p t where
  finished := by
    rintro r q q' c ⟨before, after, rfl, hq, hs⟩ hc
    have hoccurs := occurs_of_step hs
    have hbefore := punctual_of_append hq hpunctual
    cases hoccurs with
    | finishOpen hj hop => exact now_le_of_operating h₀ hq hbefore hj hop hc
    | finishClosed hj hop => exact now_le_of_operating h₀ hq hbefore hj hop hc
  expired := by
    rintro q q' ⟨before, after, rfl, hq, hs⟩
    have hoccurs := occurs_of_step hs
    have hbefore := punctual_of_append hq hpunctual
    cases hoccurs with
    | @expire _ j deadline hj hp hdue =>
      rcases told_of_operating h₀ hq hj (by rw [hp]; rfl) with ⟨hrunning, -⟩ | ⟨c, hc, hp'⟩
      · cases hrunning.symm.trans hp
      · obtain rfl := JobPhase.winding.inj (hp.symm.trans hp')
        refine ⟨c, ?_, Nat.le_antisymm (inTime_run h₀ hq hbefore t j _ hj hp) hdue⟩
        rw [firesAt?_append _ _ hq, hc, Option.some_or]
  late := by
    intro c j hc hlt hj
    by_contra hop
    rw [← List.append_nil es] at hc
    have := now_le_of_operating h₀ h hpunctual hj (by simpa using hop) hc
    omega

/-! ### What becomes of an operation -/

/-- For every operation of every run of a pool, whatever else happens: its worker is given back when
the operation ends by itself, or the operation is given up, the worker is shut down and counted as
replaced once, and then the pool loses it if it is closed, or asks once for a new one in its slot,
which becomes idle, or is shut down if it comes too late, or is missing; or the operation panicked
as it was called, and the worker is lost as it is (`Fate`).  Nothing keeps the job of the operation
from going on.  If nothing comes too late, operations end by themselves before the token fires or
within the time of grace, and are dropped exactly when that is over.  If the missing worker was the
last one the pool is closed, and everybody who waits is told so. -/
theorem operation_fate {n : Nat} (h₀ : Fresh n p₀) (h : p₀.run es = some p)
    (hw : (t, w) ∈ p.started) :
    Fate p₀ es p t w ∧
    (∀ j, p.job? t = some j →
      p.CanGoOn j ∧ (j.phase.operating = true → (p.step (.panic t)).isSome)) ∧
    (p₀.punctual es = true → Timed p₀ es p t) ∧
    (∀ q q', Happens p₀ es (.built t false) q q' → q'.closed = true →
      ∀ u ∈ q'.members, q'.hasFired u = false → ∀ later p', q'.run later = some p' →
        .fire u ∉ later → .withdraw u ∉ later → Failing u p') := by
  refine ⟨fate_run h₀ h t w hw, fun j hj => ⟨canGoOn hj, fun hop => ?_⟩,
    fun hpunctual => timed_run h₀ h hpunctual t, ?_⟩
  · simp [step, hj, hop]
  · rintro q q' ⟨before, after, -, hq, hs⟩ hc u hu hnot later p' hlater hfire hstays
    have hrun : p₀.run (before ++ [.built t false]) = some q' :=
      run_concat_eq_some.mpr ⟨q, hq, hs⟩
    have hused : q'.Used := ⟨n, p₀, _, h₀, hrun⟩
    exact failing_run hused hc hu hnot hlater hfire hstays

/-- The only worker of a pool has an operation that does not end in the time it is given, and cannot
be replaced, while somebody waits for it. -/
theorem operation_fate_of_last_worker :
    ∃ p₀ es p, Fresh 1 p₀ ∧
      es = [.askRun false, .take 0, .ask, .wait 5, .fire 0, .wait 15, .expire 0, .jobDown 0,
        .built 0 false] ∧
      p₀.run es = some p ∧ p₀.punctual es = true ∧ Fate p₀ es p 0 ⟨0, 0⟩ ∧ Timed p₀ es p 0 ∧
      p₀.firesAt? 0 es = some 5 ∧ p.replaced = 1 ∧ p.live = 0 ∧ p.closed = true ∧
      Failing 1 p := by
  let p₀ := opened "one" 10 0 (firstWorkers 1) 1
  let es : List PoolEvent := [.askRun false, .take 0, .ask, .wait 5, .fire 0, .wait 15, .expire 0,
    .jobDown 0]
  have h₀ : Fresh 1 p₀ := fresh_opened (by decide) "one" 10 0
  let p := (p₀.run (es ++ [.built 0 false])).get (by decide +kernel)
  have hrun : p₀.run (es ++ [.built 0 false]) = some p := (Option.some_get _).symm
  have hstarted : (0, ⟨0, 0⟩) ∈ p.started := by decide +kernel
  have hpunctual : p₀.punctual (es ++ [.built 0 false]) = true := by decide +kernel
  obtain ⟨hfate, -, htimed, hfails⟩ := operation_fate h₀ hrun hstarted
  obtain ⟨q, hq, hs⟩ := run_concat_eq_some.mp hrun
  have hfailing : Failing 1 p := hfails q p ⟨es, [], rfl, hq, hs⟩ (by decide +kernel) 1
    (by decide +kernel) (by decide +kernel) [] p rfl nofun nofun
  exact ⟨p₀, _, p, h₀, rfl, hrun, hpunctual, hfate, htimed hpunctual, by decide +kernel,
    by decide +kernel, by decide +kernel, by decide +kernel, hfailing⟩

/-- The operation on the only worker of a pool panics as it is called.  The worker is neither given
back nor shut down, nothing is counted as replaced, no new worker is made, and the open pool goes on
counting the one that is lost. -/
theorem not_replaced_after_crash :
    ∃ p₀ p, Fresh 1 p₀ ∧ p₀.run [.askRun false, .take 0, .crash 0] = some p ∧
      (0, ⟨0, 0⟩) ∈ p.started ∧ p.job? 0 = none ∧ p.idle = [] ∧ p.retired = [] ∧
      p.replaced = 0 ∧ p.made = p₀.made ∧ p.live = 1 ∧ p.closed = false := by
  let p₀ := opened "single" 10 0 (firstWorkers 1) 1
  let es : List PoolEvent := [.askRun false, .take 0, .crash 0]
  have h₀ : Fresh 1 p₀ := fresh_opened (by decide) "single" 10 0
  let p := (p₀.run es).get (by decide +kernel)
  have hrun : p₀.run es = some p := (Option.some_get _).symm
  have hjob : (p.job? 0).isNone = true := by decide +kernel
  exact ⟨p₀, p, h₀, hrun, by decide +kernel, Option.isNone_iff_eq_none.mp hjob, by decide +kernel,
    by decide +kernel, by decide +kernel, by decide +kernel, by decide +kernel,
    by decide +kernel⟩

end Pool

end LanguageHost
