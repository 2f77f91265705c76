import LanguageHost.Proofs.Pool.JobEvents

/-!
# What has become of an operation

After its operation was started a job meets few events, and they follow each other in one of the
ways that `Fate` lists: the operation ends, and the worker is given back; or it is given up, and
then the worker is shut down, counted as replaced, and replaced, unless the pool is closed or no
new worker can be made; or it panics as it is called, and the worker is lost.  What the pool counts
is said of the states between which each event came.

An event that is not about the job leaves the fate as it is (`Fate.keep`), an event of the job
takes it one turn on (`Fate.turn`), and a token that fires tells an operation under way to stop
(`Fate.fires`).  So every operation of every run has a fate (`fate_run`), by induction on the run.
-/

namespace LanguageHost

namespace Pool

variable {p₀ p q q' : Pool} {e : PoolEvent} {es rest : List PoolEvent} {t : Ticket} {w : Worker}
variable {j : Job}

/-! ### The events of an operation, one after the other -/

/-- An event comes in a run, between these states. -/
def Happens (p₀ : Pool) (es : List PoolEvent) (e : PoolEvent) (q q' : Pool) : Prop :=
  ∃ before after, es = before ++ e :: after ∧ p₀.run before = some q ∧ q.step e = some q'

theorem Happens.concat (h : Happens p₀ es e q q') (e' : PoolEvent) :
    Happens p₀ (es ++ [e']) e q q' := by
  obtain ⟨before, after, rfl, hq, hs⟩ := h
  exact ⟨before, after ++ [e'], by simp, hq, hs⟩

/-- In a run an event comes to a job that stands so. -/
structure Meets (p₀ : Pool) (es : List PoolEvent) (j : Job) (e : PoolEvent) (q q' : Pool) :
    Prop where
  happens : Happens p₀ es e q q'
  job : q.job? j.ticket = some j

theorem Meets.concat (h : Meets p₀ es j e q q') (e' : PoolEvent) :
    Meets p₀ (es ++ [e']) j e q q' := ⟨h.happens.concat e', h.job⟩

theorem meets_last (hq : p₀.run es = some q) (hs : q.step e = some q')
    (hj : q.job? j.ticket = some j) : Meets p₀ (es ++ [e]) j e q q' := ⟨⟨es, [], rfl, hq, hs⟩, hj⟩

/-- An operation was told to stop if its token has fired, and has the time of grace from then on. -/
def Told (p₀ : Pool) (es : List PoolEvent) (t : Ticket) (phase : JobPhase) : Prop :=
  phase = .running ∧ p₀.firesAt? t es = none ∨
    ∃ c, p₀.firesAt? t es = some c ∧ phase = .winding (c + p₀.grace)

/-- What came of asking for a new worker in the place of a worker, and by which events. -/
inductive Rebuilds (p₀ : Pool) (es : List PoolEvent) (p : Pool) (t : Ticket) (w : Worker) :
    List PoolEvent → Prop where
  | asked (hjob : p.job? t = some ⟨t, w, .rebuilding⟩) : Rebuilds p₀ es p t w []
  | built {e : PoolEvent} {q q' : Pool} (hmeets : Meets p₀ es ⟨t, w, .rebuilding⟩ e q q')
      (hbuilt : Rebuilt q ⟨t, w, .rebuilding⟩ e q') (hjob : p.job? t = q'.job? t) :
      Rebuilds p₀ es p t w [e]
  | discarded {q q' q₁ q₁' : Pool}
      (hmeets : Meets p₀ es ⟨t, w, .rebuilding⟩ (.built t true) q q') (hclosed : q.closed = true)
      (hbuilt : Rebuilt q ⟨t, w, .rebuilding⟩ (.built t true) q')
      (hdown : Meets p₀ es ⟨t, q.replacement w, .discarding⟩ (.jobDown t) q₁ q₁')
      (hclears : Clears q₁ ⟨t, q.replacement w, .discarding⟩ (.jobDown t) q₁')
      (hjob : p.job? t = none) : Rebuilds p₀ es p t w [.built t true, .jobDown t]

/-- What became of a worker whose operation was given up, and by which events. -/
inductive Replaces (p₀ : Pool) (es : List PoolEvent) (p : Pool) (t : Ticket) (w : Worker) :
    List PoolEvent → Prop where
  | retiring (hjob : p.job? t = some ⟨t, w, .retiring⟩) : Replaces p₀ es p t w []
  | unreplaced {q q' : Pool} (hmeets : Meets p₀ es ⟨t, w, .retiring⟩ (.jobDown t) q q')
      (hclosed : q.closed = true) (hchanges : Changes q q' 1 1 [] [] [])
      (hjob : p.job? t = none) : Replaces p₀ es p t w [.jobDown t]
  | rebuilding {q q' : Pool} {rest : List PoolEvent}
      (hmeets : Meets p₀ es ⟨t, w, .retiring⟩ (.jobDown t) q q') (hopen : q.closed = false)
      (hchanges : Changes q q' 0 1 [] [] []) (hrest : Rebuilds p₀ es p t w rest) :
      Replaces p₀ es p t w (.jobDown t :: rest)

/-- What has become of an operation and of the worker on which it was started.  The events of its
job are those that are named here and no others. -/
inductive Fate (p₀ : Pool) (es : List PoolEvent) (p : Pool) (t : Ticket) (w : Worker) : Prop where
  | underWay {phase : JobPhase} (hcourse : course t es = []) (hop : phase.operating = true)
      (hjob : p.job? t = some ⟨t, w, phase⟩) (htold : Told p₀ es t phase)
  | givenBack {e : PoolEvent} {phase : JobPhase} {q q' : Pool} (hcourse : course t es = [e])
      (hmeets : Meets p₀ es ⟨t, w, phase⟩ e q q') (hback : GivesBack q ⟨t, w, phase⟩ e q')
      (hjob : p.job? t = q'.job? t)
  /-- It was given back to a closed pool, which has shut it down. -/
  | shut {r : Outcome Json} {phase : JobPhase} {q q' q₁ q₁' : Pool}
      (hcourse : course t es = [.finish t r, .jobDown t])
      (hmeets : Meets p₀ es ⟨t, w, phase⟩ (.finish t r) q q') (hclosed : q.closed = true)
      (hback : GivesBack q ⟨t, w, phase⟩ (.finish t r) q')
      (hdown : Meets p₀ es ⟨t, w, .returning r⟩ (.jobDown t) q₁ q₁')
      (hclears : Clears q₁ ⟨t, w, .returning r⟩ (.jobDown t) q₁') (hjob : p.job? t = none)
  | givenUp {e : PoolEvent} {phase : JobPhase} {q q' : Pool} {rest : List PoolEvent}
      (hcourse : course t es = e :: rest) (hmeets : Meets p₀ es ⟨t, w, phase⟩ e q q')
      (hup : GivesUp q ⟨t, w, phase⟩ e q') (hrest : Replaces p₀ es p t w rest)
  /-- It panicked as it was called, and nobody knows of its worker any more. -/
  | lost {phase : JobPhase} {q q' : Pool} (hcourse : course t es = [.crash t])
      (hmeets : Meets p₀ es ⟨t, w, phase⟩ (.crash t) q q')
      (hcrash : Crashes q ⟨t, w, phase⟩ (.crash t) q') (hjob : p.job? t = none)

/-! #### Events that are not about the job -/

theorem Rebuilds.keep (h : Rebuilds p₀ es q t w rest) (e : PoolEvent)
    (hjobs : q'.job? t = q.job? t) : Rebuilds p₀ (es ++ [e]) q' t w rest := by
  cases h with
  | asked hjob => exact .asked (hjobs.trans hjob)
  | built hmeets hbuilt hjob => exact .built (hmeets.concat e) hbuilt (hjobs.trans hjob)
  | discarded hmeets hclosed hbuilt hdown hclears hjob =>
    exact .discarded (hmeets.concat e) hclosed hbuilt (hdown.concat e) hclears (hjobs.trans hjob)

theorem Replaces.keep (h : Replaces p₀ es q t w rest) (e : PoolEvent)
    (hjobs : q'.job? t = q.job? t) : Replaces p₀ (es ++ [e]) q' t w rest := by
  cases h with
  | retiring hjob => exact .retiring (hjobs.trans hjob)
  | unreplaced hmeets hclosed hchanges hjob =>
    exact .unreplaced (hmeets.concat e) hclosed hchanges (hjobs.trans hjob)
  | rebuilding hmeets hopen hchanges hrest =>
    exact .rebuilding (hmeets.concat e) hopen hchanges (hrest.keep e hjobs)

theorem Fate.keep (h : Fate p₀ es q t w) (he : e.moves t = false) (hjobs : q'.job? t = q.job? t)
    (htold : ∀ j, q.job? t = some j → Told p₀ es t j.phase → Told p₀ (es ++ [e]) t j.phase) :
    Fate p₀ (es ++ [e]) q' t w := by
  have hsame : course t (es ++ [e]) = course t es := course_concat_of_not he
  cases h with
  | underWay hcourse hop hjob htold' =>
    exact .underWay (hsame.trans hcourse) hop (hjobs.trans hjob) (htold _ hjob htold')
  | givenBack hcourse hmeets hback hjob =>
    exact .givenBack (hsame.trans hcourse) (hmeets.concat e) hback (hjobs.trans hjob)
  | shut hcourse hmeets hclosed hback hdown hclears hjob =>
    exact .shut (hsame.trans hcourse) (hmeets.concat e) hclosed hback (hdown.concat e) hclears
      (hjobs.trans hjob)
  | givenUp hcourse hmeets hup hrest =>
    exact .givenUp (hsame.trans hcourse) (hmeets.concat e) hup (hrest.keep e hjobs)
  | lost hcourse hmeets hcrash hjob =>
    exact .lost (hsame.trans hcourse) (hmeets.concat e) hcrash (hjobs.trans hjob)

/-! #### Events of the job -/

theorem Rebuilds.turn (h : Rebuilds p₀ es q t w rest) (hq : p₀.run es = some q)
    (hs : q.step e = some q') (hj : q.job? t = some j) (hturn : Turn q j e q') :
    Rebuilds p₀ (es ++ [e]) q' t w (rest ++ [e]) := by
  cases h with
  | asked hjob =>
    obtain rfl := Option.some.inj (hj.symm.trans hjob)
    exact .built (meets_last hq hs hj) hturn.of_rebuilding rfl
  | built hmeets hbuilt hjob =>
    cases hbuilt with
    | placed _ _ hnone => cases hnone.symm.trans (hjob.symm.trans hj)
    | failed _ _ hnone => cases hnone.symm.trans (hjob.symm.trans hj)
    | late hclosed hchanges hlate =>
      obtain rfl := Option.some.inj (hj.symm.trans (hjob.trans hlate))
      have hclears := hturn.of_clearing (.inl rfl)
      obtain rfl := hclears.event
      exact .discarded (hmeets.concat _) hclosed (.late hclosed hchanges hlate)
        (meets_last hq hs hj) hclears hclears.job
  | discarded _ _ _ _ _ hjob => cases hjob.symm.trans hj

theorem Replaces.turn (h : Replaces p₀ es q t w rest) (hq : p₀.run es = some q)
    (hs : q.step e = some q') (hj : q.job? t = some j) (hturn : Turn q j e q') :
    Replaces p₀ (es ++ [e]) q' t w (rest ++ [e]) := by
  cases h with
  | retiring hjob =>
    obtain rfl := Option.some.inj (hj.symm.trans hjob)
    cases hturn.of_retiring with
    | unreplaced hclosed hchanges hnone =>
      exact .unreplaced (meets_last hq hs hj) hclosed hchanges hnone
    | rebuilding hopen hchanges hjob' =>
      exact .rebuilding (meets_last hq hs hj) hopen hchanges (.asked hjob')
  | unreplaced _ _ _ hjob => cases hjob.symm.trans hj
  | rebuilding hmeets hopen hchanges hrest =>
    exact .rebuilding (hmeets.concat e) hopen hchanges (hrest.turn hq hs hj hturn)

theorem Fate.turn (h : Fate p₀ es q t w) (hq : p₀.run es = some q) (hs : q.step e = some q')
    (he : e.moves t = true) (hj : q.job? t = some j) (hturn : Turn q j e q') :
    Fate p₀ (es ++ [e]) q' t w := by
  have hmore : course t (es ++ [e]) = course t es ++ [e] := course_concat_of_moves he
  cases h with
  | underWay hcourse hop hjob =>
    obtain rfl := Option.some.inj (hj.symm.trans hjob)
    rw [hcourse] at hmore
    rcases hturn.of_operating hop with hback | hup | hcrash
    · exact .givenBack hmore (meets_last hq hs hj) hback rfl
    · exact .givenUp hmore (meets_last hq hs hj) hup (.retiring hup.job)
    · obtain rfl := hcrash.event
      exact .lost hmore (meets_last hq hs hj) hcrash hcrash.job
  | givenBack hcourse hmeets hback hjob =>
    cases hback with
    | idle _ _ hnone => cases hnone.symm.trans (hjob.symm.trans hj)
    | closed hclosed hchanges hret =>
      obtain rfl := Option.some.inj (hj.symm.trans (hjob.trans hret))
      have hclears := hturn.of_clearing (.inr ⟨_, rfl⟩)
      obtain rfl := hclears.event
      rw [hcourse] at hmore
      exact .shut hmore (hmeets.concat _) hclosed (.closed hclosed hchanges hret)
        (meets_last hq hs hj) hclears hclears.job
  | shut _ _ _ _ _ _ hjob => cases hjob.symm.trans hj
  | givenUp hcourse hmeets hup hrest =>
    rw [hcourse] at hmore
    exact .givenUp hmore (hmeets.concat e) hup (hrest.turn hq hs hj hturn)
  | lost _ _ _ hjob => cases hjob.symm.trans hj

/-! #### Every event -/

/-- A job that has an operation under way is at its beginning. -/
theorem Fate.of_operating (h : Fate p₀ es q t w) (hj : q.job? t = some j)
    (hop : j.phase.operating = true) :
    course t es = [] ∧ j = ⟨t, w, j.phase⟩ ∧ Told p₀ es t j.phase := by
  have hother : ∀ {k}, q.job? t = some k → k.phase.operating = false → False := fun hk hnot => by
    obtain rfl := Option.some.inj (hj.symm.trans hk)
    cases hop.symm.trans hnot
  cases h with
  | underWay hcourse _ hjob htold =>
    obtain rfl := Option.some.inj (hj.symm.trans hjob)
    exact ⟨hcourse, rfl, htold⟩
  | givenBack _ _ hback hjob =>
    cases hback with
    | idle _ _ hnone => cases hj.symm.trans (hjob.trans hnone)
    | closed _ _ hret => exact (hother (hjob.trans hret) rfl).elim
  | shut _ _ _ _ _ _ hjob => cases hj.symm.trans hjob
  | givenUp _ _ _ hrest =>
    cases hrest with
    | retiring hjob => exact (hother hjob rfl).elim
    | unreplaced _ _ _ hjob => cases hj.symm.trans hjob
    | rebuilding _ _ _ hrest =>
      cases hrest with
      | asked hjob => exact (hother hjob rfl).elim
      | built _ hbuilt hjob =>
        cases hbuilt with
        | placed _ _ hnone => cases hj.symm.trans (hjob.trans hnone)
        | late _ _ hlate => exact (hother (hjob.trans hlate) rfl).elim
        | failed _ _ hnone => cases hj.symm.trans (hjob.trans hnone)
      | discarded _ _ _ _ _ hjob => cases hj.symm.trans hjob
  | lost _ _ _ hjob => cases hj.symm.trans hjob

/-- The token of an operation under way fires, and it is told to stop. -/
theorem Fate.told (h : Fate p₀ es q t w) (hq : p₀.run es = some q) (he : e.fires t = true)
    (hmoves : e.moves t = false) (hj : q.job? t = some j) (hp : j.phase = .running)
    (hjob : q'.job? t = some { j with phase := .winding (q.now + q.grace) }) :
    Fate p₀ (es ++ [e]) q' t w := by
  obtain ⟨hcourse, hworker, htold⟩ := h.of_operating hj (by rw [hp]; rfl)
  have hnone : p₀.firesAt? t es = none := by
    rcases htold with ⟨-, hnone⟩ | ⟨c, -, hwinding⟩
    · exact hnone
    · cases hp.symm.trans hwinding
  have hc : p₀.firesAt? t (es ++ [e]) = some q.now := by
    rw [firesAt?_concat_of_fires hq he, hnone, Option.none_or]
  rw [hworker] at hjob
  exact .underWay ((course_concat_of_not hmoves).trans hcourse) rfl hjob
    (.inr ⟨q.now, hc, by rw [grace_run hq]⟩)

/-- The token of an operation fires: if it is under way, it is told to stop. -/
theorem Fate.fires (h : Fate p₀ es q t w) (hq : p₀.run es = some q) (he : e.fires t = true)
    (ho : q.Occurs e q') : Fate p₀ (es ++ [e]) q' t w := by
  rcases eq_fire_of_fires he with rfl | rfl
  · cases ho with
    | fire hr hf hnot =>
      refine h.keep rfl rfl fun j hj htold => ?_
      rcases htold with ⟨hp, -⟩ | ⟨c, hc, hp⟩
      · exact absurd hp (hnot j hj)
      · exact .inr ⟨c, by rw [firesAt?_concat_of_fires hq he, hc, Option.some_or], hp⟩
    | fireRunning hr hf hj hp =>
      exact h.told hq he rfl hj hp (job?_setPhase_self (p := { q with fired := t :: q.fired }) _ hj)
  · cases ho with
    | fireOwn hj hp =>
      exact h.told hq he rfl hj hp
        (job?_setPhase_self (p := { q with ownFired := t :: q.ownFired }) _ hj)

/-- Only whoever has a permit takes a worker. -/
theorem granted_of_take (h : q.step (.take t) = some q') : t ∈ q.granted := by
  have hoccurs := occurs_of_step h
  cases hoccurs with
  | takeFired hg => exact hg
  | takeClosed hg => exact hg
  | takeNothing hg => exact hg
  | takeRun hg => exact hg
  | takeHeld hg => exact hg

/-- A ticket takes nothing once its operation was started. -/
theorem not_take_of_started (ho : q.Orderly) (hw : (t, w) ∈ q.started)
    (h : q.step (.take t) = some q') : False :=
  not_started_of_members ho (mem_members.mpr (.inr (granted_of_take h))) (List.mem_map_of_mem hw)

/-- Once an operation was started, an event is about its job only if that goes on or the token
fires. -/
theorem jobTicket?_ne_of_started (ho : q.Orderly) (hw : (t, w) ∈ q.started)
    (hs : q.step e = some q') (hmoves : e.moves t = false) (hfires : e.fires t = false) :
    e.jobTicket? ≠ some t := fun hticket => by
  cases e with
  | fire u => cases (decide_eq_true (Option.some.inj hticket)).symm.trans hfires
  | fireOwn u => cases (decide_eq_true (Option.some.inj hticket)).symm.trans hfires
  | take u =>
    obtain rfl : u = t := Option.some.inj hticket
    exact not_take_of_started ho hw hs
  | finish u r => cases (decide_eq_true (Option.some.inj hticket)).symm.trans hmoves
  | panic u => cases (decide_eq_true (Option.some.inj hticket)).symm.trans hmoves
  | crash u => cases (decide_eq_true (Option.some.inj hticket)).symm.trans hmoves
  | expire u => cases (decide_eq_true (Option.some.inj hticket)).symm.trans hmoves
  | jobDown u => cases (decide_eq_true (Option.some.inj hticket)).symm.trans hmoves
  | built u made => cases (decide_eq_true (Option.some.inj hticket)).symm.trans hmoves
  | _ => cases hticket

theorem fate_step {n failed : Nat} (ho : q.Orderly) (ha : Accounted n failed q)
    (hf : Fate p₀ es q t w) (hw : (t, w) ∈ q.started) (hq : p₀.run es = some q)
    (hs : q.step e = some q') : Fate p₀ (es ++ [e]) q' t w := by
  have hoccurs := occurs_of_step hs
  cases hmoves : e.moves t with
  | true =>
    obtain ⟨j, hj, hturn⟩ := turn_of_step ho ha hoccurs hmoves
    exact hf.turn hq hs hmoves hj hturn
  | false =>
    cases hfires : e.fires t with
    | true => exact hf.fires hq hfires hoccurs
    | false =>
      have hother := jobTicket?_ne_of_started ho hw hs hmoves hfires
      refine hf.keep hmoves (job?_step_of_ne hoccurs hother).1 fun j _ htold => ?_
      rwa [Told, firesAt?_concat_of_not hq hfires]

/-- Nothing comes to the job of a ticket whose operation was not started. -/
theorem course_eq_nil {n : Nat} (h₀ : Fresh n p₀) (h : p₀.run es = some q)
    (hnot : t ∉ q.started.map Prod.fst) : course t es = [] := by
  refine run_induction (motive := fun es q => t ∉ q.started.map Prod.fst → course t es = [])
    (fun _ => rfl) ?_ h hnot
  intro es q e q' hq hcourse hs hnot
  obtain ⟨ho, ha⟩ := accounted_run h₀ hq
  have hoccurs := occurs_of_step hs
  have hbefore : t ∉ q.started.map Prod.fst := fun hmem =>
    hnot (((started_suffix hoccurs).map Prod.fst).subset hmem)
  cases hmoves : e.moves t with
  | true =>
    obtain ⟨j, hj, -⟩ := turn_of_step ho ha hoccurs hmoves
    exact absurd (ticket_eq_of_job? hj ▸ ho.job_started j (mem_jobs_of_job? hj)) hbefore
  | false => exact (course_concat_of_not hmoves).trans (hcourse hbefore)

/-- An operation that has just been started is under way, and was not told to stop. -/
theorem fate_of_starts {n : Nat} (h₀ : Fresh n p₀) (hq : p₀.run es = some q)
    (hs : q.step e = some q') (hw : (t, w) ∈ q'.started) (hnew : (t, w) ∉ q.started) :
    Fate p₀ (es ++ [e]) q' t w := by
  have ho := (accounted_run h₀ hq).1
  have hoccurs := occurs_of_step hs
  cases hoccurs with
  | takeRun hg hf _ _ hr =>
    obtain ⟨rfl, rfl⟩ := Prod.mk.inj ((List.mem_cons.mp hw).resolve_right hnew)
    have hnot := not_started_of_members ho (mem_members.mpr (.inr hg))
    have hnone : q.job? t = none := List.find?_eq_none.mpr fun k hk hkt =>
      hnot ((of_decide_eq_true hkt) ▸ ho.job_started k hk)
    have hquiet : t ∉ q.fired := fun hmem => by
      cases (hasFired_iff.mpr ⟨hr, hmem⟩).symm.trans hf
    have hcourse : course t (es ++ [.take t]) = [] :=
      (course_concat_of_not rfl).trans (course_eq_nil h₀ hq hnot)
    have hunfired : p₀.firesAt? t es = none := Option.eq_none_iff_forall_ne_some.mpr fun _ hc =>
      (fired_or_started_of_firesAt? h₀ hq hc).elim hquiet hnot
    have htold : Told p₀ (es ++ [.take t]) t .running :=
      .inl ⟨rfl, (firesAt?_concat_of_not hq rfl).trans hunfired⟩
    refine .underWay hcourse (by rfl) ?_ htold
    have hlast : [(⟨t, w, .running⟩ : Job)].find? (fun j => j.ticket = t) =
        some ⟨t, w, .running⟩ := by simp
    rw [job?] at hnone
    rw [job?, List.find?_append, hnone, Option.none_or, hlast]
  | _ => exact absurd hw hnew

/-- Every operation has one of these fates. -/
theorem fate_run {n : Nat} (h₀ : Fresh n p₀) (h : p₀.run es = some p) :
    ∀ t w, (t, w) ∈ p.started → Fate p₀ es p t w := by
  refine run_induction (motive := fun es q => ∀ t w, (t, w) ∈ q.started → Fate p₀ es q t w) ?_ ?_ h
  · obtain ⟨-, name, grace, now, rfl⟩ := fresh_eq h₀
    exact nofun
  · intro es q e q' hq hfate hs t w hw
    obtain ⟨ho, ha⟩ := accounted_run h₀ hq
    by_cases hold : (t, w) ∈ q.started
    · exact fate_step ho ha (hfate t w hold) hold hq hs
    · exact fate_of_starts h₀ hq hs hw hold

/-- An operation that is under way was told to stop if its token has fired. -/
theorem told_of_operating {n : Nat} (h₀ : Fresh n p₀) (h : p₀.run es = some q)
    (hj : q.job? t = some j) (hop : j.phase.operating = true) : Told p₀ es t j.phase := by
  have hstarted := (accounted_run h₀ h).1.job_started j (mem_jobs_of_job? hj)
  rw [ticket_eq_of_job? hj] at hstarted
  obtain ⟨⟨u, w⟩, hw, rfl⟩ := List.mem_map.mp hstarted
  exact ((fate_run h₀ h u w hw).of_operating hj hop).2.2

end Pool

end LanguageHost
