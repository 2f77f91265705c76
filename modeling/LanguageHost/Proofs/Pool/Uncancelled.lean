import LanguageHost.Proofs.Pool.Dropped
import LanguageHost.Proofs.Pool.Replacement

/-!
# Runs that are not cancelled

A run whose token does not fire waits in line for a worker, works on it and has a result, or it was
turned away because the pool is closed (`Pool.Along`).  Its operation ends at most once, with the
result that is sent (`Pool.Ended`).  So what its caller learns is the one result with which the
operation has ended, or that the pool is closed, and then nothing was started:
`Pool.settled_of_learned`.
-/

namespace LanguageHost

/-- The result with which an event ends the operation of a ticket. -/
def PoolEvent.result? (t : Ticket) : PoolEvent → Option (Outcome Json)
  | .finish u result => if u = t then some result else none
  | _ => none

namespace Pool

variable {p q q' : Pool} {pe : PoolEvent} {t : Ticket} {w : Worker} {result : Outcome Json}
variable {results : List (Outcome Json)} {left : Bool}

theorem not_contains_of_unfired (hrun : t ∈ p.runs) (hnot : p.hasFired t = false) :
    p.fired.contains t = false := by
  have hcontains : p.runs.contains t = true := by simpa using hrun
  rwa [hasFired, hcontains, Bool.true_and] at hnot

theorem hasFired_step_eq_false (hrun : t ∈ p.runs) (ho : p.Orderly) (h : p.Occurs pe q)
    (hfire : pe ≠ .fire t) (hnot : p.hasFired t = false) : q.hasFired t = false := by
  have hfired : t ∉ p.fired := fun hmem => by
    cases hnot.symm.trans (hasFired_iff.mpr ⟨hrun, hmem⟩)
  refine Bool.eq_false_iff.mpr fun htrue => ?_
  exact not_fired_step h (ho.runs_asked t hrun) hfire hfired (hasFired_iff.mp htrue).2

/-! ### Operations that have ended -/

/-- The operation of a run has ended with a result, which was sent, or is sent as soon as the worker
has been shut down because the pool is closed. -/
inductive Ended (p : Pool) (t : Ticket) (result : Outcome Json) : Prop where
  | sent (hjob : p.job? t = none) (hsent : p.sent? t = some result)
  | returning {j : Job} (hjob : p.job? t = some j) (hphase : j.phase = .returning result)
    (hclosed : p.closed = true)

/-- The operation of a job that is under way ends. -/
theorem ended_finish {j : Job} (hj : p.job? t = some j) (hop : j.phase.operating = true)
    (result : Outcome Json) :
    ∃ q, p.step (.finish t result) = some q ∧ q.Ended t result ∧
      (p.closed = false → q.job? t = none ∧ q.sent? t = some result) := by
  obtain rfl := ticket_eq_of_job? hj
  refine ⟨p.finish j result, by simp only [step, hj, hop, if_true], ?_⟩
  unfold finish
  cases hclosed : p.closed with
  | true =>
    have hjob := job?_setPhase_self (p := (p.dropLive 1).retire j.worker) (.returning result) hj
    rw [if_pos rfl]
    exact ⟨.returning hjob rfl hclosed, fun hopen => by cases hopen⟩
  | false =>
    have hjob : (((p.endJob j.ticket).putBack j.worker).send j.ticket result).job? j.ticket =
        none := job?_endJob_self p j.ticket
    have hsent := sent?_send_self ((p.endJob j.ticket).putBack j.worker) j.ticket result
    rw [if_neg (by decide)]
    exact ⟨.sent hjob hsent, fun _ => ⟨hjob, hsent⟩⟩

namespace Ended

variable {j : Job}

/-- A job that is still there has nothing to do but to send the result. -/
theorem phase_eq (h : p.Ended t result) (hj : p.job? t = some j) : j.phase = .returning result := by
  cases h with
  | sent hjob => cases hjob.symm.trans hj
  | returning hjob hphase =>
    obtain rfl := Option.some.inj (hjob.symm.trans hj)
    exact hphase

theorem not_operating (h : p.Ended t result) (hj : p.job? t = some j)
    (hop : j.phase.operating = true) : False := by
  rw [h.phase_eq hj] at hop
  cases hop

theorem congr (h : p.Ended t result) (hjob : q.job? t = p.job? t) (hsent : q.sent? t = p.sent? t)
    (hclosed : p.closed = true → q.closed = true) : q.Ended t result := by
  cases h with
  | sent hnone hresult => exact .sent (hjob.trans hnone) (hsent.trans hresult)
  | returning hj hphase hc => exact .returning (hjob.trans hj) hphase (hclosed hc)

/-- The worker of a job that has only its result to send has been shut down. -/
theorem down (h : p.Ended t result) (hstep : p.Occurs (.jobDown t) q) :
    q.job? t = none ∧ q.sent? t = some result := by
  cases hstep with
  | downReturning hj hp =>
    obtain rfl := JobPhase.returning.inj ((h.phase_eq hj).symm.trans hp)
    exact ⟨job?_endJob_self p t, sent?_send_self _ t result⟩
  | downClosed hj hp => cases (h.phase_eq hj).symm.trans hp
  | downOpen hj hp => cases (h.phase_eq hj).symm.trans hp
  | downDiscarding hj hp => cases (h.phase_eq hj).symm.trans hp

end Ended

/-- The result of an operation that has ended stays what it is. -/
theorem ended_step (ho : q.Orderly) (hstarted : t ∈ q.started.map Prod.fst)
    (hended : q.Ended t result) (h : q.Occurs pe q') : q'.Ended t result := by
  by_cases hdown : pe = .jobDown t
  · subst hdown
    obtain ⟨hjob, hsent⟩ := hended.down h
    exact .sent hjob hsent
  by_cases ht : pe.jobTicket? = some t
  · cases jobStep_of_step h ht with
    | stays hjob hsent => exact hended.congr hjob hsent (closed_of_step h)
    | starts hg => exact absurd hstarted (not_started_of_members ho (mem_members.mpr (.inr hg)))
    | told _ hj hp => cases (hended.phase_eq hj).symm.trans hp
    | returning hj hop => exact (hended.not_operating hj hop).elim
    | retiring hj hop => exact (hended.not_operating hj hop).elim
    | back hj hop => exact (hended.not_operating hj hop).elim
    | lost hj hop => exact (hended.not_operating hj hop).elim
    | discarding hj hp => cases (hended.phase_eq hj).symm.trans hp
    | replaced hj hp => cases (hended.phase_eq hj).symm.trans hp
    | shrunk hj hp => cases (hended.phase_eq hj).symm.trans hp
    | rebuilding => exact absurd rfl hdown
    | shut => exact absurd rfl hdown
  · obtain ⟨hjob, hsent⟩ := job?_step_of_ne h ht
    exact hended.congr hjob hsent (closed_of_step h)

/-- A caller whose token has not fired learns nothing before the result was sent. -/
theorem not_learns_of_job {j : Job} (hu : p.Used) (hwatch : t ∈ p.watching)
    (hj : p.job? t = some j)
    (hphase : j.phase.operating = true ∨ ∃ result, j.phase = .returning result)
    (hnot : p.hasFired t = false) : p.canLearn t = false ∧ p.answer? t = none := by
  have hdisjoint := List.disjoint_of_nodup_append hu.orderly.callers_nodup
  have hmember : t ∉ p.members := fun hm => hdisjoint hm (List.mem_append_left _ hwatch)
  have hqueue : t ∉ p.queue := fun hq => hmember (mem_members.mpr (.inl hq))
  have hsent : p.sent? t = none := hu.unsent t j hj hphase
  refine ⟨?_, answer?_of_watching hu.orderly hwatch⟩
  simp [canLearn, hqueue, hnot, hsent, hj]

/-- An operation ends only while it is under way. -/
theorem operating_of_result (h : p.Occurs pe q) (hresult : pe.result? t = some result) :
    pe = .finish t result ∧ ∃ j, p.job? t = some j ∧ j.phase.operating = true := by
  have heq : pe = .finish t result := by
    cases pe with
    | finish u r =>
      obtain ⟨rfl, rfl⟩ : u = t ∧ r = result := by simpa [PoolEvent.result?] using hresult
      rfl
    | _ => cases hresult
  subst heq
  refine ⟨rfl, ?_⟩
  cases h with
  | finishOpen hj hop => exact ⟨_, hj, hop⟩
  | finishClosed hj hop => exact ⟨_, hj, hop⟩

theorem result?_of_not_operating (h : p.Occurs pe q)
    (hidle : ∀ j, p.job? t = some j → j.phase.operating = false) : pe.result? t = none := by
  refine Option.eq_none_iff_forall_ne_some.mpr fun result hresult => ?_
  obtain ⟨-, j, hj, hop⟩ := operating_of_result h hresult
  cases (hidle j hj).symm.trans hop

/-- Whoever had no operation started has no job. -/
theorem job?_of_not_started (ho : p.Orderly) (hnot : t ∉ p.started.map Prod.fst) :
    p.job? t = none := by
  refine Option.eq_none_iff_forall_ne_some.mpr fun j hj => hnot ?_
  exact ticket_eq_of_job? hj ▸ ho.job_started j (mem_jobs_of_job? hj)

theorem result?_of_not_started (ho : p.Orderly) (h : p.Occurs pe q)
    (hnot : t ∉ p.started.map Prod.fst) : pe.result? t = none :=
  result?_of_not_operating h fun j hj => by cases (job?_of_not_started ho hnot).symm.trans hj

/-- Only whoever takes a worker has an operation started. -/
theorem not_started_step (h : p.Occurs pe q) (htake : pe ≠ .take t)
    (hnot : t ∉ p.started.map Prod.fst) : t ∉ q.started.map Prod.fst := by
  cases h with
  | takeRun =>
    intro hmem
    rcases List.mem_cons.mp hmem with rfl | hmem
    · exact htake rfl
    · exact hnot hmem
  | _ => exact hnot

/-! ### How far a run has come -/

/-- What the caller of a run is to be told is settled: the one result with which its operation has
ended, or that the pool was closed before it was started. -/
inductive Settled (p : Pool) (t : Ticket) : Outcome Json → List (Outcome Json) → Prop where
  | ended {result : Outcome Json} (hended : p.Ended t result)
      (hstarted : t ∈ p.started.map Prod.fst) : Settled p t result [result]
  | refused (hclosed : p.closed = true) (hanswer : p.answer? t = some (.error .poolClosed))
      (hnot : t ∉ p.started.map Prod.fst) : Settled p t (.error .poolClosed) []

/-- How far a run has come whose token has not fired, and the results with which its operation has
ended.  Only somebody who has left the line is neither in line nor settled without an operation. -/
inductive Along (p : Pool) (t : Ticket) (left : Bool) : List (Outcome Json) → Prop where
  | lined (hline : t ∈ p.members) : Along p t left []
  | working {w : Worker} (hjob : p.job? t = some ⟨t, w, .running⟩) : Along p t left []
  | settled {result : Outcome Json} {results : List (Outcome Json)}
      (hsettled : p.Settled t result results) : Along p t left results
  | gone (hleft : left = true) (hline : t ∉ p.members) (hnot : t ∉ p.started.map Prod.fst) :
      Along p t left []

theorem Settled.step (ho : p.Orderly) (hs : p.Settled t result results) (h : p.Occurs pe q) :
    q.Settled t result (results ++ (pe.result? t).toList) := by
  cases hs with
  | ended hended hstarted =>
    have hnone : pe.result? t = none := result?_of_not_operating h fun j hj => by
      rw [hended.phase_eq hj]
      rfl
    have hstarted' := ((started_suffix h).map Prod.fst).subset hstarted
    rw [hnone]
    exact .ended (ended_step ho hstarted hended h) hstarted'
  | refused hclosed hanswer hnot =>
    rw [result?_of_not_started ho h hnot]
    refine .refused (closed_of_step h hclosed) (answer?_step ho h hanswer) ?_
    rwa [started_step_of_closed h hclosed]

/-- Whoever takes a worker has its operation started on one that was idle, or is turned away. -/
theorem working_of_take (hu : p.Used) (hline : t ∈ p.members) (hrun : t ∈ p.runs)
    (h : p.Occurs (.take t) q) (hfired : q.hasFired t = false) :
    (∃ w, q.job? t = some ⟨t, w, .running⟩) ∨ q.Settled t (.error .poolClosed) [] := by
  have hnot := not_started_of_members hu.orderly hline
  have hnone := job?_of_not_started hu.orderly hnot
  cases h with
  | takeFired _ hf => cases hfired.symm.trans hf
  | takeClosed _ _ hc =>
    exact .inr (.refused hc (by rw [answer?_tell, if_pos rfl]) hnot)
  | takeNothing hg _ hc hi => exact absurd hi (idle_ne_nil_of_granted hu.orderly hg hc)
  | @takeRun _ w =>
    refine .inl ⟨w, ?_⟩
    rw [job?, List.find?_append, ← job?, hnone, Option.none_or]
    simp
  | takeHeld _ _ _ _ hheld => exact absurd hrun hheld

/-- A caller in line stays there, takes a worker, goes away or is turned away. -/
theorem along_of_lined (hu : p.Used) (hline : t ∈ p.members) (hrun : t ∈ p.runs)
    (hs : p.step pe = some q) (hfired : q.hasFired t = false)
    (hstays : left = false → pe ≠ .withdraw t) : q.Along t left [] := by
  have h := occurs_of_step hs
  by_cases htake : pe = .take t
  · subst htake
    rcases working_of_take hu hline hrun h hfired with ⟨w, hjob⟩ | hsettled
    · exact .working hjob
    · exact .settled hsettled
  by_cases hline' : t ∈ q.members
  · exact .lined hline'
  obtain ⟨n, p₀, es, h₀, hp⟩ := id hu
  have hnot := not_started_of_members hu.orderly hline
  have hnot' := not_started_step h htake hnot
  have hleaves := leaves_step hu.orderly (queued_run h₀ hp) hs (Line.mem_inTurn.mpr hline)
    fun hturn => hline' (Line.mem_inTurn.mp hturn)
  rcases hleaves.worker with ⟨heq, -⟩ | ⟨heq | ⟨err, htold⟩, -⟩
  · exact absurd heq htake
  · have hleft : left = true := by
      cases left with
      | false => exact absurd heq (hstays rfl)
      | true => rfl
    exact .gone hleft hline' hnot'
  · obtain ⟨herror, hclosed⟩ :=
      told_lineError h₀ hp hs (answer?_of_members hu.orderly hline) htold hnot
    rw [lineError, hfired, if_neg (by decide)] at herror
    exact .settled (.refused (hclosed hfired) (herror ▸ htold) hnot')

/-- A tame operation is under way until it ends, unless its token fires or it panics. -/
theorem job?_of_working (hu : p.Used) (hjob : p.job? t = some ⟨t, w, .running⟩)
    (hs : p.step pe = some q) (hfired : q.hasFired t = false) (htame : pe.isUnruly = false)
    (hpanic : pe ≠ .panic t) (hnone : pe.result? t = none) : q.job? t = some ⟨t, w, .running⟩ := by
  have h := occurs_of_step hs
  obtain ⟨n, p₀, es, h₀, hp⟩ := id hu
  have hstarted : t ∈ p.started.map Prod.fst :=
    hu.orderly.job_started _ (mem_jobs_of_job? hjob)
  cases hmoves : pe.moves t with
  | true =>
    obtain ⟨j, hj, hturn⟩ := turn_of_step hu.orderly (accounted_run h₀ hp).2 h hmoves
    obtain rfl := Option.some.inj (hjob.symm.trans hj)
    rcases hturn.of_operating rfl with hback | hgives | hcrash
    · cases hback with
      | idle => simp [PoolEvent.result?] at hnone
      | closed => simp [PoolEvent.result?] at hnone
    · rcases hgives.event with heq | ⟨-, d, hphase, -⟩
      · exact absurd heq hpanic
      · cases hphase
    · rw [hcrash.event] at htame
      cases htame
  | false =>
    have hfires : pe.fires t = false := by
      cases hfires : pe.fires t with
      | false => rfl
      | true =>
        rcases eq_fire_of_fires hfires with rfl | rfl
        · cases hfired.symm.trans (hasFired_of_fire hs)
        · cases htame
    obtain ⟨⟨u, w'⟩, hw, rfl⟩ := List.mem_map.mp hstarted
    have hother := jobTicket?_ne_of_started hu.orderly hw hs hmoves hfires
    exact (job?_step_of_ne h hother).1.trans hjob

theorem along_of_working (hu : p.Used) (hjob : p.job? t = some ⟨t, w, .running⟩)
    (hs : p.step pe = some q) (hfired : q.hasFired t = false) (htame : pe.isUnruly = false)
    (hpanic : pe ≠ .panic t) : q.Along t left (pe.result? t).toList := by
  cases hresult : pe.result? t with
  | none => exact .working (job?_of_working hu hjob hs hfired htame hpanic hresult)
  | some result =>
    have h := occurs_of_step hs
    obtain ⟨rfl, -⟩ := operating_of_result h hresult
    obtain ⟨q', hstep, hended, -⟩ := ended_finish hjob rfl result
    obtain rfl := Option.some.inj (hs.symm.trans hstep)
    have hstarted : t ∈ p.started.map Prod.fst :=
      hu.orderly.job_started _ (mem_jobs_of_job? hjob)
    exact .settled (.ended hended (((started_suffix h).map Prod.fst).subset hstarted))

/-- A run whose token does not fire, and whose operation is tame and does not panic, goes on its
way. -/
theorem Along.step (hu : p.Used) (hrun : t ∈ p.runs) (ha : p.Along t left results)
    (hs : p.step pe = some q) (hfired : q.hasFired t = false) (htame : pe.isUnruly = false)
    (hpanic : pe ≠ .panic t) (hstays : left = false → pe ≠ .withdraw t) :
    q.Along t left (results ++ (pe.result? t).toList) := by
  have h := occurs_of_step hs
  cases ha with
  | lined hline =>
    rw [result?_of_not_started hu.orderly h (not_started_of_members hu.orderly hline)]
    exact along_of_lined hu hline hrun hs hfired hstays
  | working hjob => exact along_of_working hu hjob hs hfired htame hpanic
  | settled hsettled => exact .settled (hsettled.step hu.orderly h)
  | gone hleft hline hnot =>
    rw [result?_of_not_started hu.orderly h hnot]
    have hasked := hu.orderly.runs_asked t hrun
    have htake : pe ≠ .take t := fun heq =>
      hline (mem_members.mpr (.inr (granted_of_take (heq ▸ hs))))
    exact .gone hleft (fun hmem => hline (members_step hu.orderly h hasked hmem))
      (not_started_step h htake hnot)

theorem Along.leave (ha : p.Along t left results) : p.Along t true results := by
  cases ha with
  | lined hline => exact .lined hline
  | working hjob => exact .working hjob
  | settled hsettled => exact .settled hsettled
  | gone _ hline hnot => exact .gone rfl hline hnot

theorem not_fired_of_run {pes : List PoolEvent} (h : p.run pes = some q)
    (hfired : q.hasFired t = false) : p.hasFired t = false := by
  cases hp : p.hasFired t with
  | false => rfl
  | true => cases hfired.symm.trans (hasFired_run h hp)

/-- What every step keeps while a token has not fired. -/
theorem run_induction_unfired {motive : List (Outcome Json) → Pool → Prop} {pes : List PoolEvent}
    (results : List (Outcome Json)) (start : motive results p) (hu : p.Used) (hrun : t ∈ p.runs)
    (next : ∀ results q pe q', pe ∈ pes → q.Used → t ∈ q.runs → motive results q →
      q.step pe = some q' → q'.hasFired t = false → motive (results ++ (pe.result? t).toList) q')
    (h : p.run pes = some q) (hfired : q.hasFired t = false) :
    motive (results ++ pes.filterMap (PoolEvent.result? t)) q := by
  induction pes generalizing p results with
  | nil =>
    cases h
    simpa using start
  | cons pe pes ih =>
    obtain ⟨p', hs, hrest⟩ := plays.cons_eq_some.mp h
    have hone := next results p pe p' List.mem_cons_self hu hrun start hs
      (not_fired_of_run hrest hfired)
    have hall := ih _ hone (hu.step hs) (runs_subset (occurs_of_step hs) hrun)
      (fun results q pe q' hpe => next results q pe q' (List.mem_cons_of_mem _ hpe)) hrest
    cases hresult : pe.result? t with
    | none => simpa [List.filterMap_cons, hresult] using hall
    | some result => simpa [List.filterMap_cons, hresult] using hall

variable {pes : List PoolEvent}

theorem Along.run (hu : p.Used) (hrun : t ∈ p.runs) (ha : p.Along t left results)
    (h : p.run pes = some q) (hfired : q.hasFired t = false)
    (htame : ∀ pe ∈ pes, pe.isUnruly = false) (hpanic : .panic t ∉ pes)
    (hstays : left = false → .withdraw t ∉ pes) :
    q.Along t left (results ++ pes.filterMap (PoolEvent.result? t)) :=
  run_induction_unfired results (motive := fun results q => q.Along t left results) ha hu hrun
    (fun _ _ _ _ hmem hu hrun ha hs hfired => ha.step hu hrun hs hfired (htame _ hmem)
      (fun heq => hpanic (heq ▸ hmem)) fun hleft heq => hstays hleft (heq ▸ hmem)) h hfired

theorem Settled.run (hu : p.Used) (hrun : t ∈ p.runs) (hs : p.Settled t result results)
    (h : p.run pes = some q) (hfired : q.hasFired t = false) :
    q.Settled t result (results ++ pes.filterMap (PoolEvent.result? t)) :=
  run_induction_unfired results (motive := fun results q => q.Settled t result results) hs hu hrun
    (fun _ _ _ _ _ hu _ hs hstep _ => hs.step hu.orderly (occurs_of_step hstep)) h hfired

/-- Whoever waits for a permit of a closed pool learns that the pool is closed. -/
theorem answer?_learn_of_closed (ho : p.Orderly) (hqueue : t ∈ p.queue) (hclosed : p.closed = true)
    (hnot : p.hasFired t = false) :
    (p.follow (.learn t)).answer? t = some (.error .poolClosed) := by
  have hwatch : t ∉ p.watching := fun hw => List.disjoint_of_nodup_append ho.callers_nodup
    (mem_members.mpr (.inl hqueue)) (List.mem_append_left _ hw)
  have hcan : p.canLearn t = true := by simp [canLearn, hqueue, hclosed]
  rw [follow, step, if_pos hcan, Option.getD_some]
  simp [learn, hwatch, hnot, answer?_tell]

theorem Settled.learn (ho : p.Orderly) (hs : p.Settled t result results) :
    (p.follow (.learn t)).Settled t result results := by
  rcases p.follow_cases (.learn t) with hstep | hsame
  · have hnone : (PoolEvent.learn t).result? t = none := rfl
    have hkept := hs.step ho (occurs_of_step hstep)
    rwa [hnone, Option.toList_none, List.append_nil] at hkept
  · rwa [hsame]

end Pool

end LanguageHost
