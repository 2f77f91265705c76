import LanguageHost.Proofs.Pool.Skipped

/-!
# A run that was never issued

A pool with a run that is not served is compared with a pool in which that run was never issued
(`Pool.Unissued`).  Later tickets have other numbers there, and whoever stands behind the run in
line may have a permit there already, so the two are not equal: without the request for the run,
and with the line of the other, they are.  What happens in one of them can happen in the other
(`Unissued.step`, `Unissued.step_back`), and where one is at rest so is the other
(`Compared.atRest`, `Compared.atRest_back`).
-/

namespace LanguageHost

namespace Pool

variable {p p' q q' m m' r s : Pool} {e : PoolEvent} {es : List PoolEvent} {t u : Ticket} {l : Line}

/-! ### Pools that are compared -/

theorem orderly_withoutRun (ho : p.Orderly) (t : Ticket) : (p.withoutRun t).Orderly where
  callers_nodup := ho.callers_nodup
  claims_nodup := ho.claims_nodup
  callers_asked := ho.callers_asked
  claims_asked := ho.claims_asked
  runs_asked := fun u hu => ho.runs_asked u (List.mem_filter.mp hu).1
  jobs_nodup := ho.jobs_nodup
  job_started := ho.job_started
  permits_eq := ho.permits_eq

theorem queued_withoutRun (hq : p.Queued) (t : Ticket) : (p.withoutRun t).Queued :=
  ⟨hq.sorted, hq.allGiven⟩

theorem callers_shifted (p : Pool) (t : Ticket) :
    (p.shifted t).callers = p.callers.map (past t) := by
  simp only [callers, Line.members, shifted, Line.shifted, List.map_append, List.map_map]
  rfl

theorem claims_shifted (p : Pool) (t : Ticket) :
    (p.shifted t).claims = p.claims.map (past t) := by
  simp only [claims, Line.members, shifted, Line.shifted, List.map_append, List.map_map]
  rfl

theorem inTurn_shifted (l : Line) (t : Ticket) :
    (l.shifted t).inTurn = l.inTurn.map (past t) := by
  simp only [Line.inTurn, Line.shifted, List.map_append]

theorem orderly_shifted (ho : p.Orderly) (t : Ticket) : (p.shifted t).Orderly where
  callers_nodup := by
    rw [callers_shifted]
    exact ho.callers_nodup.map (past_injective t)
  claims_nodup := by
    rw [claims_shifted]
    exact ho.claims_nodup.map (past_injective t)
  callers_asked := fun u hu => by
    rw [callers_shifted] at hu
    obtain ⟨v, hv, rfl⟩ := List.mem_map.mp hu
    exact past_lt_succ (ho.callers_asked v hv)
  claims_asked := fun u hu => by
    rw [claims_shifted] at hu
    obtain ⟨v, hv, rfl⟩ := List.mem_map.mp hu
    exact past_lt_succ (ho.claims_asked v hv)
  runs_asked := fun u hu => by
    obtain ⟨v, hv, rfl⟩ := List.mem_map.mp hu
    exact past_lt_succ (ho.runs_asked v hv)
  jobs_nodup := by
    have hmap : (p.shifted t).jobs.map Job.ticket = (p.jobs.map Job.ticket).map (past t) := by
      simp only [shifted, List.map_map]
      rfl
    rw [hmap]
    exact ho.jobs_nodup.map (past_injective t)
  job_started := fun j hj => by
    obtain ⟨i, hi, rfl⟩ := List.mem_map.mp hj
    obtain ⟨s, hs, heq⟩ := List.mem_map.mp (ho.job_started i hi)
    refine List.mem_map.mpr ⟨shiftKey t s, List.mem_map_of_mem hs, ?_⟩
    exact congrArg (past t) heq
  permits_eq := fun hc => by
    have hlen : (p.shifted t).allPermits = p.allPermits := by
      simp only [Line.allPermits, shifted, Line.shifted, List.length_map]
    rw [hlen]
    exact ho.permits_eq hc

theorem queued_shifted (hq : p.Queued) (t : Ticket) : (p.shifted t).Queued where
  sorted := by
    show ((p.toLine.shifted t).inTurn).Pairwise (· < ·)
    rw [inTurn_shifted]
    exact hq.sorted.map _ fun _ _ => past_lt_past
  allGiven := fun hc hne => hq.allGiven hc fun hnil => hne (by simp [shifted, Line.shifted, hnil])

/-- The second pool is as the first one is but for a run that was never issued in it, and for who in
line has a permit. -/
structure Unissued (t : Ticket) (p r : Pool) : Prop where
  asked_le : t ≤ r.asked
  same : r.shifted t = (p.withoutRun t).withLine (r.toLine.shifted t)
  skips : Line.Skips t p.toLine (r.toLine.shifted t)

/-- The run of a ticket was never served. -/
structure Unserved (p : Pool) (t : Ticket) : Prop where
  asked : t < p.asked
  not_started : t ∉ p.started.map Prod.fst
  not_held : t ∉ p.held.map Prod.fst
  not_discarded : t ∉ p.discards.map Prod.fst
  not_watching : t ∉ p.watching

theorem Unserved.step (h : p.Unserved t) (hs : p.step e = some p') (htake : e ≠ .take t) :
    p'.Unserved t := by
  have hoccurs := occurs_of_step hs
  have hfilter : ∀ u, t ∉ p.watching.filter (· ≠ u) := fun u hmem =>
    h.not_watching (List.mem_filter.mp hmem).1
  have hheld : ∀ u, t ∉ (p.held.filter fun h => h.1 ≠ u).map Prod.fst := fun u hmem =>
    h.not_held ((List.filter_sublist.map Prod.fst).subset hmem)
  have hdiscard : ∀ u, t ∉ (p.discards.filter fun d => d.1 ≠ u).map Prod.fst := fun u hmem =>
    h.not_discarded ((List.filter_sublist.map Prod.fst).subset hmem)
  refine ⟨Nat.lt_of_lt_of_le h.asked (asked_le_step hoccurs), ?_, ?_, ?_, ?_⟩
  · cases hoccurs with
    | takeRun =>
      intro hmem
      rcases List.mem_cons.mp hmem with rfl | hmem
      · exact htake rfl
      · exact h.not_started hmem
    | _ => exact h.not_started
  · cases hoccurs with
    | takeHeld =>
      intro hmem
      rcases List.mem_cons.mp hmem with rfl | hmem
      · exact htake rfl
      · exact h.not_held hmem
    | releaseOpen => exact hheld _
    | releaseClosed => exact hheld _
    | _ => exact h.not_held
  · cases hoccurs with
    | @releaseClosed u w hh =>
      intro hmem
      rw [List.map_append] at hmem
      rcases List.mem_append.mp hmem with hmem | hmem
      · exact h.not_discarded hmem
      · obtain rfl : t = u := by simpa using hmem
        obtain ⟨⟨v, w'⟩, hfind, -⟩ := Option.map_eq_some_iff.mp hh
        obtain rfl : v = t := by simpa using List.find?_some hfind
        exact h.not_held (List.mem_map_of_mem (List.mem_of_find?_eq_some hfind))
    | released => exact hdiscard _
    | abandonRelease => exact hdiscard _
    | _ => exact h.not_discarded
  · cases hoccurs with
    | withdraw => exact hfilter _
    | takeRun =>
      intro hmem
      rcases List.mem_cons.mp hmem with rfl | hmem
      · exact htake rfl
      · exact h.not_watching hmem
    | learnResult => exact hfilter _
    | learnLost => exact hfilter _
    | learnFired => exact hfilter _
    | _ => exact h.not_watching

/-- Nothing but its token and its caller going away is about a run that was never served, unless it
is told something. -/
theorem Unserved.names_cases (h : p.Unserved t) (ho : p.Orderly) (hs : p.step e = some p')
    (he : e.names t = true) :
    e = .fire t ∨ e = .withdraw t ∨ e = .take t ∨ e = .learn t := by
  have hjob : p.job? t = none := List.find?_eq_none.mpr fun j hj hjt =>
    h.not_started ((of_decide_eq_true hjt) ▸ ho.job_started j hj)
  have hheld : p.held? t = none := Option.map_eq_none_iff.mpr (List.find?_eq_none.mpr
    fun a ha hat => h.not_held ((of_decide_eq_true hat) ▸ List.mem_map_of_mem ha))
  have hdiscard : (p.discards.any fun d => d.1 = t) = false := List.any_eq_false.mpr
    fun a ha hat => h.not_discarded ((of_decide_eq_true hat) ▸ List.mem_map_of_mem ha)
  cases e with
  | fire => exact .inl (congrArg _ (of_decide_eq_true he))
  | withdraw => exact .inr (.inl (congrArg _ (of_decide_eq_true he)))
  | take => exact .inr (.inr (.inl (congrArg _ (of_decide_eq_true he))))
  | learn => exact .inr (.inr (.inr (congrArg _ (of_decide_eq_true he))))
  | finish =>
    obtain rfl := of_decide_eq_true he
    simp [Pool.step, hjob] at hs
  | panic =>
    obtain rfl := of_decide_eq_true he
    simp [Pool.step, hjob] at hs
  | crash =>
    obtain rfl := of_decide_eq_true he
    simp [Pool.step, hjob] at hs
  | fireOwn =>
    obtain rfl := of_decide_eq_true he
    simp [Pool.step, hjob] at hs
  | expire =>
    obtain rfl := of_decide_eq_true he
    simp [Pool.step, hjob] at hs
  | jobDown =>
    obtain rfl := of_decide_eq_true he
    simp [Pool.step, hjob] at hs
  | built =>
    obtain rfl := of_decide_eq_true he
    simp [Pool.step, hjob] at hs
  | release =>
    obtain rfl := of_decide_eq_true he
    simp [Pool.step, hheld] at hs
  | released =>
    obtain rfl := of_decide_eq_true he
    simp [Pool.step, hdiscard] at hs
  | abandonRelease =>
    obtain rfl := of_decide_eq_true he
    simp [Pool.step, hdiscard] at hs
  | _ => cases he

/-! ### Steps of two pools -/

/-- Its token and its caller going away make no difference to a run that was never served. -/
theorem Unissued.own (h : Unissued t p r) (hu : p.Unserved t) (ho : p.Orderly)
    (he : e = .fire t ∨ e = .withdraw t) (hs : p.step e = some p') : Unissued t p' r := by
  have hoccurs := occurs_of_step hs
  rcases he with rfl | rfl
  · cases hoccurs with
    | fire =>
      refine ⟨h.asked_le, ?_, h.skips⟩
      have hsame : ({ p with fired := t :: p.fired } : Pool).withoutRun t = p.withoutRun t := by
        simp [withoutRun, onCallers, withCallerSide, callerSide]
      rw [hsame]
      exact h.same
    | fireRunning _ _ hj =>
      exact absurd (ticket_eq_of_job? hj ▸ ho.job_started _ (mem_jobs_of_job? hj)) hu.not_started
  · cases hoccurs with
    | withdraw =>
      have hwatch : p.watching.filter (· ≠ t) = p.watching := filter_ne_eq_self hu.not_watching
      rw [hwatch]
      refine ⟨h.asked_le, h.same, ?_⟩
      show Line.Skips t (p.toLine.leave p.closed t) (r.toLine.shifted t)
      rw [Line.Skips, Line.inTurn_leave ho.members_nodup, List.filter_filter]
      simp only [Bool.and_self]
      exact h.skips

/-- Whatever happens in a pool may happen in a pool in which a run was never issued, until that run
is told something. -/
theorem Unissued.step (h : Unissued t p r) (hu : p.Unserved t) (ho : p.Orderly) (hq : p.Queued)
    (hor : r.Orderly) (hqr : r.Queued) (he : e.names t = false) (hs : p.step e = some p') :
    ∃ e' r', e.Alike (e'.shifted t) ∧ r.step e' = some r' ∧ Unissued t p' r' := by
  have hm : (p.withoutRun t).step e = some (p'.withoutRun t) := by
    rw [step_withoutRun hu.asked he, hs, Option.map_some]
  have hos : ((p.withoutRun t).withLine (r.toLine.shifted t)).Orderly :=
    h.same ▸ orderly_shifted hor t
  have hqs : ((p.withoutRun t).withLine (r.toLine.shifted t)).Queued :=
    h.same ▸ queued_shifted hqr t
  obtain ⟨e'', l', halike, hstep, hskips⟩ := step_skips (orderly_withoutRun ho t)
    (queued_withoutRun hq t) hos hqs h.skips hu.asked he hm
  obtain ⟨e', rfl⟩ := exists_shifted (halike.names he)
  rw [← h.same, step_shifted h.asked_le] at hstep
  obtain ⟨r', hr', hsame⟩ := Option.map_eq_some_iff.mp hstep
  have hline : l' = r'.toLine.shifted t := (congrArg Pool.toLine hsame).symm
  refine ⟨e', r', halike, hr', ⟨?_, ?_, ?_⟩⟩
  · exact Nat.le_trans h.asked_le (asked_le_step (occurs_of_step hr'))
  · rw [hsame, hline]
  · rw [← hline]
    exact hskips

theorem not_mem_inTurn_shifted (l : Line) (t : Ticket) : t ∉ (l.shifted t).inTurn := by
  rw [inTurn_shifted]
  intro hmem
  obtain ⟨u, -, hu⟩ := List.mem_map.mp hmem
  exact past_ne t u hu

/-- Whatever happens in a pool in which a run was never issued may happen in a pool whose line that
run has left. -/
theorem Unissued.step_back {e' : PoolEvent} {r' : Pool} (h : Unissued t p r) (hu : p.Unserved t)
    (ho : p.Orderly) (hq : p.Queued) (hor : r.Orderly) (hqr : r.Queued) (hnot : t ∉ p.members)
    (hs : r.step e' = some r') :
    ∃ e p', e.Alike (e'.shifted t) ∧ p.step e = some p' ∧ Unissued t p' r' := by
  have hshift : (r.shifted t).step (e'.shifted t) = some (r'.shifted t) := by
    rw [step_shifted h.asked_le, hs, Option.map_some]
  have hm : (r.shifted t).withLine p.toLine = p.withoutRun t := by
    rw [h.same]
    rfl
  have hasked : t < (r.shifted t).asked := Nat.lt_succ_of_le h.asked_le
  obtain ⟨e, l', halike, hstep, hskips⟩ := step_skips (l := p.toLine) (orderly_shifted hor t)
    (queued_shifted hqr t) (hm ▸ orderly_withoutRun ho t) (hm ▸ queued_withoutRun hq t)
    (h.skips.symm fun hturn => hnot (Line.mem_inTurn.mp hturn)) hasked (names_shifted t e') hshift
  rw [hm, step_withoutRun hu.asked (halike.names (names_shifted t e'))] at hstep
  obtain ⟨p', hp', hsame⟩ := Option.map_eq_some_iff.mp hstep
  have hline : p'.toLine = l' := congrArg Pool.toLine hsame
  refine ⟨e, p', halike.symm, hp', ⟨?_, ?_, ?_⟩⟩
  · exact Nat.le_trans h.asked_le (asked_le_step (occurs_of_step hs))
  · rw [hsame]
    rfl
  · rw [hline]
    exact hskips.symm (not_mem_inTurn_shifted r'.toLine t)

/-! ### Pools at rest -/

/-- A pool is at rest if nobody has a permit, nobody in line has to go without a worker, and nobody
who watches a job has anything to learn. -/
theorem atRest_iff : p.AtRest ↔ p.granted = [] ∧
    (∀ u ∈ p.queue, p.closed = false ∧ p.hasFired u = false) ∧
    ∀ u ∈ p.watching, p.sent? u = none ∧ (p.job? u).isNone = false ∧ p.hasFired u = false := by
  refine and_congr_right fun hgranted => ?_
  constructor
  · intro hlearn
    refine ⟨fun u hu => ?_, fun u hu => ?_⟩
    · have hcan := hlearn u
      simp only [canLearn, Bool.or_eq_false_iff, Bool.and_eq_false_iff, List.contains_eq_mem,
        decide_eq_false_iff_not, hu, not_true_eq_false, false_or] at hcan
      exact hcan.1.1
    · have hcan := hlearn u
      simp only [canLearn, Bool.or_eq_false_iff, Bool.and_eq_false_iff, List.contains_eq_mem,
        decide_eq_false_iff_not, hu, not_true_eq_false, false_or] at hcan
      obtain ⟨-, ⟨hsent, hjob⟩, hfired⟩ := hcan
      exact ⟨by simpa using hsent, hjob, hfired⟩
  · rintro ⟨hqueue, hwatching⟩ u
    simp only [canLearn, Bool.or_eq_false_iff, Bool.and_eq_false_iff, List.contains_eq_mem,
      decide_eq_false_iff_not, hgranted, List.not_mem_nil, not_false_eq_true, true_or, and_true]
    refine ⟨?_, ?_⟩
    · by_cases hu : u ∈ p.queue
      · exact .inr (hqueue u hu)
      · exact .inl hu
    · by_cases hu : u ∈ p.watching
      · obtain ⟨hsent, hjob, hfired⟩ := hwatching u hu
        exact .inr ⟨⟨by simp [hsent], hjob⟩, hfired⟩
      · exact .inl hu

theorem atRest_shifted (p : Pool) (t : Ticket) : (p.shifted t).AtRest ↔ p.AtRest := by
  have hgranted : (p.shifted t).granted = [] ↔ p.granted = [] := List.map_eq_nil_iff
  rw [atRest_iff, atRest_iff, hgranted]
  refine and_congr_right fun _ => and_congr ?_ ?_
  · show (∀ u ∈ p.queue.map (past t), _) ↔ _
    simp only [List.forall_mem_map, hasFired_shifted]
    rfl
  · show (∀ u ∈ p.watching.map (past t), _) ↔ _
    simp only [List.forall_mem_map, hasFired_shifted, sent?_shifted, job?_shifted,
      Option.isNone_map]

/-- Where a ticket is left out of the line of a pool at rest, the pool is at rest. -/
theorem atRest_of_skips (ho : m.Orderly) (hq : m.Queued) (hos : (m.withLine l).Orderly)
    (hqs : (m.withLine l).Queued) (hl : Line.Skips t m.toLine l) (hrest : m.AtRest) :
    (m.withLine l).AtRest := by
  obtain ⟨hgranted, hqueue, hwatching⟩ := atRest_iff.mp hrest
  have hturn : m.inTurn = m.queue := by rw [Line.inTurn, hgranted, List.nil_append]
  have hsub : ∀ u ∈ l.inTurn, u ∈ m.queue := fun u hu => by
    rw [hl] at hu
    exact hturn ▸ (List.mem_filter.mp hu).1
  have hnone : l.granted = [] := by
    cases hline : m.queue with
    | nil =>
      have hnil : l.inTurn = [] := by rw [hl, hturn, hline, List.filter_nil]
      exact (List.append_eq_nil_iff.mp hnil).1
    | cons u queue =>
      -- Somebody waits without a permit, so the pool is open and has no idle worker.
      have hc : m.closed = false := (hqueue u (by rw [hline]; exact List.mem_cons_self)).1
      have hidle : m.idle.length = 0 := by
        rw [← ho.permits_eq hc, Line.allPermits, hgranted, List.length_nil, Nat.add_zero]
        exact hq.allGiven hc (by rw [hline]; exact List.cons_ne_nil _ _)
      have htake : l.granted = l.inTurn.take m.idle.length :=
        Line.granted_eq_take (hqs.allGiven hc) (hos.permits_eq hc)
      rw [htake, hidle, List.take_zero]
  refine atRest_iff.mpr ⟨hnone, fun u hu => ?_, hwatching⟩
  exact hqueue u (hsub u (List.mem_append_right _ hu))

/-- What is at rest is at rest without a run. -/
theorem atRest_withoutRun (hrest : p.AtRest) (t : Ticket) : (p.withoutRun t).AtRest := by
  obtain ⟨hgranted, hqueue, hwatching⟩ := atRest_iff.mp hrest
  have hfired : ∀ {u}, p.hasFired u = false → (p.withoutRun t).hasFired u = false := fun hnot => by
    by_contra hf
    obtain ⟨hr, hf⟩ := hasFired_iff.mp (by simpa using hf)
    cases (hasFired_iff.mpr ⟨(List.mem_filter.mp hr).1, (List.mem_filter.mp hf).1⟩).symm.trans hnot
  refine atRest_iff.mpr ⟨hgranted, fun u hu => ?_, fun u hu => ?_⟩
  · exact ⟨(hqueue u hu).1, hfired (hqueue u hu).2⟩
  · obtain ⟨hsent, hjob, hnot⟩ := hwatching u hu
    exact ⟨hsent, hjob, hfired hnot⟩

theorem atRest_of_withoutRun (hrest : (p.withoutRun t).AtRest) (hqueue : t ∉ p.queue)
    (hwatching : t ∉ p.watching) : p.AtRest := by
  obtain ⟨hgranted, hline, hjobs⟩ := atRest_iff.mp hrest
  refine atRest_iff.mpr ⟨hgranted, fun u hu => ?_, fun u hu => ?_⟩
  · have hne : u ≠ t := fun heq => hqueue (heq ▸ hu)
    exact ⟨(hline u hu).1, hasFired_withoutRun p hne ▸ (hline u hu).2⟩
  · have hne : u ≠ t := fun heq => hwatching (heq ▸ hu)
    obtain ⟨hsent, hjob, hnot⟩ := hjobs u hu
    exact ⟨hsent, hjob, hasFired_withoutRun p hne ▸ hnot⟩

end Pool

end LanguageHost
