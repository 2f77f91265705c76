import LanguageHost.Proofs.Pool.Trace

/-!
# What the callers of runs are told

The caller of a run is told one thing.  If it never got a worker, it is told that its token fired,
or that the pool was closed.  If it got one, the operation was started once, and the caller is told
what the job has sent, or that its token fired, or that there will be no result because the
operation panicked as it was called.

An operation is handed a token of its own, which it may fire itself.  So a caller may be told that
its operation was cancelled although nobody has fired its token: `cancelled_by_own_token`.

The last part is about time: a caller whose token has fired is told so before the time moves on.
-/

open scoped List

namespace LanguageHost

namespace Pool

variable {p₀ p p' q q' : Pool} {e : PoolEvent} {es es' : List PoolEvent} {t u : Ticket}
variable {r : Outcome Json}

/-! ### What callers are told -/

/-- In this step the caller of a run is told something. -/
structure Returns (p : Pool) (e : PoolEvent) (p' : Pool) (t : Ticket) (r : Outcome Json) :
    Prop where
  step : p.step e = some p'
  run : t ∈ p'.runs
  waiting : p.answer? t = none
  told : p'.answer? t = some r

/-- A step in which a caller is told something moves no worker. -/
structure SameWorkers (p p' : Pool) : Prop where
  idle_eq : p'.idle = p.idle
  held_eq : p'.held = p.held
  jobs_eq : p'.jobs = p.jobs
  started_eq : p'.started = p.started

/-- What a caller in line is told. -/
def lineError (p : Pool) (t : Ticket) : HostError :=
  if p.hasFired t then .operationCancelled else .poolClosed

/-- A ticket in line had no operation started. -/
theorem not_started_of_members (ho : p.Orderly) (ht : t ∈ p.members) :
    t ∉ p.started.map Prod.fst := fun hs =>
  List.disjoint_of_nodup_append ho.claims_nodup ht (List.mem_append_right _ hs)

/-- Whoever has a permit finds a worker in an open pool. -/
theorem idle_ne_nil_of_granted (ho : p.Orderly) (hg : t ∈ p.granted) (hc : p.closed = false) :
    p.idle ≠ [] := by
  intro hidle
  have hpermits := ho.permits_eq hc
  have hpos : 0 < p.granted.length := List.length_pos_of_mem hg
  rw [hidle, List.length_nil, Line.allPermits] at hpermits
  omega

/-- A caller is told something as it asks with a token that has fired, when it leaves the line, or
when it stops watching its job. -/
theorem told_cases (ho : p.Orderly) (ht : Traced p₀ es p) (h : p.Occurs e p')
    (hnone : p.answer? t = none) (htold : p'.answer? t = some r) :
    SameWorkers p p' ∧
      ((t ∉ p.started.map Prod.fst ∧ r = .error (p'.lineError t) ∧
          (p'.hasFired t = false → p'.closed = true)) ∨
        (t ∈ p.watching ∧ (p.sent? t = some r ∨
          r = .error .operationCancelled ∧ p.hasFired t = true ∨
          r = .error p.lostError ∧ .crash t ∈ es))) := by
  -- The caller was told nothing before, so it is told what this step tells.
  have htell : ∀ {q : Pool} {u : Ticket} {r' : Outcome Json}, q.answers = p.answers →
      (q.tell u r').answer? t = some r → t = u ∧ r' = r := fun {q u r'} hq ha => by
    rw [answer?_tell] at ha
    split at ha
    · next heq => exact ⟨heq, Option.some.inj ha⟩
    · rw [answer?, hq] at ha
      cases hnone.symm.trans ha
  cases h with
  | askFired =>
    obtain ⟨rfl, rfl⟩ := htell rfl htold
    have hfired : ({ p with
        asked := p.asked + 1, runs := p.asked :: p.runs, fired := p.asked :: p.fired }.tell
        p.asked (.error .operationCancelled)).hasFired p.asked = true :=
      hasFired_iff.mpr ⟨List.mem_cons_self, List.mem_cons_self⟩
    refine ⟨⟨rfl, rfl, rfl, rfl⟩, .inl ⟨fun hs => ?_, ?_, ?_⟩⟩
    · refine Nat.lt_irrefl _ (ho.claims_asked p.asked ?_)
      exact List.mem_append_right _ (List.mem_append_right _ hs)
    · rw [lineError, if_pos hfired]
    · exact fun hnot => by cases hfired.symm.trans hnot
  | takeFired hg hf =>
    obtain ⟨rfl, rfl⟩ := htell rfl htold
    have hfired : ((p.forget t).tell t (.error .operationCancelled)).hasFired t = true := hf
    have hnot := not_started_of_members ho (mem_members.mpr (.inr hg))
    refine ⟨⟨rfl, rfl, rfl, rfl⟩, .inl ⟨hnot, ?_, ?_⟩⟩
    · rw [lineError, hfired]
      rfl
    · exact fun hnot => by cases hfired.symm.trans hnot
  | takeClosed hg hf hc =>
    obtain ⟨rfl, rfl⟩ := htell rfl htold
    have hfired : ((p.forget t).tell t (.error .poolClosed)).hasFired t = false := hf
    have hnot := not_started_of_members ho (mem_members.mpr (.inr hg))
    refine ⟨⟨rfl, rfl, rfl, rfl⟩, .inl ⟨hnot, ?_, ?_⟩⟩
    · rw [lineError, hfired]
      rfl
    · exact fun _ => hc
  | takeNothing hg _ hc hi => exact absurd hi (idle_ne_nil_of_granted ho hg hc)
  | learnResult hw hs =>
    obtain ⟨rfl, rfl⟩ := htell rfl htold
    exact ⟨⟨rfl, rfl, rfl, rfl⟩, .inr ⟨hw, .inl hs⟩⟩
  | @learnLost u hw hs hj =>
    obtain ⟨rfl, rfl⟩ := htell rfl htold
    rcases ht.settled t (ht.watching_started t hw) with hsent | hjob | hcrash
    · simp [hs] at hsent
    · simp [hj] at hjob
    · exact ⟨⟨rfl, rfl, rfl, rfl⟩, .inr ⟨hw, .inr (.inr ⟨rfl, hcrash⟩)⟩⟩
  | @learnFired u hw _ _ hf =>
    obtain ⟨rfl, rfl⟩ := htell rfl htold
    have hqueue : t ∉ p.queue := fun hq =>
      List.disjoint_of_nodup_append ho.callers_nodup (mem_members.mpr (.inl hq))
        (List.mem_append_left _ hw)
    exact ⟨⟨rfl, rfl, rfl, rfl⟩, .inr ⟨hw, .inr (.inl ⟨rfl, hf hqueue⟩)⟩⟩
  | @learnWaiting u hw hl hc =>
    obtain ⟨rfl, rfl⟩ := htell rfl htold
    refine ⟨⟨rfl, rfl, rfl, rfl⟩, .inl ⟨not_started_of_members ho (mem_members.mpr hl), rfl, ?_⟩⟩
    exact fun hnot => hc.resolve_right fun hfired => by cases hfired.symm.trans hnot
  | _ => cases hnone.symm.trans htold

/-- What a caller was told stays so. -/
theorem answers_suffix (h : p.Occurs e p') : p.answers <:+ p'.answers := by
  cases h with
  | askFired => exact List.suffix_cons _ _
  | takeFired => exact List.suffix_cons _ _
  | takeClosed => exact List.suffix_cons _ _
  | takeNothing => exact List.suffix_cons _ _
  | learnResult => exact List.suffix_cons _ _
  | learnLost => exact List.suffix_cons _ _
  | learnFired => exact List.suffix_cons _ _
  | learnWaiting => exact List.suffix_cons _ _
  | _ => exact List.suffix_rfl

/-- No caller can do anything now. -/
def AtRest (p : Pool) : Prop := p.granted = [] ∧ ∀ t, p.canLearn t = false

/-- Time passes only when no caller can do anything: callers do what they can at once. -/
def Timely (p : Pool) : List PoolEvent → Prop
  | [] => True
  | e :: es => (∀ time, e = .wait time → p.now < time → p.AtRest) ∧
      ∀ q, p.step e = some q → q.Timely es

/-- A run that goes on in time may begin with any step but one that moves the time too early. -/
theorem timely_cons (hs : p.step e = some q) (he : p.AtRest ∨ ∀ time, e ≠ .wait time)
    (h : q.Timely es) : p.Timely (e :: es) := by
  refine ⟨fun time heq _ => he.resolve_right fun hne => hne time heq, fun q' hq' => ?_⟩
  cases hs.symm.trans hq'
  exact h

/-- Only waiting moves the time. -/
theorem now_step (h : p.Occurs e p') :
    p'.now = p.now ∨ ∃ time, e = .wait time ∧ p.now < time ∧ p'.now = time := by
  cases h with
  | @wait time hle =>
    rcases Nat.lt_or_eq_of_le hle with hlt | heq
    · exact .inr ⟨time, rfl, hlt, rfl⟩
    · exact .inl heq.symm
  | _ => exact .inl rfl

theorem timely_append (h : p.Timely (es ++ es')) (hq : p.run es = some q) : q.Timely es' := by
  induction es generalizing p with
  | nil =>
    cases hq
    exact h
  | cons e es ih =>
    obtain ⟨p₁, hstep, hrest⟩ := Option.bind_eq_some_iff.mp hq
    exact ih (h.2 p₁ hstep) hrest

theorem hasFired_step (h : p.Occurs e p') (hf : p.hasFired t = true) : p'.hasFired t = true := by
  obtain ⟨hr, hfired⟩ := hasFired_iff.mp hf
  exact hasFired_iff.mpr ⟨runs_subset h hr, fired_subset h hfired⟩

theorem hasFired_run (h : p.run es = some p') (hf : p.hasFired t = true) : p'.hasFired t = true :=
  run_induction (motive := fun _ q => q.hasFired t = true) hf
    (fun _ _ _ _ _ hq hs => hasFired_step (occurs_of_step hs) hq) h

theorem hasFired_of_fire (h : p.step (.fire t) = some p') : p'.hasFired t = true := by
  cases occurs_of_step h with
  | fire hr _ _ => exact hasFired_iff.mpr ⟨hr, List.mem_cons_self⟩
  | fireRunning hr _ _ _ => exact hasFired_iff.mpr ⟨hr, List.mem_cons_self⟩

theorem answer?_eq_none (h : t ∉ p.answers.map Prod.fst) : p.answer? t = none := by
  rw [answer?, Option.map_eq_none_iff, List.find?_eq_none]
  intro a ha hat
  exact h ((of_decide_eq_true hat) ▸ List.mem_map_of_mem ha)

theorem isSome_answer?_of_mem (h : t ∈ p.answers.map Prod.fst) : (p.answer? t).isSome := by
  obtain ⟨a, ha, rfl⟩ := List.mem_map.mp h
  rw [answer?, Option.isSome_map, List.find?_isSome]
  exact ⟨a, ha, by simp⟩

end Pool

end LanguageHost
