import LanguageHost.Proofs.Pool.CallerSide

/-!
# Runs that nobody waits for

The caller of a run may go away while the operation is under way.  To everybody else the pool is
then the same as before: `Pool.withoutCaller` leaves out whether the caller still watches the job,
and what it was told, and nothing else.  This view is kept by every step but the one in which that
caller is told something (`step_withoutCaller`), so two sessions that differ in nothing but whether
the caller went away go on in the same way (`run_of_withoutCaller`, `run_with_caller`), whatever
happens to the token.
-/

namespace LanguageHost

/-- Whether the caller of a ticket learns something. -/
def PoolEvent.learns (t : Ticket) : PoolEvent → Bool
  | .learn u => decide (u = t)
  | _ => false

namespace Pool

variable {p d q q' : Pool} {e : PoolEvent} {es : List PoolEvent} {t u : Ticket}

/-- A pool without what is only about the caller of a ticket. -/
def withoutCaller (p : Pool) (t : Ticket) : Pool :=
  p.onCallers fun c => { c with
    watching := c.watching.filter (· ≠ t), answers := c.answers.filter fun a => a.1 ≠ t }

/-- The caller of a ticket does not wait for a worker, and will not do so. -/
structure PastLine (p : Pool) (t : Ticket) : Prop where
  asked : t < p.asked
  not_member : t ∉ p.members

theorem members_step (ho : q.Orderly) (h : q.Occurs e q') (ht : t < q.asked)
    (hmember : t ∈ q'.members) : t ∈ q.members := by
  have hjoin : ∀ {c}, t ∈ (q.toLine.join c q.asked).members → t ∈ q.members := fun {c} hmem => by
    rcases List.mem_cons.mp ((Line.members_join q.toLine c q.asked).mem_iff.mp hmem) with rfl | hmem
    · exact absurd ht (Nat.lt_irrefl _)
    · exact hmem
  have hgive : ∀ {c}, t ∈ (q.toLine.give c).members → t ∈ q.members := fun {c} =>
    (Line.members_give q.toLine c).mem_iff.mp
  have hleave : ∀ {c u}, t ∈ (q.toLine.leave c u).members → t ∈ q.members := fun {c u} hmem =>
    (List.mem_filter.mp ((Line.members_leave ho.members_nodup c u).mem_iff.mp hmem)).1
  have hspend : ∀ {u}, u ∈ q.granted → t ∈ (q.toLine.spend u).members → t ∈ q.members :=
    fun {u} hg hmem => by
      rw [Line.members_spend ho.members_nodup hg] at hmem
      exact (List.mem_filter.mp hmem).1
  cases h with
  | ask => exact hjoin hmember
  | askRun => exact hjoin hmember
  | withdraw => exact hleave hmember
  | takeFired => exact hleave hmember
  | takeClosed => exact hleave hmember
  | takeNothing => exact hleave hmember
  | takeRun hg => exact hspend hg hmember
  | takeHeld hg => exact hspend hg hmember
  | learnWaiting => exact hleave hmember
  | finishOpen => exact hgive hmember
  | builtOpen => exact hgive hmember
  | releaseOpen => exact hgive hmember
  | _ => exact hmember

theorem asked_le_step (h : q.Occurs e q') : q.asked ≤ q'.asked := by
  cases h with
  | ask => exact Nat.le_succ _
  | askRun => exact Nat.le_succ _
  | askFired => exact Nat.le_succ _
  | _ => exact Nat.le_refl _

theorem PastLine.step (h : q.PastLine t) (ho : q.Orderly) (hs : q.step e = some q') :
    q'.PastLine t where
  asked := Nat.lt_of_lt_of_le h.asked (asked_le_step (occurs_of_step hs))
  not_member := fun hmem => h.not_member (members_step ho (occurs_of_step hs) h.asked hmem)

/-! ### What callers do -/

theorem tell_withoutCaller (p : Pool) (r : Outcome Json) (hne : u ≠ t) :
    (p.withoutCaller t).tell u r = (p.tell u r).withoutCaller t := by
  simp [tell, withoutCaller, onCallers, withCallerSide, callerSide, hne]

theorem tell_self_withoutCaller (p : Pool) (t : Ticket) (r : Outcome Json) :
    (p.tell t r).withoutCaller t = p.withoutCaller t := by
  simp [tell, withoutCaller, onCallers, withCallerSide, callerSide]

/-- Another caller takes a worker as if the caller of a ticket were not there. -/
theorem take_withoutCaller (p : Pool) (hne : u ≠ t) :
    (p.withoutCaller t).take u = (p.take u).withoutCaller t := by
  have hfired : (p.withoutCaller t).hasFired u = p.hasFired u := rfl
  have hclosed : (p.withoutCaller t).closed = p.closed := rfl
  have hidle : (p.withoutCaller t).idle = p.idle := rfl
  simp only [take, hfired, hclosed, hidle]
  split
  · exact tell_withoutCaller (p.forget u) _ hne
  · split
    · exact tell_withoutCaller (p.forget u) _ hne
    · cases p.idle with
      | nil => exact tell_withoutCaller (p.forget u) _ hne
      | cons w idle =>
        show (if p.runs.contains u then _ else _) =
          withoutCaller (if p.runs.contains u then _ else _) t
        split
        · simp [withoutCaller, onCallers, withCallerSide, callerSide, hne]
        · rfl

theorem watching_withoutCaller (p : Pool) (hne : u ≠ t) :
    (p.withoutCaller t).watching.contains u = p.watching.contains u := by
  simp [withoutCaller, onCallers, withCallerSide, callerSide, hne]

theorem canLearn_withoutCaller (p : Pool) (hne : u ≠ t) :
    (p.withoutCaller t).canLearn u = p.canLearn u := by
  rw [canLearn, watching_withoutCaller p hne]
  rfl

/-- A caller stops watching its job, whether the caller of a ticket is there or not. -/
theorem unwatch_withoutCaller (p : Pool) (t u : Ticket) :
    { p.withoutCaller t with watching := (p.withoutCaller t).watching.filter (· ≠ u) } =
      ({ p with watching := p.watching.filter (· ≠ u) } : Pool).withoutCaller t := by
  simp [withoutCaller, onCallers, withCallerSide, callerSide, Bool.and_comm]

/-- Another caller learns what there is to learn as if the caller of a ticket were not there. -/
theorem learn_withoutCaller (p : Pool) (hne : u ≠ t) :
    (p.withoutCaller t).learn u = (p.learn u).withoutCaller t := by
  rw [learn, learn, watching_withoutCaller p hne]
  split
  · have hsent : (p.withoutCaller t).sent? u = p.sent? u := rfl
    simp only [unwatch_withoutCaller, hsent]
    cases p.sent? u with
    | some r => exact tell_withoutCaller _ r hne
    | none => exact tell_withoutCaller _ _ hne
  · exact tell_withoutCaller (p.forget u) _ hne

/-- Whatever happens is the same for everybody else, unless the caller of the ticket itself learns
something. -/
theorem step_withoutCaller (h : p.PastLine t) (he : e.learns t = false) :
    (p.withoutCaller t).step e = (p.step e).map fun q => q.withoutCaller t := by
  cases e with
  | ask => rfl
  | askRun fired =>
    cases fired with
    | false => rfl
    | true =>
      have hne : p.asked ≠ t := Nat.ne_of_gt h.asked
      exact congrArg some (tell_withoutCaller
        { p with asked := p.asked + 1, runs := p.asked :: p.runs, fired := p.asked :: p.fired }
        _ hne)
  | fire u =>
    have hjob : (p.withoutCaller t).job? u = p.job? u := rfl
    show (if !p.runs.contains u || p.fired.contains u then none else _) =
      Option.map _ (if !p.runs.contains u || p.fired.contains u then none else _)
    split
    · rfl
    · simp only [job?_with_fired, hjob]
      cases p.job? u with
      | none => rfl
      | some j =>
        obtain ⟨v, w, phase⟩ := j
        cases phase <;> rfl
  | withdraw u => exact congrArg some (unwatch_withoutCaller (p.forget u) t u)
  | take u =>
    show (if p.granted.contains u then _ else none) =
      Option.map _ (if p.granted.contains u then _ else none)
    split
    · next hg =>
      have hne : u ≠ t := by
        rintro rfl
        exact h.not_member (mem_members.mpr (.inr (by simpa using hg)))
      exact congrArg some (take_withoutCaller p hne)
    · rfl
  | learn u =>
    have hne : u ≠ t := of_decide_eq_false he
    rw [step, step, canLearn_withoutCaller p hne]
    split
    · exact congrArg some (learn_withoutCaller p hne)
    · rfl
  | _ => exact step_onCallers p rfl rfl

theorem unwatch_self_withoutCaller (p : Pool) (t : Ticket) :
    ({ p with watching := p.watching.filter (· ≠ t) } : Pool).withoutCaller t =
      p.withoutCaller t := by
  simp [withoutCaller, onCallers, withCallerSide, callerSide]

/-- What its own caller learns makes no difference to everybody else. -/
theorem learn_self_withoutCaller (h : p.PastLine t) (hs : p.step (.learn t) = some q) :
    q.withoutCaller t = p.withoutCaller t := by
  have hoccurs := occurs_of_step hs
  cases hoccurs with
  | learnResult => rw [tell_self_withoutCaller, unwatch_self_withoutCaller]
  | learnLost => rw [tell_self_withoutCaller, unwatch_self_withoutCaller]
  | learnFired => rw [tell_self_withoutCaller, unwatch_self_withoutCaller]
  | learnWaiting _ hline => exact absurd (mem_members.mpr hline) h.not_member

/-! ### Sessions with and without the caller -/

theorem PastLine.congr (h : p.PastLine t) (hsame : d.withoutCaller t = p.withoutCaller t) :
    d.PastLine t := by
  have hside : (d.withoutCaller t).callerSide = (p.withoutCaller t).callerSide := by rw [hsame]
  have hasked : d.asked = p.asked := congrArg CallerSide.asked hside
  have hline : d.toLine = p.toLine := congrArg CallerSide.toLine hside
  refine ⟨hasked ▸ h.asked, ?_⟩
  rw [hline]
  exact h.not_member

/-- A pool that its caller has left is the same to everybody else after every event, where nothing
takes the place of what only the caller would have learned. -/
theorem run_of_withoutCaller (ho : p.Orderly) (h : p.PastLine t)
    (hsame : d.withoutCaller t = p.withoutCaller t) (hrun : p.run es = some q) :
    ∃ q', d.run (es.filter fun e => !e.learns t) = some q' ∧
      q'.withoutCaller t = q.withoutCaller t := by
  induction es generalizing p d with
  | nil =>
    cases hrun
    exact ⟨d, rfl, hsame⟩
  | cons e es ih =>
    obtain ⟨p', hs, hrest⟩ := Option.bind_eq_some_iff.mp hrun
    have ho' := orderly_step ho (occurs_of_step hs)
    have h' := h.step ho hs
    cases he : e.learns t with
    | true =>
      have hlearn : e = .learn t := by
        cases e with
        | learn u => exact congrArg PoolEvent.learn (of_decide_eq_true he)
        | _ => cases he
      subst hlearn
      rw [List.filter_cons_of_neg (by simp [he])]
      exact ih ho' h' (hsame.trans (learn_self_withoutCaller h hs).symm) hrest
    | false =>
      have hstep : (d.step e).map (fun q => q.withoutCaller t) = some (p'.withoutCaller t) := by
        rw [← step_withoutCaller (h.congr hsame) he, hsame, step_withoutCaller h he, hs,
          Option.map_some]
      obtain ⟨d', hd, hsame'⟩ := Option.map_eq_some_iff.mp hstep
      obtain ⟨q', hq', hlast⟩ := ih ho' h' hsame' hrest
      refine ⟨q', ?_, hlast⟩
      rw [List.filter_cons_of_pos (by simp [he]), run_cons, hd]
      exact hq'

/-- The caller of a ticket waits for nothing any more. -/
structure CallerGone (d : Pool) (t : Ticket) : Prop extends PastLine d t where
  not_watching : t ∉ d.watching

theorem CallerGone.not_learns (h : d.CallerGone t) (hs : d.step e = some q) :
    e.learns t = false := by
  cases e with
  | learn u =>
    refine decide_eq_false fun hut => ?_
    subst hut
    have hoccurs := occurs_of_step hs
    cases hoccurs with
    | learnResult hw => exact h.not_watching hw
    | learnLost hw => exact h.not_watching hw
    | learnFired hw => exact h.not_watching hw
    | learnWaiting _ hline => exact h.not_member (mem_members.mpr hline)
  | _ => rfl

theorem CallerGone.step (h : d.CallerGone t) (ho : d.Orderly) (hs : d.step e = some q) :
    q.CallerGone t := by
  refine ⟨h.toPastLine.step ho hs, ?_⟩
  have hfilter : ∀ u, t ∉ d.watching.filter (· ≠ u) := fun u hmem =>
    h.not_watching (List.mem_filter.mp hmem).1
  have hoccurs := occurs_of_step hs
  cases hoccurs with
  | withdraw => exact hfilter _
  | takeRun hg =>
    intro hmem
    rcases List.mem_cons.mp hmem with rfl | hmem
    · exact h.not_member (mem_members.mpr (.inr hg))
    · exact h.not_watching hmem
  | learnResult => exact hfilter _
  | learnLost => exact hfilter _
  | learnFired => exact hfilter _
  | _ => exact h.not_watching

/-- Whatever may happen after the caller has gone might have happened if it were still there. -/
theorem run_with_caller (ho : d.Orderly) (hgone : d.CallerGone t) (h : p.PastLine t)
    (hop : p.Orderly) (hsame : d.withoutCaller t = p.withoutCaller t) (hrun : d.run es = some q') :
    ∃ q, p.run es = some q ∧ q'.withoutCaller t = q.withoutCaller t := by
  induction es generalizing p d with
  | nil =>
    cases hrun
    exact ⟨p, rfl, hsame⟩
  | cons e es ih =>
    obtain ⟨d', hs, hrest⟩ := Option.bind_eq_some_iff.mp hrun
    have he := hgone.not_learns hs
    have hstep : (p.step e).map (fun q => q.withoutCaller t) = some (d'.withoutCaller t) := by
      rw [← step_withoutCaller h he, ← hsame, step_withoutCaller hgone.toPastLine he, hs,
        Option.map_some]
    obtain ⟨p', hp, hsame'⟩ := Option.map_eq_some_iff.mp hstep
    obtain ⟨q, hq, hlast⟩ := ih (orderly_step ho (occurs_of_step hs)) (hgone.step ho hs)
      (h.step hop hp) (orderly_step hop (occurs_of_step hp)) hsame'.symm hrest
    refine ⟨q, ?_, hlast⟩
    rw [run_cons, hp]
    exact hq

/-! ### Dropping a run -/

theorem forget_of_not_member (h : t ∉ p.members) : p.forget t = p := by
  have hq : t ∉ p.queue := fun hq => h (mem_members.mpr (.inl hq))
  have hg : t ∉ p.granted := fun hg => h (mem_members.mpr (.inr hg))
  rw [forget, Line.leave, if_neg (by simpa using hg), filter_ne_eq_self hq]

/-- The caller of a run whose operation was started goes away, and nobody else notices. -/
theorem dropped_of_started (ho : p.Orderly) (ht : t ∈ p.started.map Prod.fst)
    (hd : p.step (.withdraw t) = some d) :
    p.PastLine t ∧ d.CallerGone t ∧ d.withoutCaller t = p.withoutCaller t := by
  have hnot : t ∉ p.members := fun hmem => not_started_of_members ho hmem ht
  have hpast : p.PastLine t :=
    ⟨ho.claims_asked t (List.mem_append_right _ (List.mem_append_right _ ht)), hnot⟩
  have hdrop : d = { p with watching := p.watching.filter (· ≠ t) } := by
    rw [← Option.some.inj hd, forget_of_not_member hnot]
  subst hdrop
  refine ⟨hpast, ⟨⟨hpast.asked, hnot⟩, fun hmem => ?_⟩, unwatch_self_withoutCaller p t⟩
  simpa using (List.mem_filter.mp hmem).2

end Pool

end LanguageHost
