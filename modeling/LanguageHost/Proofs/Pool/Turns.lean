import LanguageHost.Proofs.Pool.Outcome

/-!
# Waiting for a worker

Tickets stand in line in the order in which they came, those with a permit in front of those
without one (`Line.inTurn`).  A step leaves the line as it is, adds the next ticket at its end, adds
a permit, or takes one ticket out (`LineStep`), so the order is kept and a ticket waits without a
permit only if all permits are given out: `Queued`.

In an open pool the permits are as many as the idle workers, so the line is known from the tickets
that stand in it: the first ones have permits, one for each idle worker.  A ticket that leaves
without a worker takes nothing along, and in a state at rest nobody waits for a worker that is idle.

Permits are given out in the order of arrival, but of those who have one any may take its worker
first, so workers are not (`not_in_order_of_arrival`).
-/

open scoped List

namespace LanguageHost

namespace Line

variable {l : Line} {t : Ticket} {closed : Bool}

/-- The tickets in line, in the order in which they came. -/
def inTurn (l : Line) : List Ticket := l.granted ++ l.queue

/-- Tickets wait for a permit only if all permits are given out. -/
def AllGiven (l : Line) : Prop := l.queue ≠ [] → l.permits = 0

theorem inTurn_perm_members (l : Line) : l.inTurn.Perm l.members := List.perm_append_comm

theorem mem_inTurn : t ∈ l.inTurn ↔ t ∈ l.members := l.inTurn_perm_members.mem_iff

/-! ### The order of the line -/

/-- A permit goes to a ticket where it stands. -/
theorem inTurn_give (l : Line) (closed : Bool) : (l.give closed).inTurn = l.inTurn := by
  unfold give
  split
  · rfl
  · split
    · rfl
    · next t queue hq =>
      simp only [inTurn, hq, List.append_assoc, List.singleton_append]

/-- A ticket joins the line at its end. -/
theorem inTurn_join (h : closed = false → l.AllGiven) (t : Ticket) :
    (l.join closed t).inTurn = l.inTurn ++ [t] := by
  unfold join
  split
  · simp only [inTurn, List.append_assoc]
  · next hjoin =>
    obtain ⟨hopen, hpermits⟩ := not_or.mp hjoin
    have hqueue : l.queue = [] := by
      by_contra hne
      exact hpermits (h (by simpa using hopen) hne)
    simp only [inTurn, hqueue, List.append_nil]

theorem inTurn_spend (h : l.members.Nodup) (ht : t ∈ l.granted) :
    (l.spend t).inTurn = l.inTurn.filter (· ≠ t) := by
  have hqueue : t ∉ l.queue := fun hq => List.disjoint_of_nodup_append h hq ht
  simp only [inTurn, spend, List.filter_append]
  rw [filter_ne_eq_self hqueue]

/-- A ticket that leaves changes nothing about the order of the others. -/
theorem inTurn_leave (h : l.members.Nodup) (closed : Bool) (t : Ticket) :
    (l.leave closed t).inTurn = l.inTurn.filter (· ≠ t) := by
  unfold leave
  split
  · next ht =>
    rw [inTurn_give]
    exact inTurn_spend h (by simpa using ht)
  · next ht =>
    simp only [inTurn, List.filter_append]
    rw [filter_ne_eq_self (l := l.granted) (by simpa using ht)]

/-- A ticket with a permit keeps it when another one leaves. -/
theorem granted_leave {u : Ticket} (closed : Bool) (hu : u ∈ l.granted) (hne : u ≠ t) :
    u ∈ (l.leave closed t).granted := by
  have hfilter : u ∈ l.granted.filter (· ≠ t) := List.mem_filter.mpr ⟨hu, decide_eq_true hne⟩
  unfold leave
  split
  · unfold give
    split
    · exact hfilter
    · split
      · exact hfilter
      · exact List.mem_append_left _ hfilter
  · exact hu

/-! ### Permits that nobody has -/

theorem AllGiven.give (h : l.AllGiven) : (l.give false).AllGiven := by
  unfold Line.give
  rw [if_neg Bool.false_ne_true]
  split
  · next hq => exact fun hne => absurd hq hne
  · next hq => exact fun _ => h (by rw [hq]; exact List.cons_ne_nil _ _)

theorem AllGiven.join (h : l.AllGiven) (t : Ticket) : (l.join false t).AllGiven := by
  unfold Line.join
  split
  · next hjoin => exact fun _ => hjoin.resolve_left Bool.false_ne_true
  · next hjoin =>
    intro hne
    exact absurd (h hne) (not_or.mp hjoin).2

theorem AllGiven.spend (h : l.AllGiven) (t : Ticket) : (l.spend t).AllGiven := h

theorem AllGiven.leave (h : l.AllGiven) (t : Ticket) : (l.leave false t).AllGiven := by
  unfold Line.leave
  split
  · exact AllGiven.give (l := { l with granted := l.granted.filter (· ≠ t) }) h
  · intro hne
    refine h fun hnil => hne ?_
    simp only [hnil, List.filter_nil]

/-- If there are so many permits, the first ones in line have them. -/
theorem granted_eq_take {n : Nat} (h : l.AllGiven) (hn : l.allPermits = n) :
    l.granted = l.inTurn.take n := by
  rw [allPermits] at hn
  by_cases hqueue : l.queue = []
  · have hle : l.granted.length ≤ n := by omega
    rw [inTurn, hqueue, List.append_nil, List.take_of_length_le hle]
  · have hnone : l.permits = 0 := h hqueue
    have hlen : l.granted.length = n := by omega
    rw [inTurn, List.take_left' hlen]

end Line

namespace Pool

variable {p₀ p p' q : Pool} {e : PoolEvent} {es : List PoolEvent} {t u : Ticket}
variable {r : Outcome Json}

/-! ### What a step does to the line -/

/-- In this step a ticket obtains a worker, the one that became idle last. -/
structure Obtains (p : Pool) (t : Ticket) (p' : Pool) : Prop where
  step : p.step (.take t) = some p'
  worker : ∃ w, p.idle = w :: p'.idle ∧ ((t, w) ∈ p'.held ∨ (t, w) ∈ p'.started)

/-- A ticket goes away, or is told that there is no worker for it. -/
def GoesWithout (e : PoolEvent) (t : Ticket) (p' : Pool) : Prop :=
  e = .withdraw t ∨ ∃ err, p'.answer? t = some (.error err)

/-- What a step does to the line. -/
inductive LineStep (p : Pool) (e : PoolEvent) (p' : Pool) : Prop where
  | same (hline : p'.toLine = p.toLine)
  | join (hline : p'.toLine = p.toLine.join p.closed p.asked)
  | give (hline : p'.toLine = p.toLine.give p.closed)
  | leave {t : Ticket} (hline : p'.toLine = p.toLine.leave p.closed t) (hidle : p'.idle = p.idle)
      (hgoes : GoesWithout e t p')
  | spend {t : Ticket} (hg : t ∈ p.granted) (hline : p'.toLine = p.toLine.spend t)
      (he : e = .take t) (hobtains : Obtains p t p')

/-- A caller that is told something goes without a worker. -/
theorem goesWithout_tell (p : Pool) (e : PoolEvent) (t : Ticket) (err : HostError) :
    GoesWithout e t (p.tell t (.error err)) := by
  refine .inr ⟨err, ?_⟩
  rw [answer?_tell, if_pos rfl]

/-- A step leaves the line as it is, adds a ticket or a permit, or takes a ticket out. -/
theorem lineStep_of_step (h : p.step e = some p') : LineStep p e p' := by
  have hoccurs := occurs_of_step h
  cases hoccurs with
  | ask => exact .join rfl
  | askRun => exact .join rfl
  | withdraw t => exact .leave (t := t) rfl rfl (.inl rfl)
  | takeFired => exact .leave rfl rfl (goesWithout_tell _ _ _ _)
  | takeClosed => exact .leave rfl rfl (goesWithout_tell _ _ _ _)
  | takeNothing => exact .leave rfl rfl (goesWithout_tell _ _ _ _)
  | @takeRun t w idle hg _ _ hi _ =>
    exact .spend hg rfl rfl ⟨h, w, hi, .inr List.mem_cons_self⟩
  | @takeHeld t w idle hg _ _ hi _ =>
    exact .spend hg rfl rfl ⟨h, w, hi, .inl List.mem_cons_self⟩
  | learnWaiting => exact .leave rfl rfl (goesWithout_tell _ _ _ _)
  | finishOpen => exact .give rfl
  | builtOpen => exact .give rfl
  | releaseOpen => exact .give rfl
  | _ => exact .same rfl

/-- Tickets stand in the order in which they came, and as long as the pool is open they wait for a
permit only if all permits are given out. -/
structure Queued (p : Pool) : Prop where
  sorted : p.inTurn.Pairwise (· < ·)
  allGiven : p.closed = false → p.AllGiven

theorem queued_step (ho : p.Orderly) (hq : p.Queued) (h : p.step e = some p') : p'.Queued := by
  have hopen := closed_step (occurs_of_step h)
  have hless : ∀ t, (p.inTurn.filter (· ≠ t)).Pairwise (· < ·) := fun t =>
    hq.sorted.sublist List.filter_sublist
  cases lineStep_of_step h with
  | same hline =>
    refine ⟨?_, fun hc => ?_⟩
    · rw [hline]
      exact hq.sorted
    · rw [hline]
      exact hq.allGiven (hopen hc)
  | join hline =>
    refine ⟨?_, fun hc => ?_⟩
    · rw [hline, Line.inTurn_join hq.allGiven, List.pairwise_append]
      refine ⟨hq.sorted, List.pairwise_singleton _ _, fun t ht s hs => ?_⟩
      rw [List.mem_singleton.mp hs]
      exact ho.callers_asked t (List.mem_append_left _ (Line.mem_inTurn.mp ht))
    · rw [hline, hopen hc]
      exact (hq.allGiven (hopen hc)).join _
  | give hline =>
    refine ⟨?_, fun hc => ?_⟩
    · rw [hline, Line.inTurn_give]
      exact hq.sorted
    · rw [hline, hopen hc]
      exact (hq.allGiven (hopen hc)).give
  | @leave t hline _ _ =>
    refine ⟨?_, fun hc => ?_⟩
    · rw [hline, Line.inTurn_leave ho.members_nodup]
      exact hless t
    · rw [hline, hopen hc]
      exact (hq.allGiven (hopen hc)).leave _
  | @spend t hg hline _ _ =>
    refine ⟨?_, fun hc => ?_⟩
    · rw [hline, Line.inTurn_spend ho.members_nodup hg]
      exact hless t
    · rw [hline]
      exact (hq.allGiven (hopen hc)).spend _

theorem queued_opened (name : String) (grace now : Nat) (workers : List Worker)
    (nextSerial : Nat) : (opened name grace now workers nextSerial).Queued where
  sorted := List.Pairwise.nil
  allGiven := fun _ hne => absurd rfl hne

/-- Along every run of a fresh pool the tickets stand in order. -/
theorem queued_run {n : Nat} (h₀ : Fresh n p₀) (h : p₀.run es = some p) : p.Queued := by
  refine run_induction (motive := fun _ q => q.Queued) ?_ ?_ h
  · obtain ⟨-, name, grace, now, rfl⟩ := fresh_eq h₀
    exact queued_opened _ _ _ _ _
  · intro es q e q' hrun hq hs
    exact queued_step (accounted_run h₀ hrun).1 hq hs

/-! ### Leaving the line -/

/-- A ticket leaves the line: it takes a worker, or it goes without one and leaves all workers idle
that were.  The others stay where they stand, and those with a permit keep it. -/
structure Leaves (p : Pool) (e : PoolEvent) (t : Ticket) (p' : Pool) : Prop where
  inTurn_eq : p'.inTurn = p.inTurn.filter (· ≠ t)
  granted : ∀ u ∈ p.granted, u ≠ t → u ∈ p'.granted
  worker : e = .take t ∧ Obtains p t p' ∨ GoesWithout e t p' ∧ p'.idle = p.idle

theorem leaves_step (ho : p.Orderly) (hq : p.Queued) (h : p.step e = some p') (ht : t ∈ p.inTurn)
    (ht' : t ∉ p'.inTurn) : Leaves p e t p' := by
  -- Of all tickets in line only the one that is taken out is missing afterwards.
  have honly : ∀ s, t ∉ p.inTurn.filter (· ≠ s) → t = s := fun s hs => by
    by_contra hne
    exact hs (List.mem_filter.mpr ⟨ht, decide_eq_true hne⟩)
  cases lineStep_of_step h with
  | same hline =>
    rw [hline] at ht'
    exact absurd ht ht'
  | join hline =>
    rw [hline, Line.inTurn_join hq.allGiven] at ht'
    exact absurd (List.mem_append_left _ ht) ht'
  | give hline =>
    rw [hline, Line.inTurn_give] at ht'
    exact absurd ht ht'
  | @leave s hline hidle hgoes =>
    have hturn : p'.inTurn = p.inTurn.filter (· ≠ s) := by
      rw [hline, Line.inTurn_leave ho.members_nodup]
    obtain rfl := honly s (hturn ▸ ht')
    refine ⟨hturn, fun u hu hne => ?_, .inr ⟨hgoes, hidle⟩⟩
    rw [hline]
    exact Line.granted_leave _ hu hne
  | @spend s hg hline he hobtains =>
    have hturn : p'.inTurn = p.inTurn.filter (· ≠ s) := by
      rw [hline, Line.inTurn_spend ho.members_nodup hg]
    obtain rfl := honly s (hturn ▸ ht')
    refine ⟨hturn, fun u hu hne => ?_, .inl ⟨he, hobtains⟩⟩
    rw [hline]
    exact List.mem_filter.mpr ⟨hu, decide_eq_true hne⟩

/-- Whoever is told something and had no operation started is told that its token has fired, or
that the pool is closed. -/
theorem told_lineError {n : Nat} (h₀ : Fresh n p₀) (h : p₀.run es = some p)
    (hs : p.step e = some p') (hnone : p.answer? t = none) (htold : p'.answer? t = some r)
    (hnot : t ∉ p.started.map Prod.fst) :
    r = .error (p'.lineError t) ∧ (p'.hasFired t = false → p'.closed = true) := by
  have ht := traced_run h₀ h
  obtain ⟨-, ⟨-, hr, hclosed⟩ | ⟨hwatch, -⟩⟩ :=
    told_cases (accounted_run h₀ h).1 ht (occurs_of_step hs) hnone htold
  · exact ⟨hr, hclosed⟩
  · exact absurd (ht.watching_started t hwatch) hnot

theorem lineError_ne_permitError (p q : Pool) (t : Ticket) : p.lineError t ≠ q.permitError := by
  unfold lineError permitError
  split
  · exact HostError.noConfusion
  · exact HostError.noConfusion

/-- A ticket in line was told nothing. -/
theorem answer?_of_members (ho : p.Orderly) (ht : t ∈ p.members) : p.answer? t = none :=
  answer?_eq_none fun hmem =>
    List.disjoint_of_nodup_append ho.callers_nodup ht (List.mem_append_right _ hmem)

/-! ### Those that came before -/

/-- A ticket has obtained a worker in a run. -/
def Obtained (p₀ : Pool) (es : List PoolEvent) (t : Ticket) : Prop :=
  ∃ before after q q', es = before ++ .take t :: after ∧ p₀.run before = some q ∧ Obtains q t q'

/-- A ticket has left the line: it has obtained a worker, or it was withdrawn by its caller or by
its token. -/
def Passed (p₀ : Pool) (es : List PoolEvent) (p : Pool) (t : Ticket) : Prop :=
  Obtained p₀ es t ∨ .withdraw t ∈ es ∨ p.hasFired t = true

theorem Passed.concat (h : Passed p₀ es p t) (hs : p.step e = some p') :
    Passed p₀ (es ++ [e]) p' t := by
  rcases h with ⟨before, after, q, q', rfl, hq, hobtains⟩ | hgone | hfired
  · exact .inl ⟨before, after ++ [e], q, q', by simp, hq, hobtains⟩
  · exact .inr (.inl (List.mem_append_left _ hgone))
  · exact .inr (.inr (hasFired_step (occurs_of_step hs) hfired))

/-- A ticket that comes stands in line, unless its token has fired already and it is told so. -/
theorem asked_step (hq : p.Queued) (h : p.step e = some p') (ht : t < p'.asked)
    (hnew : ¬ t < p.asked) : t ∈ p'.inTurn ∨
      p'.hasFired t = true ∧ p'.answer? t = some (.error .operationCancelled) := by
  have hlast : ∀ l : Line, l = p.toLine.join p.closed p.asked → p.asked ∈ l.inTurn := by
    rintro l rfl
    rw [Line.inTurn_join hq.allGiven]
    exact List.mem_append_right _ (List.mem_singleton_self _)
  have hoccurs := occurs_of_step h
  cases hoccurs with
  | ask =>
    obtain rfl : t = p.asked := Nat.le_antisymm (Nat.le_of_lt_succ ht) (Nat.le_of_not_lt hnew)
    exact .inl (hlast _ rfl)
  | askRun =>
    obtain rfl : t = p.asked := Nat.le_antisymm (Nat.le_of_lt_succ ht) (Nat.le_of_not_lt hnew)
    exact .inl (hlast _ rfl)
  | askFired =>
    obtain rfl : t = p.asked := Nat.le_antisymm (Nat.le_of_lt_succ ht) (Nat.le_of_not_lt hnew)
    refine .inr ⟨hasFired_iff.mpr ⟨List.mem_cons_self, List.mem_cons_self⟩, ?_⟩
    rw [answer?_tell, if_pos rfl]
  | _ => exact absurd ht hnew

/-- As long as the pool is open, every ticket that came is in line or has passed. -/
theorem passed_run {n : Nat} (h₀ : Fresh n p₀) (h : p₀.run es = some p) (hc : p.closed = false) :
    ∀ t < p.asked, t ∈ p.inTurn ∨ Passed p₀ es p t := by
  refine run_induction (motive := fun es q => q.closed = false →
    ∀ t < q.asked, t ∈ q.inTurn ∨ Passed p₀ es q t) ?_ ?_ h hc
  · obtain ⟨-, name, grace, now, rfl⟩ := fresh_eq h₀
    exact fun _ t ht => absurd ht (Nat.not_lt_zero t)
  · intro es q e q' hrun hpassed hs hopen t ht
    have ho := (accounted_run h₀ hrun).1
    have hqueued := queued_run h₀ hrun
    by_cases hnew : t < q.asked
    · rcases hpassed (closed_step (occurs_of_step hs) hopen) t hnew with hline | hpassed
      · by_cases hline' : t ∈ q'.inTurn
        · exact .inl hline'
        · refine .inr ?_
          have hmember : t ∈ q.members := Line.mem_inTurn.mp hline
          rcases (leaves_step ho hqueued hs hline hline').worker with
            ⟨rfl, hobtains⟩ | ⟨rfl | ⟨err, htold⟩, -⟩
          · exact .inl ⟨es, [], q, q', rfl, hrun, hobtains⟩
          · exact .inr (.inl (by simp))
          · -- The pool is open, so the ticket can only have been told that its token fired.
            have hline := told_lineError h₀ hrun hs (answer?_of_members ho hmember) htold
              (not_started_of_members ho hmember)
            refine .inr (.inr (by_contra fun hfired => ?_))
            have hclosed := hline.2 (by simpa using hfired)
            cases hopen.symm.trans hclosed
      · exact .inr (hpassed.concat hs)
    · rcases asked_step hqueued hs ht hnew with hline | ⟨hfired, -⟩
      · exact .inl hline
      · exact .inr (.inr (.inr hfired))

/-! ### Turns -/

/-- Whoever has a permit stands in front of whoever has none. -/
theorem granted_of_lt (hq : p.Queued) (hu : u ∈ p.granted) (ht : t ∈ p.inTurn) (hlt : t < u) :
    t ∈ p.granted := by
  rcases List.mem_append.mp ht with hg | hqueue
  · exact hg
  · have hsorted := (List.pairwise_append.mp hq.sorted).2.2 u hu t hqueue
    exact absurd hlt (Nat.lt_asymm hsorted)

/-- The first ticket with a permit came before all others in line. -/
theorem le_of_first (hq : p.Queued) (hu : p.granted.head? = some u) (ht : t ∈ p.inTurn) :
    u ≤ t := by
  obtain ⟨rest, hgranted⟩ : ∃ rest, p.granted = u :: rest := by
    cases hg : p.granted with
    | nil => simp [hg] at hu
    | cons a rest => exact ⟨rest, by simpa [hg] using hu⟩
  have hturn : p.inTurn = u :: (rest ++ p.queue) := by
    rw [Line.inTurn, hgranted, List.cons_append]
  have hsorted := hq.sorted
  rw [hturn] at hsorted ht
  rcases List.mem_cons.mp ht with rfl | ht
  · exact Nat.le_refl _
  · exact Nat.le_of_lt ((List.pairwise_cons.mp hsorted).1 t ht)

/-- Whoever has a permit in an open pool, and whose token has not fired, can obtain a worker. -/
theorem obtains_of_granted (ho : p.Orderly) (hg : t ∈ p.granted) (hc : p.closed = false)
    (hf : p.hasFired t = false) : ∃ p', Obtains p t p' := by
  obtain ⟨p', hstep⟩ : ∃ p', p.step (.take t) = some p' :=
    ⟨p.take t, by rw [step, if_pos (by simpa using hg)]⟩
  have hoccurs := occurs_of_step hstep
  refine ⟨p', hstep, ?_⟩
  cases hoccurs with
  | takeFired _ hfired => cases hf.symm.trans hfired
  | takeClosed _ _ hclosed => cases hc.symm.trans hclosed
  | takeNothing _ _ _ hidle => exact absurd hidle (idle_ne_nil_of_granted ho hg hc)
  | @takeRun _ w _ _ _ _ hidle _ => exact ⟨w, hidle, .inr List.mem_cons_self⟩
  | @takeHeld _ w _ _ _ _ hidle _ => exact ⟨w, hidle, .inl List.mem_cons_self⟩

/-- Workers are obtained in open pools, by tickets with a permit. -/
theorem Obtains.open_granted (h : Obtains p u p') : p.closed = false ∧ u ∈ p.granted := by
  obtain ⟨w, hidle, -⟩ := h.worker
  have hne : p.idle ≠ p'.idle := fun heq => by
    have hlen := congrArg List.length (hidle.symm.trans heq)
    rw [List.length_cons] at hlen
    omega
  have hoccurs := occurs_of_step h.step
  cases hoccurs with
  | takeFired => exact absurd rfl hne
  | takeClosed => exact absurd rfl hne
  | takeNothing => exact absurd rfl hne
  | takeRun hg _ hc => exact ⟨hc, hg⟩
  | takeHeld hg _ hc => exact ⟨hc, hg⟩

/-- When a ticket obtains a worker, those that came before it have passed, or they have a permit and
the ticket was not the first one to have one. -/
theorem passed_of_obtains {n : Nat} (h₀ : Fresh n p₀) (h : p₀.run es = some p)
    (hu : Obtains p u p') (hlt : t < u) :
    Passed p₀ es p t ∨ t ∈ p.granted ∧ p.granted.head? ≠ some u := by
  have hqueued := queued_run h₀ h
  obtain ⟨hc, hg⟩ := hu.open_granted
  have hasked : u < p.asked :=
    (accounted_run h₀ h).1.callers_asked u (List.mem_append_left _ (mem_members.mpr (.inr hg)))
  rcases passed_run h₀ h hc t (Nat.lt_trans hlt hasked) with hline | hpassed
  · refine .inr ⟨granted_of_lt hqueued hg hline hlt, fun hfirst => ?_⟩
    exact absurd (le_of_first hqueued hfirst hline) (Nat.not_le_of_lt hlt)
  · exact .inl hpassed

/-! ### Coming to rest -/

/-- The callers in a pool take their next steps. -/
def ByCaller : PoolEvent → Prop
  | .take _ | .learn _ => True
  | _ => False

/-- How many steps callers can take at most: those in line two each, to take a worker and to learn
what came of it, and those that watch a job one. -/
def callerSteps (p : Pool) : Nat := 2 * p.members.length + p.watching.length

/-- A caller that takes a step has fewer left. -/
theorem callerSteps_step (ho : p.Orderly) (he : ByCaller e) (h : p.step e = some p') :
    p'.callerSteps < p.callerSteps := by
  have hleave : ∀ t ∈ p.members,
      (p.toLine.leave p.closed t).members.length + 1 = p.members.length := fun t ht => by
    rw [(Line.members_leave ho.members_nodup p.closed t).length_eq]
    exact (perm_cons_filter_ne ho.members_nodup ht).length_eq.symm
  have hspend : ∀ t ∈ p.granted, (p.toLine.spend t).members.length + 1 = p.members.length :=
    fun t ht => by
      rw [Line.members_spend ho.members_nodup ht]
      exact (perm_cons_filter_ne ho.members_nodup (mem_members.mpr (.inr ht))).length_eq.symm
  have hlearn : ∀ t ∈ p.watching, (p.watching.filter (· ≠ t)).length + 1 = p.watching.length :=
    fun t ht => (perm_cons_filter_ne ho.watching_nodup ht).length_eq.symm
  suffices hless : p'.members.length + 1 = p.members.length ∧
        p'.watching.length ≤ p.watching.length + 1 ∨
      p'.members = p.members ∧ p'.watching.length + 1 = p.watching.length by
    unfold callerSteps
    rcases hless with ⟨hmembers, hwatching⟩ | ⟨hmembers, hwatching⟩
    · omega
    · rw [hmembers]
      omega
  have hoccurs := occurs_of_step h
  cases hoccurs with
  | takeFired hg => exact .inl ⟨hleave _ (mem_members.mpr (.inr hg)), Nat.le_succ _⟩
  | takeClosed hg => exact .inl ⟨hleave _ (mem_members.mpr (.inr hg)), Nat.le_succ _⟩
  | takeNothing hg => exact .inl ⟨hleave _ (mem_members.mpr (.inr hg)), Nat.le_succ _⟩
  | takeRun hg => exact .inl ⟨hspend _ hg, Nat.le_refl _⟩
  | takeHeld hg => exact .inl ⟨hspend _ hg, Nat.le_succ _⟩
  | learnResult hw => exact .inr ⟨rfl, hlearn _ hw⟩
  | learnLost hw => exact .inr ⟨rfl, hlearn _ hw⟩
  | learnFired hw => exact .inr ⟨rfl, hlearn _ hw⟩
  | learnWaiting _ hl => exact .inl ⟨hleave _ (mem_members.mpr hl), Nat.le_succ _⟩
  | _ => exact he.elim

/-- As long as a pool is not at rest, some caller can take a step. -/
theorem exists_step_of_not_atRest (h : ¬ p.AtRest) : ∃ e p', ByCaller e ∧ p.step e = some p' := by
  by_cases hg : p.granted = []
  · obtain ⟨t, ht⟩ : ∃ t, p.canLearn t ≠ false := by
      by_contra hnone
      exact h ⟨hg, fun t => by_contra fun ht => hnone ⟨t, ht⟩⟩
    exact ⟨.learn t, p.learn t, trivial, by rw [step, if_pos (by simpa using ht)]⟩
  · obtain ⟨t, rest, hrest⟩ := List.exists_cons_of_ne_nil hg
    exact ⟨.take t, p.take t, trivial, by rw [step, if_pos (by simp [hrest])]⟩

/-- If callers take their steps, the pool comes to rest. -/
theorem comes_to_rest (ho : p.Orderly) :
    ∃ es q, (∀ e ∈ es, ByCaller e) ∧ p.run es = some q ∧ q.AtRest := by
  induction hn : p.callerSteps using Nat.strongRecOn generalizing p with
  | ind n ih =>
    by_cases hrest : p.AtRest
    · exact ⟨[], p, nofun, rfl, hrest⟩
    · obtain ⟨e, p', he, hstep⟩ := exists_step_of_not_atRest hrest
      have hless : p'.callerSteps < n := hn ▸ callerSteps_step ho he hstep
      obtain ⟨es, q, hes, hrun, hq⟩ := ih _ hless (orderly_step ho (occurs_of_step hstep)) rfl
      refine ⟨e :: es, q, List.forall_mem_cons.mpr ⟨he, hes⟩, ?_, hq⟩
      rw [run_cons, hstep]
      exact hrun

/-- At rest nobody waits for a worker that is idle, and nobody waits in a closed pool. -/
theorem inTurn_eq_nil_of_atRest (ho : p.Orderly) (hq : p.Queued) (hrest : p.AtRest)
    (h : p.closed = true ∨ p.idle ≠ []) : p.inTurn = [] := by
  obtain ⟨hgranted, hlearn⟩ := hrest
  have hqueue : p.queue = [] := by
    cases hc : p.closed with
    | true =>
      by_contra hne
      obtain ⟨t, rest, hrest⟩ := List.exists_cons_of_ne_nil hne
      have hcan : p.canLearn t = true := by simp [canLearn, hrest, hc]
      cases hcan.symm.trans (hlearn t)
    | false =>
      have hidle : p.idle ≠ [] := h.resolve_left (by simp [hc])
      have hpermits := ho.permits_eq hc
      rw [Line.allPermits, hgranted, List.length_nil] at hpermits
      have hpos := List.length_pos_of_ne_nil hidle
      by_contra hne
      have := hq.allGiven hc hne
      omega
  rw [Line.inTurn, hgranted, hqueue, List.append_nil]

/-! ### The line of a pool -/

/-- In every state of a pool that was started, whatever has happened:  As long as the pool is open
its permits count the idle workers, the first ones in line have them, and whoever has one can obtain
a worker.  Without a worker one is told that the token fired or that the pool is closed, and of no
other failure.  At rest, to which callers come by their own steps, nobody waits for an idle worker
or in a closed pool.  A ticket that leaves the line costs no other one a worker.  The line is in the
order of arrival: when a ticket obtains a worker, all before it have obtained one or were withdrawn,
except those that have a permit for another idle worker. -/
theorem served_in_turn {n : Nat} (h₀ : Fresh n p₀) (h : p₀.run es = some p) :
    (p.closed = false → p.permits + p.granted.length = p.idle.length ∧
      p.granted = p.inTurn.take p.idle.length ∧
      ∀ t ∈ p.granted, p.hasFired t = false → ∃ p', Obtains p t p') ∧
    (∀ e p' t r, p.step e = some p' → p.answer? t = none → p'.answer? t = some r →
      t ∉ p.started.map Prod.fst →
      r = .error (p'.lineError t) ∧ (p'.hasFired t = false → p'.closed = true) ∧
        r ≠ .error p.permitError) ∧
    (p.AtRest → p.closed = true ∨ p.idle ≠ [] → p.inTurn = []) ∧
    (∃ steps q, (∀ e ∈ steps, ByCaller e) ∧ p.run steps = some q ∧ q.AtRest) ∧
    (∀ e p' t, p.step e = some p' → t ∈ p.inTurn → t ∉ p'.inTurn → Leaves p e t p') ∧
    p.inTurn.Pairwise (· < ·) ∧
    (∀ u p', Obtains p u p' → ∀ t < u,
      Passed p₀ es p t ∨ t ∈ p.granted ∧ p.granted.head? ≠ some u) := by
  have ho := (accounted_run h₀ h).1
  have hqueued := queued_run h₀ h
  refine ⟨fun hc => ?_, fun e p' t r hs hnone htold hnot => ?_, inTurn_eq_nil_of_atRest ho hqueued,
    comes_to_rest ho, fun e p' t => leaves_step ho hqueued, hqueued.sorted,
    fun u p' hu t => passed_of_obtains h₀ h hu⟩
  · have hpermits := ho.permits_eq hc
    exact ⟨hpermits, Line.granted_eq_take (hqueued.allGiven hc) hpermits,
      fun t hg => obtains_of_granted ho hg hc⟩
  · obtain ⟨rfl, hclosed⟩ := told_lineError h₀ h hs hnone htold hnot
    refine ⟨rfl, hclosed, fun heq => ?_⟩
    exact lineError_ne_permitError p' p t (Except.error.inj heq)

/-- One worker is kept by the first of three tickets.  As it is released the second one gets the
permit, but its caller goes away, so that the third one obtains the worker. -/
theorem served_in_turn_after_withdrawal :
    ∃ p₀ p p', Fresh 1 p₀ ∧
      p₀.run [.ask, .take 0, .ask, .askRun false, .release 0, .withdraw 1] = some p ∧
      p.granted = [2] ∧ p.permits + p.granted.length = p.idle.length ∧ Obtains p 2 p' ∧
      ∀ t < 2, Passed p₀ [.ask, .take 0, .ask, .askRun false, .release 0, .withdraw 1] p t := by
  let p₀ := opened "one" 10 0 (firstWorkers 1) 1
  have h₀ : Fresh 1 p₀ := fresh_opened (by decide) "one" 10 0
  let es : List PoolEvent := [.ask, .take 0, .ask, .askRun false, .release 0, .withdraw 1]
  let p := (p₀.run es).get (by decide +kernel)
  have hrun : p₀.run es = some p := (Option.some_get _).symm
  have hgranted : p.granted = [2] := by decide +kernel
  obtain ⟨hopen, -, -, -, -, -, hturn⟩ := served_in_turn h₀ hrun
  obtain ⟨hpermits, -, hobtains⟩ := hopen (by decide +kernel)
  obtain ⟨p', hp'⟩ := hobtains 2 (hgranted ▸ List.mem_singleton_self 2) (by decide +kernel)
  refine ⟨p₀, p, p', h₀, hrun, hgranted, hpermits, hp', fun t ht => ?_⟩
  refine (hturn 2 p' hp' t ht).resolve_right fun hfirst => hfirst.2 ?_
  rw [hgranted, List.head?_cons]

/-- Two tickets that wait have the permits for two idle workers, and the one that came later takes
its worker first, while the other one still waits. -/
theorem not_in_order_of_arrival :
    ∃ p₀ p p', Fresh 2 p₀ ∧
      p₀.run [.ask, .take 0, .ask, .take 1, .ask, .ask, .release 0, .release 1] = some p ∧
      Obtains p 3 p' ∧ p'.answers = [] ∧ 2 ∈ p.inTurn ∧ 2 ∈ p'.inTurn := by
  let p₀ := opened "pair" 10 0 (firstWorkers 2) 2
  have h₀ : Fresh 2 p₀ := fresh_opened (by decide) "pair" 10 0
  let es : List PoolEvent := [.ask, .take 0, .ask, .take 1, .ask, .ask, .release 0, .release 1]
  let p := (p₀.run es).get (by decide +kernel)
  have hrun : p₀.run es = some p := (Option.some_get _).symm
  let p' := (p.step (.take 3)).get (by decide +kernel)
  have hstep : p.step (.take 3) = some p' := (Option.some_get _).symm
  have hanswers : p'.answers.isEmpty = true := by decide +kernel
  have hobtains : Obtains p 3 p' :=
    ⟨hstep, ⟨0, 0⟩, by decide +kernel, .inl (by decide +kernel)⟩
  exact ⟨p₀, p, p', h₀, hrun, hobtains, List.isEmpty_iff.mp hanswers, by decide +kernel,
    by decide +kernel⟩

end Pool

end LanguageHost
