import LanguageHost.Proofs.Pool.Dropped
import LanguageHost.Proofs.Pool.Renumbered

/-!
# A ticket that is left out of the line

Who stands in line has a say in who is served, but not in what workers and jobs do.  So a pool is
taken with another line (`Pool.withLine`) in which one ticket is missing (`Line.Skips`).  Whoever
has a permit with that ticket in line has one all the more without it (`granted_of_skips`), and
everything else that happens is the same in both pools (`step_skips`).  The one difference is how a
caller is told that it goes without a worker: with a permit or without one, which are
`PoolEvent.Alike`.

That a ticket is a run is left out by `Pool.withoutRun`, and matters to that ticket only
(`step_withoutRun`).
-/

namespace LanguageHost

/-- Two events are the same for a caller in line: it learns that it goes without a worker, with a
permit or without one. -/
inductive PoolEvent.Alike : PoolEvent → PoolEvent → Prop where
  | refl (e : PoolEvent) : Alike e e
  | takeLearn (u : Ticket) : Alike (.take u) (.learn u)
  | learnTake (u : Ticket) : Alike (.learn u) (.take u)

theorem alike_take {e : PoolEvent} {u : Ticket} (h : e = .take u ∨ e = .learn u) :
    PoolEvent.Alike (.take u) e := by
  rcases h with rfl | rfl
  · exact .refl _
  · exact .takeLearn u

theorem alike_learn {e : PoolEvent} {u : Ticket} (h : e = .take u ∨ e = .learn u) :
    PoolEvent.Alike (.learn u) e := by
  rcases h with rfl | rfl
  · exact .learnTake u
  · exact .refl _

/-- Whether an event is about a ticket. -/
def PoolEvent.names (t : Ticket) : PoolEvent → Bool
  | .fire u | .withdraw u | .take u | .learn u | .finish u _ | .panic u | .crash u | .fireOwn u
  | .expire u | .jobDown u | .built u _ | .release u | .released u
  | .abandonRelease u => decide (u = t)
  | .ask | .askRun _ | .close | .closedOne | .abandonClose | .wait _ => false

theorem PoolEvent.Alike.symm {e e' : PoolEvent} (h : e.Alike e') : e'.Alike e := by
  cases h with
  | refl => exact .refl _
  | takeLearn => exact .learnTake _
  | learnTake => exact .takeLearn _

theorem PoolEvent.Alike.names {e e' : PoolEvent} {t : Ticket} (h : e.Alike e')
    (he : e.names t = false) : e'.names t = false := by
  cases h with
  | refl => exact he
  | takeLearn => exact he
  | learnTake => exact he

/-- An event that is not about a ticket may come where that number was left out. -/
theorem exists_shifted {e : PoolEvent} {t : Ticket} (he : e.names t = false) :
    ∃ e' : PoolEvent, e'.shifted t = e := by
  cases e with
  | fire u =>
    obtain ⟨v, rfl⟩ := exists_past (of_decide_eq_false he)
    exact ⟨.fire v, rfl⟩
  | withdraw u =>
    obtain ⟨v, rfl⟩ := exists_past (of_decide_eq_false he)
    exact ⟨.withdraw v, rfl⟩
  | take u =>
    obtain ⟨v, rfl⟩ := exists_past (of_decide_eq_false he)
    exact ⟨.take v, rfl⟩
  | learn u =>
    obtain ⟨v, rfl⟩ := exists_past (of_decide_eq_false he)
    exact ⟨.learn v, rfl⟩
  | finish u r =>
    obtain ⟨v, rfl⟩ := exists_past (of_decide_eq_false he)
    exact ⟨.finish v r, rfl⟩
  | panic u =>
    obtain ⟨v, rfl⟩ := exists_past (of_decide_eq_false he)
    exact ⟨.panic v, rfl⟩
  | crash u =>
    obtain ⟨v, rfl⟩ := exists_past (of_decide_eq_false he)
    exact ⟨.crash v, rfl⟩
  | fireOwn u =>
    obtain ⟨v, rfl⟩ := exists_past (of_decide_eq_false he)
    exact ⟨.fireOwn v, rfl⟩
  | expire u =>
    obtain ⟨v, rfl⟩ := exists_past (of_decide_eq_false he)
    exact ⟨.expire v, rfl⟩
  | jobDown u =>
    obtain ⟨v, rfl⟩ := exists_past (of_decide_eq_false he)
    exact ⟨.jobDown v, rfl⟩
  | built u made =>
    obtain ⟨v, rfl⟩ := exists_past (of_decide_eq_false he)
    exact ⟨.built v made, rfl⟩
  | release u =>
    obtain ⟨v, rfl⟩ := exists_past (of_decide_eq_false he)
    exact ⟨.release v, rfl⟩
  | released u =>
    obtain ⟨v, rfl⟩ := exists_past (of_decide_eq_false he)
    exact ⟨.released v, rfl⟩
  | abandonRelease u =>
    obtain ⟨v, rfl⟩ := exists_past (of_decide_eq_false he)
    exact ⟨.abandonRelease v, rfl⟩
  | ask => exact ⟨.ask, rfl⟩
  | askRun fired => exact ⟨.askRun fired, rfl⟩
  | close => exact ⟨.close, rfl⟩
  | closedOne => exact ⟨.closedOne, rfl⟩
  | abandonClose => exact ⟨.abandonClose, rfl⟩
  | wait time => exact ⟨.wait time, rfl⟩

theorem names_shifted (t : Ticket) (e : PoolEvent) : (e.shifted t).names t = false := by
  cases e <;> first | rfl | exact decide_eq_false (past_ne t _)

namespace Line

variable {l l' : Line} {t u : Ticket}

/-- A line in which a ticket is left out. -/
def Skips (t : Ticket) (l l' : Line) : Prop := l'.inTurn = l.inTurn.filter (· ≠ t)

theorem Skips.symm (h : Skips t l l') (ht : t ∉ l.inTurn) : Skips t l' l := by
  rw [Skips, h, List.filter_filter]
  simp only [Bool.and_self]
  exact (filter_ne_eq_self ht).symm

theorem Skips.mem (h : Skips t l l') (hne : u ≠ t) (hu : u ∈ l.inTurn) : u ∈ l'.inTurn := by
  rw [h]
  exact List.mem_filter.mpr ⟨hu, decide_eq_true hne⟩

/-- Whoever stands among the first ones in line does so all the more if another one is not there. -/
theorem mem_take_filter_ne {l : List Ticket} {n : Nat} (hne : u ≠ t) (h : u ∈ l.take n) :
    u ∈ (l.filter (· ≠ t)).take n := by
  induction l generalizing n with
  | nil => simp at h
  | cons v l ih =>
    cases n with
    | zero => simp at h
    | succ n =>
      rw [List.take_succ_cons] at h
      by_cases hv : v = t
      · rw [List.filter_cons_of_neg (by simpa using hv)]
        have hrest : u ∈ l.take n := (List.mem_cons.mp h).resolve_left fun heq => hne (heq.trans hv)
        exact (List.take_subset_take_left _ (Nat.le_succ n)) (ih hrest)
      · rw [List.filter_cons_of_pos (by simpa using hv), List.take_succ_cons]
        rcases List.mem_cons.mp h with rfl | hrest
        · exact List.mem_cons_self
        · exact List.mem_cons_of_mem _ (ih hrest)

theorem Skips.give (h : Skips t l l') (closed : Bool) :
    Skips t (l.give closed) (l'.give closed) := by
  rw [Skips, inTurn_give, inTurn_give]
  exact h

theorem Skips.join {closed : Bool} (h : Skips t l l') (hl : closed = false → l.AllGiven)
    (hl' : closed = false → l'.AllGiven) (hne : u ≠ t) :
    Skips t (l.join closed u) (l'.join closed u) := by
  rw [Skips, inTurn_join hl, inTurn_join hl', h, List.filter_append,
    List.filter_cons_of_pos (by simpa using hne), List.filter_nil]

theorem Skips.leave (h : Skips t l l') (hl : l.members.Nodup) (hl' : l'.members.Nodup)
    (closed : Bool) (u : Ticket) : Skips t (l.leave closed u) (l'.leave closed u) := by
  rw [Skips, inTurn_leave hl, inTurn_leave hl', h, List.filter_filter, List.filter_filter]
  simp only [Bool.and_comm]

theorem Skips.spend (h : Skips t l l') (hl : l.members.Nodup) (hl' : l'.members.Nodup)
    (hg : u ∈ l.granted) (hg' : u ∈ l'.granted) : Skips t (l.spend u) (l'.spend u) := by
  rw [Skips, inTurn_spend hl hg, inTurn_spend hl' hg', h, List.filter_filter, List.filter_filter]
  simp only [Bool.and_comm]

/-- With so many permits a line is known from the tickets that stand in it. -/
theorem eq_of_inTurn (hl : l.AllGiven) (hl' : l'.AllGiven) (hpermits : l.allPermits = l'.allPermits)
    (hturn : l.inTurn = l'.inTurn) : l = l' := by
  have hgranted : l.granted = l'.granted := by
    rw [granted_eq_take hl rfl, granted_eq_take hl' rfl, hpermits, hturn]
  have hqueue : l.queue = l'.queue := by
    rw [inTurn, inTurn, hgranted] at hturn
    exact List.append_cancel_left hturn
  have hfree : l.permits = l'.permits := by
    rw [allPermits, allPermits, hgranted] at hpermits
    exact Nat.add_right_cancel hpermits
  cases l
  cases l'
  simp_all

end Line

namespace Pool

variable {p p' q q' m m' r s : Pool} {e : PoolEvent} {es : List PoolEvent} {t u : Ticket} {l : Line}

/-! ### Another line -/

/-- The pool with another line. -/
def withLine (p : Pool) (l : Line) : Pool := { p with toLine := l }

/-- A caller in line that has to go without a worker can be told so. -/
theorem exists_tells_in_line (ho : s.Orderly) (hu : u ∈ s.members)
    (h : s.closed = true ∨ s.hasFired u = true) :
    ∃ e, (e = .take u ∨ e = .learn u) ∧
      s.step e = some ((s.forget u).tell u (.error (s.lineError u))) := by
  have hwatch : u ∉ s.watching := fun hwatch =>
    List.disjoint_of_nodup_append ho.callers_nodup hu (List.mem_append_left _ hwatch)
  rcases mem_members.mp hu with hqueue | hgranted
  · refine ⟨.learn u, .inr rfl, ?_⟩
    have hcan : s.canLearn u = true := by
      simp only [canLearn, Bool.or_eq_true, Bool.and_eq_true, List.contains_eq_mem,
        decide_eq_true_eq]
      exact .inl (.inl ⟨hqueue, h⟩)
    rw [step, if_pos hcan, learn, if_neg (by simpa using hwatch)]
    rfl
  · refine ⟨.take u, .inl rfl, ?_⟩
    rw [step, if_pos (by simpa using hgranted), take, lineError]
    cases hf : s.hasFired u with
    | true => rfl
    | false =>
      have hc : s.closed = true := h.resolve_right (by simp [hf])
      simp only [hc]
      rfl

/-- A caller that takes a worker in a pool takes it as well where another ticket is left out of the
line. -/
theorem granted_of_skips (ho : m.Orderly) (hq : m.Queued) (hos : (m.withLine l).Orderly)
    (hqs : (m.withLine l).Queued) (hl : Line.Skips t m.toLine l) (hne : u ≠ t)
    (hc : m.closed = false) (hg : u ∈ m.granted) : u ∈ l.granted := by
  have htake : m.granted = m.inTurn.take m.idle.length :=
    Line.granted_eq_take (hq.allGiven hc) (ho.permits_eq hc)
  have htake' : l.granted = l.inTurn.take m.idle.length :=
    Line.granted_eq_take (hqs.allGiven hc) (hos.permits_eq hc)
  rw [htake', hl]
  exact Line.mem_take_filter_ne hne (htake ▸ hg)

/-- The events of workers are the same where a ticket is left out of the line. -/
theorem step_skips_of_byWorkers (hl : Line.Skips t m.toLine l) (he : e.byWorkers = true)
    (hs : m.step e = some m') :
    ∃ l', (m.withLine l).step e = some (m'.withLine l') ∧ Line.Skips t m'.toLine l' := by
  have hside := callerSide_step he hs
  have hline : m'.toLine = m.lineAfter m.toLine e := congrArg CallerSide.toLine hside
  have hstep : (m.withLine l).step e = _ :=
    step_withCallerSide m { m.callerSide with toLine := l } he
  rw [hs, Option.map_some] at hstep
  have hrest : m'.withCallerSide { m.callerSide with toLine := m.lineAfter l e } =
      m'.withLine (m.lineAfter l e) := by
    have hsame : { m'.callerSide with toLine := m.lineAfter l e } =
        { m.callerSide with toLine := m.lineAfter l e } := by rw [hside]
    rw [← hsame]
    rfl
  refine ⟨m.lineAfter l e, hstep.trans (congrArg some hrest), ?_⟩
  rw [hline]
  unfold lineAfter
  split
  · exact hl.give _
  · exact hl.give _
  · exact hl.give _
  · exact hl

/-- A caller in line that is told that it goes without a worker is told the same where another
ticket is left out of the line, even if it has a permit in one of the two lines only. -/
theorem tells_of_skips (ho : m.Orderly) (hos : (m.withLine l).Orderly)
    (hl : Line.Skips t m.toLine l) (hne : u ≠ t) (hu : u ∈ m.members)
    (h : m.closed = true ∨ m.hasFired u = true) :
    ∃ e' l', (e' = .take u ∨ e' = .learn u) ∧
      (m.withLine l).step e' = some
        (((m.forget u).tell u (.error (m.lineError u))).withLine l') ∧
      Line.Skips t ((m.forget u).tell u (.error (m.lineError u))).toLine l' := by
  have hturn : u ∈ l.inTurn := hl.mem hne (Line.mem_inTurn.mpr hu)
  have hmember : u ∈ (m.withLine l).members := Line.mem_inTurn.mp hturn
  obtain ⟨e', he', hstep⟩ := exists_tells_in_line hos hmember h
  refine ⟨e', l.leave m.closed u, he', hstep, ?_⟩
  exact hl.leave ho.members_nodup hos.members_nodup m.closed u

theorem fire_withLine (m : Pool) (l : Line) (u : Ticket) :
    (m.withLine l).step (.fire u) = (m.step (.fire u)).map fun q => q.withLine l := by
  show (if !m.runs.contains u || m.fired.contains u then none else _) =
    Option.map _ (if !m.runs.contains u || m.fired.contains u then none else _)
  split
  · rfl
  · have hjob : (m.withLine l).job? u = m.job? u := rfl
    simp only [job?_with_fired, hjob]
    cases m.job? u with
    | none => rfl
    | some j =>
      obtain ⟨v, w, phase⟩ := j
      cases phase <;> rfl

theorem take_withLine (hf : m.hasFired u = false) (hc : m.closed = false) (hi : m.idle ≠ []) :
    (m.withLine l).take u = (m.take u).withLine (l.spend u) ∧
      (m.take u).toLine = m.toLine.spend u := by
  have hf' : (m.withLine l).hasFired u = false := hf
  have hc' : (m.withLine l).closed = false := hc
  obtain ⟨w, idle, hidle⟩ := List.exists_cons_of_ne_nil hi
  have hi' : (m.withLine l).idle = w :: idle := hidle
  simp only [take, hf, hf', hc, hc', hidle, hi', Bool.false_eq_true, if_false]
  show (if m.runs.contains u then _ else _) = withLine (if m.runs.contains u then _ else _) _ ∧
    Pool.toLine (if m.runs.contains u then _ else _) = _
  split <;> exact ⟨rfl, rfl⟩

theorem learn_withLine (hw : u ∈ m.watching) :
    (m.withLine l).learn u = (m.learn u).withLine l ∧ (m.learn u).toLine = m.toLine := by
  have hw : m.watching.contains u = true := by simpa using hw
  have hw' : (m.withLine l).watching.contains u = true := hw
  have hsent : (m.withLine l).sent? u = m.sent? u := rfl
  simp only [learn, hw, hw', if_true, hsent]
  cases m.sent? u <;> exact ⟨rfl, rfl⟩

/-- Whoever watches a job learns the same, whatever the line is. -/
theorem learn_of_watching (ho : m.Orderly) (hw : u ∈ m.watching)
    (hs : m.step (.learn u) = some m') :
    (m.withLine l).step (.learn u) = some (m'.withLine l) ∧ m'.toLine = m.toLine := by
  have hnot : u ∉ m.members := fun hmem =>
    List.disjoint_of_nodup_append ho.callers_nodup hmem (List.mem_append_left _ hw)
  have hqueue : u ∉ m.queue := fun hmem => hnot (mem_members.mpr (.inl hmem))
  have hgranted : u ∉ m.granted := fun hmem => hnot (mem_members.mpr (.inr hmem))
  rw [step] at hs
  split at hs
  · next hcan =>
    obtain rfl := Option.some.inj hs
    have hcan' : (m.withLine l).canLearn u = true := by
      simp only [canLearn, Bool.or_eq_true, Bool.and_eq_true, List.contains_eq_mem,
        decide_eq_true_eq, hqueue, hgranted, false_and, false_or] at hcan
      simp only [canLearn, Bool.or_eq_true, Bool.and_eq_true, List.contains_eq_mem,
        decide_eq_true_eq]
      exact .inr hcan
    obtain ⟨hlearn, hline⟩ := learn_withLine (l := l) hw
    exact ⟨by rw [step, if_pos hcan', hlearn], hline⟩
  · cases hs

/-- Whoever takes its worker takes the same worker where another ticket is left out of the line. -/
theorem takes_of_skips (ho : m.Orderly) (hq : m.Queued) (hos : (m.withLine l).Orderly)
    (hqs : (m.withLine l).Queued) (hl : Line.Skips t m.toLine l) (hne : u ≠ t) (hg : u ∈ m.granted)
    (hf : m.hasFired u = false) (hc : m.closed = false) (hi : m.idle ≠ [])
    (hs : m.step (.take u) = some m') :
    ∃ e' l', (PoolEvent.take u).Alike e' ∧ (m.withLine l).step e' = some (m'.withLine l') ∧
      Line.Skips t m'.toLine l' := by
  have hg' : u ∈ l.granted := granted_of_skips ho hq hos hqs hl hne hc hg
  obtain ⟨htake, hline⟩ := take_withLine (l := l) hf hc hi
  rw [step, if_pos (by simpa using hg)] at hs
  obtain rfl := Option.some.inj hs
  refine ⟨.take u, l.spend u, .refl _, ?_, ?_⟩
  · have hpermit : (m.withLine l).granted.contains u = true := List.contains_iff_mem.mpr hg'
    rw [step, if_pos hpermit, htake]
  · rw [hline]
    exact hl.spend ho.members_nodup hos.members_nodup hg hg'

theorem learns_of_skips (ho : m.Orderly) (hl : Line.Skips t m.toLine l) (hw : u ∈ m.watching)
    (hs : m.step (.learn u) = some m') :
    ∃ e' l', (PoolEvent.learn u).Alike e' ∧ (m.withLine l).step e' = some (m'.withLine l') ∧
      Line.Skips t m'.toLine l' := by
  obtain ⟨hstep, hline⟩ := learn_of_watching (l := l) ho hw hs
  exact ⟨.learn u, l, .refl _, hstep, hline ▸ hl⟩

/-- Where a ticket is left out of the line everything else is the same, but that a caller in line
may learn with a permit what it learns without one, or the other way round. -/
theorem step_skips (ho : m.Orderly) (hq : m.Queued) (hos : (m.withLine l).Orderly)
    (hqs : (m.withLine l).Queued) (hl : Line.Skips t m.toLine l) (ht : t < m.asked)
    (he : e.names t = false) (hs : m.step e = some m') :
    ∃ e' l', e.Alike e' ∧ (m.withLine l).step e' = some (m'.withLine l') ∧
      Line.Skips t m'.toLine l' := by
  have hworkers : e.byWorkers = true → ∃ e' l', e.Alike e' ∧
      (m.withLine l).step e' = some (m'.withLine l') ∧ Line.Skips t m'.toLine l' := fun hby => by
    obtain ⟨l', hstep, hl'⟩ := step_skips_of_byWorkers hl hby hs
    exact ⟨e, l', .refl e, hstep, hl'⟩
  have hasked : m.asked ≠ t := Nat.ne_of_gt ht
  have hmn : m.toLine.members.Nodup := ho.members_nodup
  have hln : l.members.Nodup := hos.members_nodup
  have hoccurs := occurs_of_step hs
  cases hoccurs with
  | ask =>
    exact ⟨.ask, l.join m.closed m.asked, .refl _, rfl,
      hl.join hq.allGiven hqs.allGiven hasked⟩
  | askRun =>
    exact ⟨.askRun false, l.join m.closed m.asked, .refl _, rfl,
      hl.join hq.allGiven hqs.allGiven hasked⟩
  | askFired => exact ⟨.askRun true, l, .refl _, rfl, hl⟩
  | @fire u =>
    refine ⟨.fire u, l, .refl _, ?_, hl⟩
    rw [fire_withLine, hs, Option.map_some]
  | @fireRunning u =>
    refine ⟨.fire u, l, .refl _, ?_, hl⟩
    rw [fire_withLine, hs, Option.map_some]
  | withdraw u =>
    exact ⟨.withdraw u, l.leave m.closed u, .refl _, rfl, hl.leave hmn hln m.closed u⟩
  | @takeFired u hg hf =>
    have htells := tells_of_skips ho hos hl (of_decide_eq_false he) (mem_members.mpr (.inr hg))
      (.inr hf)
    rw [lineError, if_pos hf] at htells
    obtain ⟨e', l', he', hstep, hl'⟩ := htells
    exact ⟨e', l', alike_take he', hstep, hl'⟩
  | @takeClosed u hg hf hc =>
    have htells := tells_of_skips ho hos hl (of_decide_eq_false he) (mem_members.mpr (.inr hg))
      (.inl hc)
    rw [lineError, if_neg (by simp [hf])] at htells
    obtain ⟨e', l', he', hstep, hl'⟩ := htells
    exact ⟨e', l', alike_take he', hstep, hl'⟩
  | takeNothing hg _ hc hi => exact absurd hi (idle_ne_nil_of_granted ho hg hc)
  | @takeRun u w idle hg hf hc hi =>
    exact takes_of_skips ho hq hos hqs hl (of_decide_eq_false he) hg hf hc (by simp [hi]) hs
  | @takeHeld u w idle hg hf hc hi =>
    exact takes_of_skips ho hq hos hqs hl (of_decide_eq_false he) hg hf hc (by simp [hi]) hs
  | @learnResult u r hw => exact learns_of_skips ho hl hw hs
  | @learnLost u hw => exact learns_of_skips ho hl hw hs
  | @learnFired u hw => exact learns_of_skips ho hl hw hs
  | @learnWaiting u hw hline hc =>
    obtain ⟨e', l', he', hstep, hl'⟩ := tells_of_skips ho hos hl (of_decide_eq_false he)
      (mem_members.mpr hline) hc
    exact ⟨e', l', alike_learn he', hstep, hl'⟩
  | _ => exact hworkers rfl

/-! ### The run itself -/

/-- A pool without the request of a ticket for a run. -/
def withoutRun (p : Pool) (t : Ticket) : Pool :=
  p.onCallers fun c => { c with
    runs := c.runs.filter (· ≠ t), fired := c.fired.filter (· ≠ t) }

theorem contains_filter_ne {l : List Ticket} (hne : u ≠ t) :
    (l.filter (· ≠ t)).contains u = l.contains u := by
  simp [hne]

theorem hasFired_withoutRun (p : Pool) (hne : u ≠ t) :
    (p.withoutRun t).hasFired u = p.hasFired u := by
  show ((p.runs.filter (· ≠ t)).contains u && (p.fired.filter (· ≠ t)).contains u) = _
  rw [contains_filter_ne hne, contains_filter_ne hne]
  rfl

theorem take_withoutRun (p : Pool) (hne : u ≠ t) :
    (p.withoutRun t).take u = (p.take u).withoutRun t := by
  have hruns : (p.withoutRun t).runs.contains u = p.runs.contains u := contains_filter_ne hne
  have hclosed : (p.withoutRun t).closed = p.closed := rfl
  have hidle : (p.withoutRun t).idle = p.idle := rfl
  simp only [take, hasFired_withoutRun p hne, hruns, hclosed, hidle]
  split
  · rfl
  · split
    · rfl
    · cases p.idle with
      | nil => rfl
      | cons w idle =>
        show (if p.runs.contains u then _ else _) =
          withoutRun (if p.runs.contains u then _ else _) t
        split <;> rfl

theorem canLearn_withoutRun (p : Pool) (hne : u ≠ t) :
    (p.withoutRun t).canLearn u = p.canLearn u := by
  simp only [canLearn, hasFired_withoutRun p hne]
  rfl

theorem learn_withoutRun (p : Pool) (hne : u ≠ t) :
    (p.withoutRun t).learn u = (p.learn u).withoutRun t := by
  simp only [learn, hasFired_withoutRun p hne]
  show (if p.watching.contains u then _ else _) =
    withoutRun (if p.watching.contains u then _ else _) t
  split
  · have hsent : (p.withoutRun t).sent? u = p.sent? u := rfl
    simp only [hsent]
    cases p.sent? u <;> rfl
  · rfl

/-- What is not about a ticket is the same without its request for a run. -/
theorem step_withoutRun (ht : t < p.asked) (he : e.names t = false) :
    (p.withoutRun t).step e = (p.step e).map fun q => q.withoutRun t := by
  have hasked : p.asked ≠ t := Nat.ne_of_gt ht
  cases e with
  | ask => rfl
  | askRun fired =>
    cases fired with
    | false =>
      simp [step, withoutRun, onCallers, withCallerSide, callerSide, line, hasked]
    | true =>
      simp [step, withoutRun, onCallers, withCallerSide, callerSide, tell, hasked]
  | fire u =>
    have hne : u ≠ t := of_decide_eq_false he
    have hruns : (p.withoutRun t).runs.contains u = p.runs.contains u := contains_filter_ne hne
    have hfired : (p.withoutRun t).fired.contains u = p.fired.contains u := contains_filter_ne hne
    have hfire : { p.withoutRun t with fired := u :: (p.withoutRun t).fired } =
        ({ p with fired := u :: p.fired } : Pool).withoutRun t := by
      simp [withoutRun, onCallers, withCallerSide, callerSide, hne]
    simp only [step, hruns, hfired]
    split
    · rfl
    · have hjob : (({ p with fired := u :: p.fired } : Pool).withoutRun t).job? u = p.job? u := rfl
      rw [hfire]
      simp only [hjob, job?_with_fired]
      cases p.job? u with
      | none => rfl
      | some j =>
        obtain ⟨v, w, phase⟩ := j
        cases phase <;> rfl
  | withdraw u => rfl
  | take u =>
    have hne : u ≠ t := of_decide_eq_false he
    rw [step, step, take_withoutRun p hne]
    show (if p.granted.contains u then _ else none) =
      Option.map _ (if p.granted.contains u then _ else none)
    split <;> rfl
  | learn u =>
    have hne : u ≠ t := of_decide_eq_false he
    rw [step, step, canLearn_withoutRun p hne, learn_withoutRun p hne]
    split <;> rfl
  | _ => exact step_onCallers p rfl rfl

end Pool

end LanguageHost
