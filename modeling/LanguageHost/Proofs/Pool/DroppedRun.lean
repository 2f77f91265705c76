import LanguageHost.Proofs.Pool.Unissued

/-!
# Runs whose caller goes away

The caller of a run may go away at any time.  If the operation was given a worker by then, nobody
else can tell that it went (`run_of_withoutCaller`, `run_with_caller`).  If the run still waits for
a worker, then the session up to there has an `Echo`: the session without the run, in which the
same things happen to everybody else (`Compared.run`), and once the run has left the line every
continuation of one of the two sessions is one of the other (`Compared.run_back`).
-/

namespace LanguageHost

namespace Pool

variable {p p' q q' m m' r s : Pool} {e : PoolEvent} {es : List PoolEvent} {t u : Ticket} {l : Line}

/-! ### Sessions with and without the run -/

/-- The events of a session with a run that is never told anything, and those of the session without
it: what is only about the run is missing, and later tickets have other numbers. -/
inductive Echo (t : Ticket) : List PoolEvent → List PoolEvent → Prop where
  | nil : Echo t [] []
  | own {e : PoolEvent} {es es' : List PoolEvent} (he : e = .fire t ∨ e = .withdraw t)
      (h : Echo t es es') : Echo t (e :: es) es'
  | both {e e' : PoolEvent} {es es' : List PoolEvent} (he : e.Alike (e'.shifted t))
      (h : Echo t es es') : Echo t (e :: es) (e' :: es')

/-- Two pools that are compared, both of which are in order. -/
structure Compared (t : Ticket) (p r : Pool) : Prop where
  unissued : Unissued t p r
  unserved : p.Unserved t
  orderly : p.Orderly
  queued : p.Queued
  orderly' : r.Orderly
  queued' : r.Queued

namespace Compared

theorem own (h : Compared t p r) (he : e = .fire t ∨ e = .withdraw t)
    (hs : p.step e = some p') : Compared t p' r where
  unissued := h.unissued.own h.unserved h.orderly he hs
  unserved := h.unserved.step hs (by rcases he with rfl | rfl <;> exact PoolEvent.noConfusion)
  orderly := orderly_step h.orderly (occurs_of_step hs)
  queued := queued_step h.orderly h.queued hs
  orderly' := h.orderly'
  queued' := h.queued'

theorem both {e' : PoolEvent} {r' : Pool} (h : Compared t p r) (hu : Unissued t p' r')
    (htake : e ≠ .take t) (hs : p.step e = some p') (hs' : r.step e' = some r') :
    Compared t p' r' where
  unissued := hu
  unserved := h.unserved.step hs htake
  orderly := orderly_step h.orderly (occurs_of_step hs)
  queued := queued_step h.orderly h.queued hs
  orderly' := orderly_step h.orderly' (occurs_of_step hs')
  queued' := queued_step h.orderly' h.queued' hs'

/-- Where the pool with the run is at rest, so is the one without it. -/
theorem atRest (h : Compared t p r) (hrest : p.AtRest) : r.AtRest := by
  have hos : ((p.withoutRun t).withLine (r.toLine.shifted t)).Orderly :=
    h.unissued.same ▸ orderly_shifted h.orderly' t
  have hqs : ((p.withoutRun t).withLine (r.toLine.shifted t)).Queued :=
    h.unissued.same ▸ queued_shifted h.queued' t
  rw [← atRest_shifted r t, h.unissued.same]
  exact atRest_of_skips (orderly_withoutRun h.orderly t) (queued_withoutRun h.queued t) hos hqs
    h.unissued.skips (atRest_withoutRun hrest t)

/-- Where the run has left the line, the pool is at rest if the one without the run is. -/
theorem atRest_back (h : Compared t p r) (hnot : t ∉ p.members) (hrest : r.AtRest) :
    p.AtRest := by
  have hm : (r.shifted t).withLine p.toLine = p.withoutRun t := by
    rw [h.unissued.same]
    rfl
  have hskips : Line.Skips t (r.shifted t).toLine p.toLine :=
    h.unissued.skips.symm fun hturn => hnot (Line.mem_inTurn.mp hturn)
  have hrest' : (p.withoutRun t).AtRest := hm ▸ atRest_of_skips (orderly_shifted h.orderly' t)
    (queued_shifted h.queued' t) (hm ▸ orderly_withoutRun h.orderly t)
    (hm ▸ queued_withoutRun h.queued t) hskips ((atRest_shifted r t).mpr hrest)
  exact atRest_of_withoutRun hrest' (fun hq => hnot (mem_members.mpr (.inl hq)))
    h.unserved.not_watching

/-- Time passes in the session without the run only when it passes in the other one. -/
theorem timely_cons {e' : PoolEvent} {es' : List PoolEvent} {r₁ : Pool} (h : Compared t p r)
    (he : e.Alike (e'.shifted t)) (hs : p.step e = some p') (hs' : r.step e' = some r₁)
    (hrest : p'.Timely es → r₁.Timely es') (ht : p.Timely (e :: es)) : r.Timely (e' :: es') := by
  refine ⟨fun time heq hlt => ?_, fun q hq => ?_⟩
  · subst heq
    obtain rfl : e = .wait time := by cases he; rfl
    have hnow : r.now = p.now := (congrArg Pool.now h.unissued.same :)
    exact h.atRest (ht.1 time rfl (hnow ▸ hlt))
  · obtain rfl := Option.some.inj (hs'.symm.trans hq)
    exact hrest (ht.2 p' hs)

theorem timely_cons_back {e' : PoolEvent} {es' : List PoolEvent} {r₁ : Pool} (h : Compared t p r)
    (hnot : t ∉ p.members) (he : e.Alike (e'.shifted t)) (hs : p.step e = some p')
    (hs' : r.step e' = some r₁) (hrest : r₁.Timely es' → p'.Timely es)
    (ht : r.Timely (e' :: es')) : p.Timely (e :: es) := by
  refine ⟨fun time heq hlt => ?_, fun q hq => ?_⟩
  · subst heq
    obtain rfl : e' = .wait time := by
      cases e' with
      | wait time' => cases he; rfl
      | _ => cases he
    have hnow : r.now = p.now := (congrArg Pool.now h.unissued.same :)
    exact h.atRest_back hnot (ht.1 time rfl (hnow ▸ hlt))
  · obtain rfl := Option.some.inj (hs.symm.trans hq)
    exact hrest (ht.2 r₁ hs')

/-- A session with a run that is not told anything has its echo in the session without it. -/
theorem run (h : Compared t p r) (htake : .take t ∉ es) (hlearn : .learn t ∉ es)
    (hrun : p.run es = some q) :
    ∃ es' r', Echo t es es' ∧ r.run es' = some r' ∧ Compared t q r' ∧
      (p.Timely es → r.Timely es') := by
  induction es generalizing p r with
  | nil =>
    cases hrun
    exact ⟨[], r, .nil, rfl, h, fun _ => trivial⟩
  | cons e es ih =>
    obtain ⟨htake₁, htake⟩ := not_or.mp (mt List.mem_cons.mpr htake)
    obtain ⟨hlearn₁, hlearn⟩ := not_or.mp (mt List.mem_cons.mpr hlearn)
    obtain ⟨p', hs, hrest⟩ := Option.bind_eq_some_iff.mp hrun
    cases he : e.names t with
    | true =>
      have hown : e = .fire t ∨ e = .withdraw t := by
        rcases h.unserved.names_cases h.orderly hs he with hfire | hgone | rfl | rfl
        · exact .inl hfire
        · exact .inr hgone
        · exact absurd rfl htake₁
        · exact absurd rfl hlearn₁
      obtain ⟨es', r', hecho, hr', hlast, htimely⟩ := ih (h.own hown hs) htake hlearn hrest
      exact ⟨es', r', .own hown hecho, hr', hlast, fun ht => htimely (ht.2 p' hs)⟩
    | false =>
      obtain ⟨e', r₁, halike, hs', hu⟩ :=
        h.unissued.step h.unserved h.orderly h.queued h.orderly' h.queued' he hs
      obtain ⟨es', r', hecho, hr', hlast, htimely⟩ :=
        ih (h.both hu (Ne.symm htake₁) hs hs') htake hlearn hrest
      refine ⟨e' :: es', r', .both halike hecho, ?_, hlast, h.timely_cons halike hs hs' htimely⟩
      rw [run_cons, hs']
      exact hr'

/-- A session without the run has its echo in the session that the run has left. -/
theorem run_back {es' : List PoolEvent} {r' : Pool} (h : Compared t p r) (hgone : p.CallerGone t)
    (hrun : r.run es' = some r') :
    ∃ es p', Echo t es es' ∧ p.run es = some p' ∧ Compared t p' r' ∧
      (r.Timely es' → p.Timely es) := by
  induction es' generalizing p r with
  | nil =>
    cases hrun
    exact ⟨[], p, .nil, rfl, h, fun _ => trivial⟩
  | cons e' es' ih =>
    obtain ⟨r₁, hs', hrest⟩ := Option.bind_eq_some_iff.mp hrun
    obtain ⟨e, p₁, halike, hs, hu⟩ := h.unissued.step_back h.unserved h.orderly h.queued h.orderly'
      h.queued' hgone.not_member hs'
    have htake : e ≠ .take t := by
      rintro rfl
      have hnames : PoolEvent.names t (.take t) = true := decide_eq_true rfl
      cases hnames.symm.trans (halike.symm.names (names_shifted t e'))
    obtain ⟨es, p', hecho, hp', hlast, htimely⟩ :=
      ih (h.both hu htake hs hs') (hgone.step h.orderly hs) hrest
    refine ⟨e :: es, p', .both halike hecho, ?_, hlast,
      h.timely_cons_back hgone.not_member halike hs hs' htimely⟩
    rw [run_cons, hs]
    exact hp'

end Compared

theorem CallerGone.run (h : p.CallerGone t) (ho : p.Orderly) (hrun : p.run es = some q) :
    q.CallerGone t := by
  refine (run_induction (motive := fun _ q => q.Orderly ∧ q.CallerGone t) ⟨ho, h⟩ ?_ hrun).2
  rintro es q e q' - ⟨ho, hgone⟩ hs
  exact ⟨orderly_step ho (occurs_of_step hs), hgone.step ho hs⟩

/-- Whoever has gone takes nothing and learns nothing. -/
theorem CallerGone.not_mem_run (h : p.CallerGone t) (ho : p.Orderly) (hrun : p.run es = some q) :
    .take t ∉ es ∧ .learn t ∉ es := by
  induction es generalizing p with
  | nil => exact ⟨nofun, nofun⟩
  | cons e es ih =>
    obtain ⟨p', hs, hrest⟩ := Option.bind_eq_some_iff.mp hrun
    obtain ⟨htake, hlearn⟩ := ih (h.step ho hs) (orderly_step ho (occurs_of_step hs)) hrest
    refine ⟨fun hmem => ?_, fun hmem => ?_⟩
    · rcases List.mem_cons.mp hmem with rfl | hmem
      · rw [Pool.step] at hs
        split at hs
        · next hg => exact h.not_member (mem_members.mpr (.inr (by simpa using hg)))
        · cases hs
      · exact htake hmem
    · rcases List.mem_cons.mp hmem with rfl | hmem
      · have hnot := h.not_learns hs
        simp [PoolEvent.learns] at hnot
      · exact hlearn hmem

/-- Whoever is told something in line is not in line any more. -/
theorem not_member_of_told (ho : p.Orderly) (he : e = .take t ∨ e = .learn t)
    (hs : p.step e = some p') : t ∉ p'.members := by
  have hleave : ∀ c, t ∉ (p.toLine.leave c t).members := fun c hmem => by
    have hmem := (Line.members_leave ho.members_nodup c t).mem_iff.mp hmem
    simpa using (List.mem_filter.mp hmem).2
  have hspend : t ∈ p.granted → t ∉ (p.toLine.spend t).members := fun hg hmem => by
    rw [Line.members_spend ho.members_nodup hg] at hmem
    simpa using (List.mem_filter.mp hmem).2
  have hwatch : t ∈ p.watching → t ∉ p.members := fun hw hmem =>
    List.disjoint_of_nodup_append ho.callers_nodup hmem (List.mem_append_left _ hw)
  have hoccurs := occurs_of_step hs
  rcases he with rfl | rfl
  · cases hoccurs with
    | takeFired => exact hleave _
    | takeClosed => exact hleave _
    | takeNothing => exact hleave _
    | takeRun hg => exact hspend hg
    | takeHeld hg => exact hspend hg
  · cases hoccurs with
    | learnResult hw => exact hwatch hw
    | learnLost hw => exact hwatch hw
    | learnFired hw => exact hwatch hw
    | learnWaiting => exact hleave _

theorem PastLine.run (h : p.PastLine t) (ho : p.Orderly) (hrun : p.run es = some q) :
    q.PastLine t := by
  refine (run_induction (motive := fun _ q => q.Orderly ∧ q.PastLine t) ⟨ho, h⟩ ?_ hrun).2
  rintro es q e q' - ⟨ho, hpast⟩ hs
  exact ⟨orderly_step ho (occurs_of_step hs), hpast.step ho hs⟩

/-- As long as a ticket waits it has taken nothing and learned nothing. -/
theorem not_told_of_member (ho : p.Orderly) (ht : t < p.asked) (hrun : p.run es = some q)
    (hmember : t ∈ q.members) : .take t ∉ es ∧ .learn t ∉ es := by
  induction es generalizing p with
  | nil => exact ⟨nofun, nofun⟩
  | cons e es ih =>
    obtain ⟨p', hs, hrest⟩ := Option.bind_eq_some_iff.mp hrun
    have ho' := orderly_step ho (occurs_of_step hs)
    have ht' := Nat.lt_of_lt_of_le ht (asked_le_step (occurs_of_step hs))
    obtain ⟨htake, hlearn⟩ := ih ho' ht' hrest
    have hnot : ¬ (e = .take t ∨ e = .learn t) := fun he =>
      (PastLine.run ⟨ht', not_member_of_told ho he hs⟩ ho' hrest).not_member hmember
    exact ⟨fun hmem => (List.mem_cons.mp hmem).elim (fun heq => hnot (.inl heq.symm)) htake,
      fun hmem => (List.mem_cons.mp hmem).elim (fun heq => hnot (.inr heq.symm)) hlearn⟩

/-! ### The moment at which the run is issued -/

/-- All tickets that a pool has to do with have come. -/
structure Numbered (p : Pool) : Prop where
  fired : ∀ u ∈ p.fired, u < p.asked
  ownFired : ∀ u ∈ p.ownFired, u < p.asked
  sent : ∀ s ∈ p.sent, s.1 < p.asked
  discards : ∀ d ∈ p.discards, d.1 < p.asked

theorem numbered_step (ho : q.Orderly) (hn : q.Numbered) (h : q.Occurs e q') : q'.Numbered := by
  have hle := asked_le_step h
  have hfired : ∀ u ∈ q.fired, u < q'.asked := fun u hu => Nat.lt_of_lt_of_le (hn.fired u hu) hle
  have hown : ∀ u ∈ q.ownFired, u < q'.asked := fun u hu =>
    Nat.lt_of_lt_of_le (hn.ownFired u hu) hle
  have hsent : ∀ s ∈ q.sent, s.1 < q'.asked := fun s hs => Nat.lt_of_lt_of_le (hn.sent s hs) hle
  have hdiscards : ∀ d ∈ q.discards, d.1 < q'.asked := fun d hd =>
    Nat.lt_of_lt_of_le (hn.discards d hd) hle
  have hjob : ∀ {u j}, q.job? u = some j → u < q.asked := fun hj => by
    have hstarted := ho.job_started _ (mem_jobs_of_job? hj)
    rw [ticket_eq_of_job? hj] at hstarted
    exact ho.claims_asked _ (List.mem_append_right _ (List.mem_append_right _ hstarted))
  refine ⟨?_, ?_, ?_, ?_⟩
  · cases h with
    | askFired => exact List.forall_mem_cons.mpr ⟨Nat.lt_succ_self _, hfired⟩
    | fire hr => exact List.forall_mem_cons.mpr ⟨ho.runs_asked _ hr, hfired⟩
    | fireRunning hr => exact List.forall_mem_cons.mpr ⟨ho.runs_asked _ hr, hfired⟩
    | _ => exact hfired
  · cases h with
    | fireOwn hj => exact List.forall_mem_cons.mpr ⟨hjob hj, hown⟩
    | _ => exact hown
  · cases h with
    | finishOpen hj => exact List.forall_mem_cons.mpr ⟨hjob hj, hsent⟩
    | panic hj => exact List.forall_mem_cons.mpr ⟨ticket_eq_of_job? hj ▸ hjob hj, hsent⟩
    | expire hj => exact List.forall_mem_cons.mpr ⟨ticket_eq_of_job? hj ▸ hjob hj, hsent⟩
    | downReturning hj => exact List.forall_mem_cons.mpr ⟨hjob hj, hsent⟩
    | _ => exact hsent
  · cases h with
    | @releaseClosed u w hh =>
      obtain ⟨⟨v, w'⟩, hfind, -⟩ := Option.map_eq_some_iff.mp hh
      obtain rfl : v = u := by simpa using List.find?_some hfind
      have hheld : v ∈ q.held.map Prod.fst :=
        List.mem_map_of_mem (List.mem_of_find?_eq_some hfind)
      have hasked := ho.claims_asked v (List.mem_append_right _ (List.mem_append_left _ hheld))
      intro d hd
      rcases List.mem_append.mp hd with hd | hd
      · exact hdiscards d hd
      · rw [List.mem_singleton.mp hd]
        exact hasked
    | released => exact fun d hd => hdiscards d (List.mem_filter.mp hd).1
    | abandonRelease => exact fun d hd => hdiscards d (List.mem_filter.mp hd).1
    | _ => exact hdiscards

theorem numbered_run {n : Nat} {p₀ : Pool} (h₀ : Fresh n p₀) (h : p₀.run es = some q) :
    q.Numbered := by
  refine run_induction (motive := fun _ q => q.Numbered) ?_ ?_ h
  · obtain ⟨-, name, grace, now, rfl⟩ := fresh_eq h₀
    exact ⟨nofun, nofun, nofun, nofun⟩
  · intro es q e q' hq hn hs
    exact numbered_step (accounted_run h₀ hq).1 hn (occurs_of_step hs)

theorem map_past_eq_self {l : List Ticket} (h : ∀ u ∈ l, u < t) : l.map (past t) = l :=
  (List.map_congr_left fun u hu => past_of_lt (h u hu)).trans (List.map_id l)

theorem map_shiftKey_eq_self {α : Type} {l : List (Ticket × α)} (h : ∀ a ∈ l, a.1 < t) :
    l.map (shiftKey t) = l := by
  refine (List.map_congr_left fun a ha => ?_).trans (List.map_id l)
  rw [shiftKey, past_of_lt (h a ha), id]

/-- A number that is left out at the end changes only the number of the next ticket. -/
theorem shifted_asked (ho : p.Orderly) (hn : p.Numbered) :
    p.shifted p.asked = { p with asked := p.asked + 1 } := by
  have hmembers : ∀ u ∈ p.members, u < p.asked := fun u hu =>
    ho.callers_asked u (List.mem_append_left _ hu)
  have hqueue := map_past_eq_self fun u hu => hmembers u (mem_members.mpr (.inl hu))
  have hgranted := map_past_eq_self fun u hu => hmembers u (mem_members.mpr (.inr hu))
  have hwatching := map_past_eq_self fun u hu =>
    ho.callers_asked u (List.mem_append_right _ (List.mem_append_left _ hu))
  have hanswers := map_shiftKey_eq_self fun a ha => ho.callers_asked a.1
    (List.mem_append_right _ (List.mem_append_right _ (List.mem_map_of_mem ha)))
  have hheld := map_shiftKey_eq_self fun a ha => ho.claims_asked a.1
    (List.mem_append_right _ (List.mem_append_left _ (List.mem_map_of_mem ha)))
  have hstarted := map_shiftKey_eq_self fun a ha => ho.claims_asked a.1
    (List.mem_append_right _ (List.mem_append_right _ (List.mem_map_of_mem ha)))
  have hjobs : p.jobs.map (.shifted p.asked) = p.jobs := by
    refine (List.map_congr_left fun j hj => ?_).trans (List.map_id _)
    have hasked := ho.claims_asked j.ticket
      (List.mem_append_right _ (List.mem_append_right _ (ho.job_started j hj)))
    rw [Job.shifted, past_of_lt hasked, id]
  simp only [shifted, Line.shifted, hqueue, hgranted, hwatching, hanswers, hheld, hstarted, hjobs,
    map_past_eq_self ho.runs_asked, map_past_eq_self hn.fired, map_past_eq_self hn.ownFired,
    map_shiftKey_eq_self hn.sent, map_shiftKey_eq_self hn.discards]

/-- As a run is issued, the pool is still as it is without the run but for its place in line. -/
theorem compared_asked (ho : p.Orderly) (hq : p.Queued) (hn : p.Numbered)
    (hs : p.step (.askRun false) = some p') : Compared p.asked p' p := by
  have hshift := shifted_asked ho hn
  have hline : p.toLine.shifted p.asked = p.toLine := congrArg Pool.toLine hshift
  have hnew : ∀ {l : List Ticket}, (∀ u ∈ l, u < p.asked) → p.asked ∉ l := fun hl hmem =>
    Nat.lt_irrefl _ (hl _ hmem)
  have hclaim : ∀ {u}, u ∈ p.held.map Prod.fst ++ p.started.map Prod.fst → u < p.asked :=
    fun hu => ho.claims_asked _ (List.mem_append_right _ hu)
  have hordered := orderly_step ho (occurs_of_step hs)
  have hqueued := queued_step ho hq hs
  obtain rfl := Option.some.inj hs
  refine ⟨⟨Nat.le_refl _, ?_, ?_⟩, ⟨Nat.lt_succ_self _, ?_, ?_, ?_, ?_⟩, hordered, hqueued, ho, hq⟩
  · have hruns : (p.asked :: p.runs).filter (· ≠ p.asked) = p.runs := by
      rw [List.filter_cons_of_neg (by simp), filter_ne_eq_self (hnew ho.runs_asked)]
    have hfired : p.fired.filter (· ≠ p.asked) = p.fired := filter_ne_eq_self (hnew hn.fired)
    show _ = ({ p with
      toLine := p.toLine.shifted p.asked, asked := p.asked + 1
      runs := (p.asked :: p.runs).filter (· ≠ p.asked)
      fired := p.fired.filter (· ≠ p.asked) } : Pool)
    rw [hshift, hline, hruns, hfired]
  · have hturn : p.asked ∉ p.inTurn := hnew fun u hu =>
      ho.callers_asked u (List.mem_append_left _ (Line.mem_inTurn.mp hu))
    show Line.Skips p.asked (p.toLine.join p.closed p.asked) (p.toLine.shifted p.asked)
    rw [hline, Line.Skips, Line.inTurn_join hq.allGiven, List.filter_append,
      List.filter_cons_of_neg (by simp), List.filter_nil, List.append_nil, filter_ne_eq_self hturn]
  · exact hnew fun u hu => hclaim (List.mem_append_right _ hu)
  · exact hnew fun u hu => hclaim (List.mem_append_left _ hu)
  · refine hnew fun u hu => ?_
    obtain ⟨d, hd, rfl⟩ := List.mem_map.mp hu
    exact hn.discards d hd
  · exact hnew fun u hu => ho.callers_asked u (List.mem_append_right _ (List.mem_append_left _ hu))

/-- A run was issued in the session. -/
theorem asked_of_run {p₀ : Pool} (h₀ : p₀.runs = []) (h : p₀.run es = some p) (ht : t ∈ p.runs) :
    ∃ before fired middle a a', es = before ++ .askRun fired :: middle ∧ p₀.run before = some a ∧
      a.asked = t ∧ a.step (.askRun fired) = some a' ∧ a'.run middle = some p := by
  refine run_induction (motive := fun es p => t ∈ p.runs → ∃ before fired middle a a',
    es = before ++ .askRun fired :: middle ∧ p₀.run before = some a ∧ a.asked = t ∧
      a.step (.askRun fired) = some a' ∧ a'.run middle = some p) ?_ ?_ h ht
  · rw [h₀]
    exact nofun
  · intro es q e q' hq hissued hs ht
    have hoccurs := occurs_of_step hs
    have hlater : t ∈ q.runs → ∃ before fired middle a a',
        es ++ [e] = before ++ .askRun fired :: middle ∧ p₀.run before = some a ∧ a.asked = t ∧
          a.step (.askRun fired) = some a' ∧ a'.run middle = some q' := fun hmem => by
      obtain ⟨before, fired, middle, a, a', rfl, hbefore, ha, hstep, hmiddle⟩ := hissued hmem
      exact ⟨before, fired, middle ++ [e], a, a', by simp, hbefore, ha, hstep,
        run_concat_eq_some.mpr ⟨q, hmiddle, hs⟩⟩
    cases hoccurs with
    | askRun =>
      rcases List.mem_cons.mp ht with rfl | hmem
      · exact ⟨es, false, [], q, _, rfl, hq, rfl, hs, rfl⟩
      · exact hlater hmem
    | askFired =>
      rcases List.mem_cons.mp ht with rfl | hmem
      · exact ⟨es, true, [], q, _, rfl, hq, rfl, hs, rfl⟩
      · exact hlater hmem
    | _ => exact hlater ht

/-- A run that waits for a worker was issued with a token that had not fired. -/
theorem asked_of_member {n : Nat} {p₀ : Pool} (h₀ : Fresh n p₀) (h : p₀.run es = some p)
    (ht : t ∈ p.runs) (hmember : t ∈ p.members) :
    ∃ before middle a a', es = before ++ .askRun false :: middle ∧ p₀.run before = some a ∧
      a.asked = t ∧ a.step (.askRun false) = some a' ∧ a'.run middle = some p := by
  have hnone : p₀.runs = [] := by
    obtain ⟨-, name, grace, now, rfl⟩ := fresh_eq h₀
    rfl
  obtain ⟨before, fired, middle, a, a', rfl, hbefore, rfl, hs, hmiddle⟩ := asked_of_run hnone h ht
  cases fired with
  | false => exact ⟨before, middle, a, a', rfl, hbefore, rfl, hs, hmiddle⟩
  | true =>
    -- Such a run is told so at once, and never waits.
    have ho := (accounted_run h₀ hbefore).1
    have hpast : a'.PastLine a.asked := by
      obtain rfl := Option.some.inj hs
      refine ⟨Nat.lt_succ_self _, fun hmem => Nat.lt_irrefl a.asked ?_⟩
      exact ho.callers_asked _ (List.mem_append_left _ hmem)
    exact absurd hmember
      (hpast.run (orderly_step ho (occurs_of_step hs)) hmiddle).not_member

/-- Time passes only at rest in the first part of a run, and in the whole run if it does in what
comes afterwards. -/
theorem timely_init {es' : List PoolEvent} (h : p.Timely (es ++ es')) (hq : p.run es = some q) :
    p.Timely es := by
  induction es generalizing p with
  | nil => trivial
  | cons e es ih =>
    obtain ⟨p₁, hs, hrest⟩ := Option.bind_eq_some_iff.mp hq
    refine ⟨h.1, fun p₂ hs₂ => ?_⟩
    obtain rfl := Option.some.inj (hs.symm.trans hs₂)
    exact ih (h.2 p₁ hs) hrest

theorem timely_of_append {es' : List PoolEvent} (h : p.Timely es) (hq : p.run es = some q)
    (h' : q.Timely es') : p.Timely (es ++ es') := by
  induction es generalizing p with
  | nil =>
    cases hq
    exact h'
  | cons e es ih =>
    obtain ⟨p₁, hs, hrest⟩ := Option.bind_eq_some_iff.mp hq
    refine ⟨h.1, fun p₂ hs₂ => ?_⟩
    obtain rfl := Option.some.inj (hs.symm.trans hs₂)
    exact ih (h.2 p₁ hs) hrest

/-! ### Dropping a run -/

/-- In an open pool the line is known from the tickets that stand in it. -/
theorem Compared.line_eq (h : Compared t p r) (hc : p.closed = false) (hnot : t ∉ p.members) :
    p.toLine = r.toLine.shifted t := by
  have hclosed : r.closed = p.closed := (congrArg Pool.closed h.unissued.same :)
  have hidle : r.idle = p.idle := (congrArg Pool.idle h.unissued.same :)
  have hc' : r.closed = false := hclosed.trans hc
  have hturn : t ∉ p.inTurn := fun hmem => hnot (Line.mem_inTurn.mp hmem)
  refine Line.eq_of_inTurn (h.queued.allGiven hc) ((queued_shifted h.queued' t).allGiven hc') ?_ ?_
  · have hfree := (orderly_shifted h.orderly' t).permits_eq hc'
    exact (h.orderly.permits_eq hc).trans (hidle ▸ hfree.symm)
  · exact (h.unissued.skips.trans (filter_ne_eq_self hturn)).symm

/-- Its caller goes away from a run that waits for a worker, and from then on the pool is as if the
run had never been issued. -/
theorem Compared.dropped {d : Pool} (h : Compared t p r) (hd : p.step (.withdraw t) = some d) :
    Compared t d r ∧ d.CallerGone t := by
  have hafter := h.own (.inr rfl) hd
  refine ⟨hafter, ⟨hafter.unserved.asked, fun hmem => ?_⟩, hafter.unserved.not_watching⟩
  obtain rfl := Option.some.inj hd
  have hmem := (Line.members_leave h.orderly.members_nodup p.closed t).mem_iff.mp hmem
  simpa using (List.mem_filter.mp hmem).2

/-- What a pool has to show, of its workers and to its callers, is the same if a run was never
issued. -/
theorem Unissued.shows (h : Unissued t p r) :
    p.stats = r.stats ∧ p.idle = r.idle ∧ p.made = r.made ∧ p.retired = r.retired ∧
      p.replaced = r.replaced ∧ p.closing = r.closing ∧
      ∀ u, p.answer? (past t u) = r.answer? u ∧ p.held? (past t u) = r.held? u ∧
        p.job? (past t u) = (r.job? u).map (.shifted t) := by
  have hstats : (r.shifted t).stats = ((p.withoutRun t).withLine (r.toLine.shifted t)).stats := by
    rw [h.same]
  refine ⟨hstats.symm, (congrArg Pool.idle h.same.symm :), (congrArg Pool.made h.same.symm :),
    (congrArg Pool.retired h.same.symm :), (congrArg Pool.replaced h.same.symm :),
    (congrArg Pool.closing h.same.symm :), fun u => ⟨?_, ?_, ?_⟩⟩
  · rw [← answer?_shifted r t u, h.same]
    rfl
  · rw [← held?_shifted r t u, h.same]
    rfl
  · rw [← job?_shifted r t u, h.same]
    rfl

/-- The caller of a run goes away.  If the operation was started on a worker, then everything goes
on as if the caller were still there, whatever happens, and the token may fire as well: every state,
all workers that are made and shut down and all that others are told are the same, only that the
caller itself learns nothing more.  If the run was still waiting for a worker, then the pool is from
now on as in a session in which it was never issued: in that session the same things could happen so
far, and from now on the same things can happen in both, with the same effect. -/
theorem dropped_run {n : Nat} {p₀ : Pool} (h₀ : Fresh n p₀) (h : p₀.run es = some p)
    (ht : t ∈ p.runs) :
    ∃ d, p.step (.withdraw t) = some d ∧
      (t ∈ p.started.map Prod.fst →
        d.withoutCaller t = p.withoutCaller t ∧
        (∀ later q, p.run later = some q →
          ∃ q', d.run (later.filter fun e => !e.learns t) = some q' ∧
            q'.withoutCaller t = q.withoutCaller t) ∧
        (∀ later q', d.run later = some q' →
          ∃ q, p.run later = some q ∧ q'.withoutCaller t = q.withoutCaller t)) ∧
      (t ∈ p.members →
        ∃ before middle middle' r,
          es = before ++ .askRun false :: middle ∧ (p₀.run before).map Pool.asked = some t ∧
          Echo t middle middle' ∧ p₀.run (before ++ middle') = some r ∧
          (p₀.Timely es → p₀.Timely (before ++ middle')) ∧ Unissued t d r ∧
          (∀ later d', d.run later = some d' →
            ∃ later' r', Echo t later later' ∧ r.run later' = some r' ∧ Unissued t d' r' ∧
              (d.Timely later → r.Timely later') ∧
              (d'.closed = false → d'.toLine = r'.toLine.shifted t)) ∧
          (∀ later' r', r.run later' = some r' →
            ∃ later d', Echo t later later' ∧ d.run later = some d' ∧ Unissued t d' r' ∧
              (r.Timely later' → d.Timely later) ∧
              (d'.closed = false → d'.toLine = r'.toLine.shifted t))) := by
  have ho := (accounted_run h₀ h).1
  let d : Pool := { p.forget t with watching := p.watching.filter (· ≠ t) }
  have hd : p.step (.withdraw t) = some d := rfl
  refine ⟨d, hd, fun hstarted => ?_, fun hmember => ?_⟩
  · obtain ⟨hpast, hgone, hsame⟩ := dropped_of_started ho hstarted hd
    refine ⟨hsame, fun later q hlater => run_of_withoutCaller ho hpast hsame hlater,
      fun later q' hlater => ?_⟩
    exact run_with_caller (orderly_step ho (occurs_of_step hd)) hgone hpast ho hsame hlater
  · obtain ⟨before, middle, a, a', rfl, hbefore, rfl, hs, hmiddle⟩ :=
      asked_of_member h₀ h ht hmember
    have hasked := compared_asked (accounted_run h₀ hbefore).1 (queued_run h₀ hbefore)
      (numbered_run h₀ hbefore) hs
    obtain ⟨htake, hlearn⟩ :=
      not_told_of_member hasked.orderly hasked.unserved.asked hmiddle hmember
    obtain ⟨middle', r, hecho, hr, hcompared, htimely⟩ := hasked.run htake hlearn hmiddle
    obtain ⟨hdropped, hgone⟩ := hcompared.dropped hd
    have hline : ∀ {d' r'}, Compared a.asked d' r' → d'.CallerGone a.asked → d'.closed = false →
        d'.toLine = r'.toLine.shifted a.asked := fun hcompared hgone hc =>
      hcompared.line_eq hc hgone.not_member
    refine ⟨before, middle, middle', r, rfl, by rw [hbefore]; rfl, hecho,
      run_append_eq_some.mpr ⟨a, hbefore, hr⟩, fun ht => ?_, hdropped.unissued,
      fun later d' hlater => ?_, fun later' r' hlater => ?_⟩
    · refine timely_of_append (timely_init ht hbefore) hbefore (htimely ?_)
      exact (timely_append ht hbefore).2 a' hs
    · obtain ⟨htake, hlearn⟩ := hgone.not_mem_run hdropped.orderly hlater
      obtain ⟨later', r', hecho, hr', hlast, htimely⟩ := hdropped.run htake hlearn hlater
      exact ⟨later', r', hecho, hr', hlast.unissued, htimely,
        hline hlast (hgone.run hdropped.orderly hlater)⟩
    · obtain ⟨later, d', hecho, hd', hlast, htimely⟩ := hdropped.run_back hgone hlater
      exact ⟨later, d', hecho, hd', hlast.unissued, htimely,
        hline hlast (hgone.run hdropped.orderly hd')⟩

/-- A pool of one worker on which one run is under way and another one waits, with somebody behind
it.  The callers of both runs may go away: the first worker is free at the end of its operation as
before, and for the second run nothing is left of it, so that whoever stood behind it is served as
if it had come second. -/
theorem dropped_run_of_two :
    ∃ p₀ es p, Fresh 1 p₀ ∧ es = [.askRun false, .take 0, .askRun false, .ask] ∧
      p₀.run es = some p ∧ 0 ∈ p.started.map Prod.fst ∧ 1 ∈ p.members ∧
      (∃ d q', p.step (.withdraw 0) = some d ∧ d.withoutCaller 0 = p.withoutCaller 0 ∧
        d.run [.fire 0, .wait 10, .expire 0, .jobDown 0, .built 0 true] = some q' ∧
        q'.idle = [⟨0, 1⟩] ∧ q'.granted = [1]) ∧
      ∃ d r later d' r', p.step (.withdraw 1) = some d ∧ Unissued 1 d r ∧ d.stats = r.stats ∧
        later = [.finish 0 (.ok .null), .take 2] ∧ d.run later = some d' ∧ Unissued 1 d' r' ∧
        d'.held? 2 = some ⟨0, 0⟩ ∧ r'.held? 1 = some ⟨0, 0⟩ := by
  let p₀ := opened "one" 10 0 (firstWorkers 1) 1
  let es : List PoolEvent := [.askRun false, .take 0, .askRun false, .ask]
  have h₀ : Fresh 1 p₀ := fresh_opened (by decide) "one" 10 0
  let p := (p₀.run es).get (by decide +kernel)
  have hrun : p₀.run es = some p := (Option.some_get _).symm
  refine ⟨p₀, es, p, h₀, rfl, hrun, by decide +kernel, by decide +kernel, ?_, ?_⟩
  · obtain ⟨d, hd, hstarted, -⟩ := dropped_run h₀ hrun (show 0 ∈ p.runs by decide +kernel)
    obtain ⟨hsame, hlater, -⟩ := hstarted (by decide +kernel)
    let later : List PoolEvent := [.fire 0, .wait 10, .expire 0, .jobDown 0, .built 0 true]
    let q := (p.run later).get (by decide +kernel)
    obtain ⟨q', hq', hview⟩ := hlater later q (Option.some_get _).symm
    have hidle : q'.idle = q.idle := (congrArg Pool.idle hview :)
    have hgranted : q'.granted = q.granted := (congrArg (fun v => v.granted) hview :)
    exact ⟨d, q', hd, hsame, hq', hidle.trans (by decide +kernel),
      hgranted.trans (by decide +kernel)⟩
  · obtain ⟨d, hd, -, hwaiting⟩ := dropped_run h₀ hrun (show 1 ∈ p.runs by decide +kernel)
    obtain ⟨-, -, -, r, -, -, -, -, -, hu, hlater, -⟩ := hwaiting (by decide +kernel)
    let later : List PoolEvent := [.finish 0 (.ok .null), .take 2]
    have hsome : ((p.step (.withdraw 1)).bind fun d => d.run later).isSome := by decide +kernel
    rw [hd, Option.bind_some] at hsome
    obtain ⟨d', hd'⟩ := Option.isSome_iff_exists.mp hsome
    obtain ⟨-, r', -, -, hu', -, -⟩ := hlater later d' hd'
    have hheld : ((p.step (.withdraw 1)).bind fun d => (d.run later).bind fun q => q.held? 2) =
        some ⟨0, 0⟩ := by decide +kernel
    rw [hd, Option.bind_some, hd', Option.bind_some] at hheld
    obtain ⟨-, -, -, -, -, -, hcallers⟩ := hu'.shows
    exact ⟨d, r, later, d', r', hd, hu, hu.shows.1, rfl, hd', hu', hheld,
      (hcallers 1).2.1.symm.trans hheld⟩

end Pool

end LanguageHost
