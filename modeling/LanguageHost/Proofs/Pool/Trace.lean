import LanguageHost.Proofs.Pool.Shutdown

/-!
# Where the results of runs come from

A run whose operation was started has a job, and the job sends one result: what the operation ended
with, that it panicked, or that it was dropped after a token fired, its caller's or the one that it
was handed itself.  A job whose operation panicked as it was called is gone and sends nothing.
`Traced` follows each result back to the event it comes from, and says what is known of a job in
each of its phases (`Backed`).  Every run of a fresh pool keeps it (`traced_run`).
-/

open scoped List

namespace LanguageHost

namespace Pool

variable {p₀ p p' q q' : Pool} {e : PoolEvent} {es es' : List PoolEvent} {t u : Ticket} {j k : Job}
variable {w : Worker} {r : Outcome Json}

/-! ### Jobs and results by ticket -/

theorem job?_endJob (p : Pool) (t u : Ticket) :
    (p.endJob t).job? u = if u = t then none else p.job? u := by
  simp only [endJob, job?, List.find?_filter]
  split
  · next h =>
    subst h
    simp
  · next h =>
    congr 1
    funext j
    by_cases hj : j.ticket = u <;> simp [hj, h]

theorem job?_setJob (p : Pool) (t u : Ticket) {f : Job → Job} (hf : ∀ k, (f k).ticket = k.ticket) :
    (p.setJob t f).job? u = if u = t then (p.job? u).map f else p.job? u := by
  have hticket : ∀ k : Job, (if k.ticket = t then f k else k).ticket = k.ticket := fun k => by
    split
    · exact hf k
    · rfl
  have hfind : (p.setJob t f).job? u =
      (p.job? u).map fun k => if k.ticket = t then f k else k := by
    simp only [setJob, job?, List.find?_map, Function.comp_def, hticket]
  rw [hfind]
  cases hj : p.job? u with
  | none => simp
  | some j =>
    have hu : j.ticket = u := ticket_eq_of_job? hj
    simp only [Option.map_some, hu]
    split <;> rfl

/-- Ending a job leaves the others as they are. -/
theorem job?_of_endJob (h : (p.endJob t).job? u = some j) : u ≠ t ∧ p.job? u = some j := by
  rw [job?_endJob] at h
  split at h
  · cases h
  · next hne => exact ⟨hne, h⟩

/-- Changing a job leaves the others as they are. -/
theorem job?_of_setJob {f : Job → Job} (hf : ∀ k, (f k).ticket = k.ticket)
    (hj : p.job? t = some j) (h : (p.setJob t f).job? u = some k) :
    (u = t ∧ k = f j) ∨ (u ≠ t ∧ p.job? u = some k) := by
  rw [job?_setJob p t u hf] at h
  split at h
  · next heq =>
    subst heq
    rw [hj] at h
    cases h
    exact .inl ⟨rfl, rfl⟩
  · next hne => exact .inr ⟨hne, h⟩

theorem isSome_job?_setJob {f : Job → Job} (hf : ∀ k, (f k).ticket = k.ticket) (p : Pool)
    (t u : Ticket) : ((p.setJob t f).job? u).isSome = (p.job? u).isSome := by
  rw [job?_setJob p t u hf]
  split <;> simp

theorem sent?_send (p : Pool) (t u : Ticket) (r : Outcome Json) :
    (p.send t r).sent? u = if u = t then some r else p.sent? u := by
  simp only [send, sent?, List.find?_cons]
  by_cases h : t = u
  · simp [h]
  · simp [h, Ne.symm h]

theorem isSome_sent?_send_self (p : Pool) (t : Ticket) (r : Outcome Json) :
    ((p.send t r).sent? t).isSome := by
  rw [sent?_send, if_pos rfl]
  rfl

theorem answer?_tell (p : Pool) (t u : Ticket) (r : Outcome Json) :
    (p.tell t r).answer? u = if u = t then some r else p.answer? u := by
  simp only [tell, answer?, List.find?_cons]
  by_cases h : t = u
  · simp [h]
  · simp [h, Ne.symm h]

theorem hasFired_iff : p.hasFired t = true ↔ t ∈ p.runs ∧ t ∈ p.fired := by
  simp only [hasFired, Bool.and_eq_true, List.contains_eq_mem, decide_eq_true_eq]

/-! ### What a step keeps -/

theorem name_step (h : p.Occurs e p') : p'.name = p.name := by
  cases h with
  | _ => rfl

theorem fired_subset (h : p.Occurs e p') : p.fired ⊆ p'.fired := by
  cases h with
  | askFired => exact List.subset_cons_self _ _
  | fire => exact List.subset_cons_self _ _
  | fireRunning => exact List.subset_cons_self _ _
  | _ => exact List.Subset.refl _

theorem ownFired_subset (h : p.Occurs e p') : p.ownFired ⊆ p'.ownFired := by
  cases h with
  | fireOwn => exact List.subset_cons_self _ _
  | _ => exact List.Subset.refl _

/-- The only ticket that a step lets ask for a run is the next one. -/
theorem runs_cases (h : p.Occurs e p') : p'.runs = p.runs ∨ p'.runs = p.asked :: p.runs := by
  cases h with
  | askRun => exact .inr rfl
  | askFired => exact .inr rfl
  | _ => exact .inl rfl

theorem runs_subset (h : p.Occurs e p') : p.runs ⊆ p'.runs := by
  rcases runs_cases h with heq | heq
  · rw [heq]
    exact List.Subset.refl _
  · rw [heq]
    exact List.subset_cons_self _ _

/-- What a job has sent stays so. -/
theorem isSome_sent?_step (h : p.Occurs e p') (hs : (p.sent? u).isSome) : (p'.sent? u).isSome := by
  have hsend : ∀ (q : Pool) (t : Ticket) (r : Outcome Json), (q.sent? u).isSome →
      ((q.send t r).sent? u).isSome := fun q t r hq => by
    rw [sent?_send]
    split
    · rfl
    · exact hq
  cases h with
  | finishOpen => exact hsend _ _ _ hs
  | panic => exact hsend _ _ _ hs
  | expire => exact hsend _ _ _ hs
  | downReturning => exact hsend _ _ _ hs
  | _ => exact hs

/-- The caller of a run stays in its place or changes it, unless it goes away. -/
theorem callers_step (ho : p.Orderly) (h : p.Occurs e p') (hr : u ∈ p.runs) (hu : u ∈ p.callers) :
    u ∈ p'.callers ∨ e = .withdraw u := by
  cases h with
  | ask =>
    have hjoin := (Line.members_join p.toLine p.closed p.asked).append_right
      (p.watching ++ p.answers.map Prod.fst)
    exact .inl (hjoin.mem_iff.mpr (List.mem_cons_of_mem _ hu))
  | askRun =>
    have hjoin := (Line.members_join p.toLine p.closed p.asked).append_right
      (p.watching ++ p.answers.map Prod.fst)
    exact .inl (hjoin.mem_iff.mpr (List.mem_cons_of_mem _ hu))
  | askFired =>
    have hcons : p.members ++ (p.watching ++ p.asked :: p.answers.map Prod.fst) ~
        p.asked :: p.callers := (List.perm_middle.append_left p.members).trans List.perm_middle
    exact .inl (hcons.mem_iff.mpr (List.mem_cons_of_mem _ hu))
  | withdraw t =>
    by_cases hut : u = t
    · exact .inr (hut ▸ rfl)
    · have hleave := Line.members_leave ho.members_nodup p.closed t
      refine .inl ?_
      rcases List.mem_append.mp hu with hu | hu
      · refine List.mem_append_left _ (hleave.mem_iff.mpr (List.mem_filter.mpr ⟨hu, ?_⟩))
        exact decide_eq_true hut
      · refine List.mem_append_right _ ?_
        rcases List.mem_append.mp hu with hu | hu
        · exact List.mem_append_left _ (List.mem_filter.mpr ⟨hu, decide_eq_true hut⟩)
        · exact List.mem_append_right _ hu
  | takeFired hg _ =>
    exact .inl ((callers_leave ho (mem_members.mpr (.inr hg)) _).mem_iff.mpr hu)
  | takeClosed hg _ _ =>
    exact .inl ((callers_leave ho (mem_members.mpr (.inr hg)) _).mem_iff.mpr hu)
  | takeNothing hg _ _ _ =>
    exact .inl ((callers_leave ho (mem_members.mpr (.inr hg)) _).mem_iff.mpr hu)
  | takeRun hg _ _ _ _ => exact .inl ((members_take ho hg _).mem_iff.mpr hu)
  | @takeHeld t w idle hg _ _ _ hrt =>
    -- Whoever is handed a worker to keep does not ask for a run.
    have hut : u ≠ t := fun heq => hrt (heq ▸ hr)
    refine .inl ?_
    rcases List.mem_append.mp hu with hu | hu
    · refine List.mem_append_left _ ?_
      rw [Line.members_spend ho.members_nodup hg]
      exact List.mem_filter.mpr ⟨hu, decide_eq_true hut⟩
    · exact List.mem_append_right _ hu
  | learnResult hw _ => exact .inl ((callers_learn ho hw _).mem_iff.mpr hu)
  | learnLost hw _ _ => exact .inl ((callers_learn ho hw _).mem_iff.mpr hu)
  | learnFired hw _ _ _ => exact .inl ((callers_learn ho hw _).mem_iff.mpr hu)
  | learnWaiting _ hl _ => exact .inl ((callers_leave ho (mem_members.mpr hl) _).mem_iff.mpr hu)
  | finishOpen _ _ _ => exact .inl (((members_putBack _ _).append_right _).mem_iff.mpr hu)
  | builtOpen _ _ _ => exact .inl (((members_putBack _ _).append_right _).mem_iff.mpr hu)
  | releaseOpen _ _ => exact .inl (((members_putBack _ _).append_right _).mem_iff.mpr hu)
  | _ => exact .inl hu

/-- A ticket that asks for a run gets a place. -/
theorem asked_mem_callers (h : p.Occurs e p') (hr : p'.runs = p.asked :: p.runs) :
    p.asked ∈ p'.callers := by
  cases h with
  | askRun =>
    have hjoin := Line.members_join p.toLine p.closed p.asked
    exact List.mem_append_left _ (hjoin.mem_iff.mpr List.mem_cons_self)
  | askFired =>
    exact List.mem_append_right _ (List.mem_append_right _ List.mem_cons_self)
  | _ => exact absurd hr.symm (List.cons_ne_self _ _)

/-! ### Where results come from -/

/-- In a step of a run, between these states, an operation ended with a result. -/
def EndedAt (p₀ : Pool) (es : List PoolEvent) (t : Ticket) (r : Outcome Json) (q q' : Pool) :
    Prop :=
  ∃ before after, es = before ++ .finish t r :: after ∧ p₀.run before = some q ∧
    q.step (.finish t r) = some q'

/-- An operation ended with a result when the pool was closed, and the shutdown of its worker
began. -/
def EndedClosed (p₀ : Pool) (es : List PoolEvent) (t : Ticket) (w : Worker) (r : Outcome Json) :
    Prop :=
  ∃ q q', EndedAt p₀ es t r q q' ∧ q.closed = true ∧ w ∈ q'.retired

/-- An operation ended with a result and its worker was given back: it became idle, or it was shut
down because the pool was closed. -/
def GaveBack (p₀ : Pool) (es : List PoolEvent) (t : Ticket) (w : Worker) (r : Outcome Json) :
    Prop :=
  ∃ q q', EndedAt p₀ es t r q q' ∧
    (q.closed = false ∧ q'.idle = w :: q.idle ∨
      q.closed = true ∧ w ∈ q'.retired ∧ w ∈ p₀.shutDown es)

/-- The operation of a ticket was told to stop: the token of its caller has fired, or it has fired
the token that it was handed. -/
def ToldToStop (p : Pool) (t : Ticket) : Prop := t ∈ p.fired ∨ t ∈ p.ownFired

/-- Where a result comes from that the job of a run has sent: the operation ended with it, the
operation panicked, or it was dropped after it was told to stop. -/
def Earned (p₀ : Pool) (es : List PoolEvent) (p : Pool) (t : Ticket) (w : Worker)
    (r : Outcome Json) : Prop :=
  GaveBack p₀ es t w r ∨ (r = .error p₀.panicError ∧ .panic t ∈ es) ∨
    (r = .error .operationCancelled ∧ p.ToldToStop t)

/-- What is known of a job: the operation of its ticket was started on its worker, and it was told
to stop or has ended where the phase says so; or it has sent a result. -/
def Backed (p₀ : Pool) (es : List PoolEvent) (p : Pool) (t : Ticket) (j : Job) : Prop :=
  match j.phase with
  | .running => (t, j.worker) ∈ p.started
  | .winding _ => (t, j.worker) ∈ p.started ∧ p.ToldToStop t
  | .returning r => (t, j.worker) ∈ p.started ∧ EndedClosed p₀ es t j.worker r
  | .retiring | .rebuilding | .discarding => (p.sent? t).isSome

/-- The way of each run from the start of its operation to what its caller is told. -/
structure Traced (p₀ : Pool) (es : List PoolEvent) (p : Pool) : Prop where
  name_eq : p.name = p₀.name
  placed : ∀ t ∈ p.runs, t ∈ p.callers ∨ .withdraw t ∈ es
  started_runs : ∀ s ∈ p.started, s.1 ∈ p.runs
  held_runs : ∀ h ∈ p.held, h.1 ∉ p.runs
  watching_started : ∀ t ∈ p.watching, t ∈ p.started.map Prod.fst
  backed : ∀ t j, p.job? t = some j → Backed p₀ es p t j
  settled : ∀ t ∈ p.started.map Prod.fst, (p.sent? t).isSome ∨ (p.job? t).isSome ∨ .crash t ∈ es
  earned : ∀ t r, p.sent? t = some r → ∃ w, (t, w) ∈ p.started ∧ Earned p₀ es p t w r

theorem ToldToStop.step (hs : p.Occurs e p') (h : p.ToldToStop t) : p'.ToldToStop t :=
  h.imp (fun hf => fired_subset hs hf) fun hf => ownFired_subset hs hf

theorem EndedAt.concat (h : EndedAt p₀ es t r q q') (e : PoolEvent) :
    EndedAt p₀ (es ++ [e]) t r q q' := by
  obtain ⟨before, after, rfl, hq, hs⟩ := h
  exact ⟨before, after ++ [e], by simp, hq, hs⟩

/-- The last step of a run may be the one in which an operation ends. -/
theorem endedAt_last (hq : p₀.run es = some q) (hs : q.step (.finish t r) = some q') :
    EndedAt p₀ (es ++ [.finish t r]) t r q q' := ⟨es, [], rfl, hq, hs⟩

theorem EndedClosed.concat (h : EndedClosed p₀ es t w r) (e : PoolEvent) :
    EndedClosed p₀ (es ++ [e]) t w r := by
  obtain ⟨q, q', hend, hc, hw⟩ := h
  exact ⟨q, q', hend.concat e, hc, hw⟩

/-- What was earned stays so. -/
theorem Earned.concat (hp : p₀.run es = some p) (hs : p.step e = some p')
    (h : Earned p₀ es p t w r) : Earned p₀ (es ++ [e]) p' t w r := by
  rcases h with ⟨q, q', hend, hback⟩ | ⟨hr, hpanic⟩ | ⟨hr, hfired⟩
  · refine .inl ⟨q, q', hend.concat e, ?_⟩
    rcases hback with hidle | ⟨hc, hw, hdown⟩
    · exact .inl hidle
    · refine .inr ⟨hc, hw, ?_⟩
      rw [shutDown_concat hp hs]
      exact List.mem_append_left _ hdown
  · exact .inr (.inl ⟨hr, List.mem_append_left _ hpanic⟩)
  · exact .inr (.inr ⟨hr, hfired.step (occurs_of_step hs)⟩)

/-- What is known of a job stays so as long as the job is the same. -/
theorem Backed.concat (h : p.Occurs e p') (hb : Backed p₀ es p t j) :
    Backed p₀ (es ++ [e]) p' t j := by
  have hstarted : ∀ {s}, s ∈ p.started → s ∈ p'.started := fun hs => (started_suffix h).subset hs
  unfold Backed at hb ⊢
  split at hb
  · exact hstarted hb
  · exact ⟨hstarted hb.1, hb.2.step h⟩
  · exact ⟨hstarted hb.1, hb.2.concat e⟩
  · exact isSome_sent?_step h hb
  · exact isSome_sent?_step h hb
  · exact isSome_sent?_step h hb

/-- A job whose operation is under way had it started on its worker. -/
theorem Backed.started (hb : Backed p₀ es p t j) (hop : j.phase.operating = true) :
    (t, j.worker) ∈ p.started := by
  unfold Backed at hb
  split at hb
  · exact hb
  · exact hb.1
  · exact hb.1
  · next hp => simp [hp, JobPhase.operating] at hop
  · next hp => simp [hp, JobPhase.operating] at hop
  · next hp => simp [hp, JobPhase.operating] at hop

theorem backed_step (hp : p₀.run es = some p) (hp' : p.step e = some p') (ht : Traced p₀ es p)
    (hk : p'.job? u = some k) : Backed p₀ (es ++ [e]) p' u k := by
  have h := occurs_of_step hp'
  -- The job is the one that the event is about, or it was there before and is the same.
  have hsame : p.job? u = some k → Backed p₀ (es ++ [e]) p' u k := fun hk =>
    (ht.backed u k hk).concat h
  cases h with
  | @fireRunning t j _ hf hj hphase =>
    rcases job?_of_setJob (p := { p with fired := t :: p.fired })
      (f := fun k => { k with phase := .winding (p.now + p.grace) }) (fun _ => rfl) hj hk with
      ⟨rfl, rfl⟩ | ⟨-, hk⟩
    · exact ⟨(ht.backed _ j hj).started (by rw [hphase]; rfl), .inl List.mem_cons_self⟩
    · exact hsame hk
  | @fireOwn t j hj hphase =>
    rcases job?_of_setJob (p := { p with ownFired := t :: p.ownFired })
      (f := fun k => { k with phase := .winding (p.now + p.grace) }) (fun _ => rfl) hj hk with
      ⟨rfl, rfl⟩ | ⟨-, hk⟩
    · exact ⟨(ht.backed _ j hj).started (by rw [hphase]; rfl), .inr List.mem_cons_self⟩
    · exact hsame hk
  | crash hj _ => exact hsame (job?_of_endJob (p := p) hk).2
  | @takeRun t w idle hg _ _ _ _ =>
    rcases Option.or_eq_some_iff.mp (List.find?_append.symm.trans hk) with hk | ⟨-, hk⟩
    · exact hsame hk
    · have hmem := List.mem_of_find?_eq_some hk
      have hu : k.ticket = u := by simpa using List.find?_some hk
      rw [List.mem_singleton] at hmem
      subst hmem hu
      exact List.mem_cons_self
  | finishOpen hj hop hc => exact hsame (job?_of_endJob hk).2
  | @finishClosed t r j hj hop hc =>
    rcases job?_of_setJob (p := (p.dropLive 1).retire j.worker)
      (f := fun k => { k with phase := .returning r }) (fun _ => rfl) hj hk with
      ⟨rfl, rfl⟩ | ⟨-, hk⟩
    · exact ⟨(ht.backed _ j hj).started hop, _, _, endedAt_last hp hp', hc, List.mem_cons_self⟩
    · exact hsame hk
  | @panic t j hj hop =>
    obtain rfl := ticket_eq_of_job? hj
    rcases job?_of_setJob (p := (p.send j.ticket (.error p.panicError)).retire j.worker)
      (f := fun k => { k with phase := .retiring }) (fun _ => rfl) hj hk with
      ⟨rfl, rfl⟩ | ⟨-, hk⟩
    · exact isSome_sent?_send_self p j.ticket _
    · exact hsame hk
  | @expire t j deadline hj _ _ =>
    obtain rfl := ticket_eq_of_job? hj
    rcases job?_of_setJob (p := (p.send j.ticket (.error .operationCancelled)).retire j.worker)
      (f := fun k => { k with phase := .retiring }) (fun _ => rfl) hj hk with
      ⟨rfl, rfl⟩ | ⟨-, hk⟩
    · exact isSome_sent?_send_self p j.ticket _
    · exact hsame hk
  | downReturning hj _ => exact hsame (job?_of_endJob hk).2
  | downClosed hj _ _ => exact hsame (job?_of_endJob hk).2
  | @downOpen t j hj hphase _ =>
    have hsent := ht.backed t j hj
    rw [Backed, hphase] at hsent
    rcases job?_of_setJob (p := { p with replaced := p.replaced + 1 })
      (f := fun k => { k with phase := .rebuilding }) (fun _ => rfl) hj hk with
      ⟨rfl, rfl⟩ | ⟨-, hk⟩
    · exact hsent
    · exact hsame hk
  | downDiscarding hj _ => exact hsame (job?_of_endJob hk).2
  | builtOpen hj _ _ => exact hsame (job?_of_endJob hk).2
  | @builtClosed t j hj hphase _ =>
    have hsent := ht.backed t j hj
    rw [Backed, hphase] at hsent
    rcases job?_of_setJob (p := { p with nextSerial := p.nextSerial + 1 })
      (f := fun k => { k with worker := ⟨j.worker.slot, p.nextSerial⟩, phase := .discarding })
      (fun _ => rfl) hj hk with ⟨rfl, rfl⟩ | ⟨-, hk⟩
    · exact hsent
    · exact hsame hk
  | builtNothing hj _ => exact hsame (job?_of_endJob hk).2
  | _ => exact hsame hk

/-- A job without an operation has sent a result, unless it is about to. -/
theorem Backed.sent (hb : Backed p₀ es p t j) (hop : j.phase.operating = false)
    (hret : ∀ r, j.phase ≠ .returning r) : (p.sent? t).isSome := by
  unfold Backed at hb
  split at hb
  · next hp => simp [hp, JobPhase.operating] at hop
  · next hp => simp [hp, JobPhase.operating] at hop
  · next hp => exact absurd hp (hret _)
  · exact hb
  · exact hb
  · exact hb

/-- A run whose operation was started has sent a result, or its job is still there, unless the
operation panicked as it was called. -/
theorem settled_step (ht : Traced p₀ es p) (h : p.Occurs e p') (hu : u ∈ p.started.map Prod.fst) :
    (p'.sent? u).isSome ∨ (p'.job? u).isSome ∨ .crash u ∈ es ++ [e] := by
  rcases ht.settled u hu with hsent | hjob | hcrash
  · exact .inl (isSome_sent?_step h hsent)
  · have hset : ∀ {t : Ticket} {f : Job → Job}, (∀ k, (f k).ticket = k.ticket) →
        ((p.setJob t f).job? u).isSome := fun hf => by
      rw [isSome_job?_setJob hf]
      exact hjob
    have hend : ∀ {c : Prop} t, (u = t → c) → c ∨ ((p.endJob t).job? u).isSome ∨
        .crash u ∈ es ++ [e] := fun t hc => by
      rw [job?_endJob]
      split
      · next heq => exact .inl (hc heq)
      · exact .inr (.inl hjob)
    have hdone : ∀ {t j}, p.job? t = some j → j.phase.operating = false →
        (∀ r, j.phase ≠ .returning r) → (p.sent? u).isSome ∨ ((p.endJob t).job? u).isSome ∨
          .crash u ∈ es ++ [e] := fun {t j} hj hop hret =>
      hend t fun heq => heq ▸ (ht.backed t j hj).sent hop hret
    cases h with
    | @fireRunning t _ _ _ _ _ =>
      exact .inr (.inl
        (hset (f := fun k => { k with phase := .winding (p.now + p.grace) }) fun _ => rfl))
    | @fireOwn t _ _ _ =>
      exact .inr (.inl
        (hset (f := fun k => { k with phase := .winding (p.now + p.grace) }) fun _ => rfl))
    | @crash t _ _ _ =>
      by_cases heq : u = t
      · exact .inr (.inr (by simp [heq]))
      · refine .inr (.inl ?_)
        have hjob' : ((p.endJob t).job? u).isSome := by rwa [job?_endJob, if_neg heq]
        exact hjob'
    | takeRun =>
      refine .inr (.inl ?_)
      simp only [job?, List.find?_append, Option.isSome_or, Bool.or_eq_true]
      exact .inl hjob
    | @finishOpen t r j _ _ _ => exact hend t fun heq => heq ▸ isSome_sent?_send_self p t r
    | @finishClosed t r _ _ _ _ =>
      exact .inr (.inl (hset (f := fun k => { k with phase := .returning r }) fun _ => rfl))
    | panic => exact .inr (.inl (hset (f := fun k => { k with phase := .retiring }) fun _ => rfl))
    | expire => exact .inr (.inl (hset (f := fun k => { k with phase := .retiring }) fun _ => rfl))
    | @downReturning t j r _ _ => exact hend t fun heq => heq ▸ isSome_sent?_send_self p t r
    | downClosed hj hphase _ => exact hdone hj (by rw [hphase]; rfl) (by rw [hphase]; nofun)
    | downOpen =>
      exact .inr (.inl (hset (f := fun k => { k with phase := .rebuilding }) fun _ => rfl))
    | downDiscarding hj hphase => exact hdone hj (by rw [hphase]; rfl) (by rw [hphase]; nofun)
    | builtOpen hj hphase _ => exact hdone hj (by rw [hphase]; rfl) (by rw [hphase]; nofun)
    | @builtClosed t j _ _ _ =>
      exact .inr (.inl (hset
        (f := fun k => { k with worker := ⟨j.worker.slot, p.nextSerial⟩, phase := .discarding })
        fun _ => rfl))
    | builtNothing hj hphase => exact hdone hj (by rw [hphase]; rfl) (by rw [hphase]; nofun)
    | _ => exact .inr (.inl hjob)
  · exact .inr (.inr (List.mem_append_left _ hcrash))

/-- Whatever a job sends was earned. -/
theorem earned_step (hp : p₀.run es = some p) (hp' : p.step e = some p') (ht : Traced p₀ es p)
    (hr : p'.sent? u = some r) :
    ∃ w, (u, w) ∈ p'.started ∧ Earned p₀ (es ++ [e]) p' u w r := by
  have h := occurs_of_step hp'
  have hsame : p.sent? u = some r → ∃ w, (u, w) ∈ p'.started ∧ Earned p₀ (es ++ [e]) p' u w r :=
    fun hr => by
      obtain ⟨w, hw, hearned⟩ := ht.earned u r hr
      exact ⟨w, (started_suffix h).subset hw, hearned.concat hp hp'⟩
  have hsend : ∀ {t : Ticket} {r' : Outcome Json}, (p.send t r').sent? u = some r →
      u = t ∧ r' = r ∨ p.sent? u = some r := fun hr => by
    rw [sent?_send] at hr
    split at hr
    · next heq => exact .inl ⟨heq, Option.some.inj hr⟩
    · exact .inr hr
  cases h with
  | @finishOpen t r' j hj hop hc =>
    rcases hsend hr with ⟨rfl, rfl⟩ | hr
    · exact ⟨j.worker, (ht.backed _ j hj).started hop,
        .inl ⟨_, _, endedAt_last hp hp', .inl ⟨hc, rfl⟩⟩⟩
    · exact hsame hr
  | @panic t j hj hop =>
    obtain rfl := ticket_eq_of_job? hj
    rcases hsend hr with ⟨rfl, rfl⟩ | hr
    · refine ⟨j.worker, (ht.backed _ j hj).started hop, .inr (.inl ⟨?_, by simp⟩)⟩
      rw [panicError, panicError, ht.name_eq]
    · exact hsame hr
  | @expire t j deadline hj hphase _ =>
    obtain rfl := ticket_eq_of_job? hj
    rcases hsend hr with ⟨rfl, rfl⟩ | hr
    · have hb := ht.backed _ j hj
      rw [Backed, hphase] at hb
      exact ⟨j.worker, hb.1, .inr (.inr ⟨rfl, hb.2⟩)⟩
    · exact hsame hr
  | @downReturning t j r' hj hphase =>
    rcases hsend hr with ⟨rfl, rfl⟩ | hr
    · have hb := ht.backed _ j hj
      rw [Backed, hphase] at hb
      -- The operation ended before; what was left to do is over with this event.
      obtain ⟨hstarted, q, q', hend, hc, hw⟩ := hb
      refine ⟨j.worker, hstarted, .inl ⟨q, q', hend.concat _, .inr ⟨hc, hw, ?_⟩⟩⟩
      rw [shutDown_concat hp hp', downed_jobDown hj]
      exact List.mem_append_right _ (List.mem_singleton_self _)
    · exact hsame hr
  | _ => exact hsame hr

/-- Operations are only started for tickets that ask for a run. -/
theorem started_runs_step (ht : ∀ s ∈ p.started, s.1 ∈ p.runs) (h : p.Occurs e p') :
    ∀ s ∈ p'.started, s.1 ∈ p'.runs := by
  have hold : ∀ s ∈ p.started, s.1 ∈ p'.runs := fun s hs => runs_subset h (ht s hs)
  cases h with
  | takeRun _ _ _ _ hr =>
    intro s hs
    rcases List.mem_cons.mp hs with rfl | hs
    · exact hr
    · exact ht s hs
  | _ => exact hold

/-- Workers are only handed out for tickets that do not ask for a run. -/
theorem held_runs_step (ho : p.Orderly) (ht : ∀ h ∈ p.held, h.1 ∉ p.runs) (h : p.Occurs e p') :
    ∀ h ∈ p'.held, h.1 ∉ p'.runs := by
  have hnew : ∀ h ∈ p.held, h.1 ∉ p.asked :: p.runs := fun h hh hmem => by
    rcases List.mem_cons.mp hmem with heq | hmem
    · have hclaim : h.1 ∈ p.claims :=
        List.mem_append_right _ (List.mem_append_left _ (List.mem_map_of_mem hh))
      exact Nat.lt_irrefl _ (heq ▸ ho.claims_asked _ hclaim)
    · exact ht h hh hmem
  cases h with
  | askRun => exact hnew
  | askFired => exact hnew
  | takeHeld _ _ _ _ hr =>
    intro h hh
    rcases List.mem_cons.mp hh with rfl | hh
    · exact hr
    · exact ht h hh
  | releaseOpen => exact fun h hh => ht h (List.mem_filter.mp hh).1
  | releaseClosed => exact fun h hh => ht h (List.mem_filter.mp hh).1
  | _ => exact ht

/-- Whoever watches a job had an operation started. -/
theorem watching_started_step (ht : ∀ t ∈ p.watching, t ∈ p.started.map Prod.fst)
    (h : p.Occurs e p') : ∀ t ∈ p'.watching, t ∈ p'.started.map Prod.fst := by
  have hfilter : ∀ t, ∀ u ∈ p.watching.filter (· ≠ t), u ∈ p.started.map Prod.fst :=
    fun t u hu => ht u (List.mem_filter.mp hu).1
  cases h with
  | takeRun =>
    intro u hu
    rcases List.mem_cons.mp hu with rfl | hu
    · exact List.mem_cons_self
    · exact List.mem_cons_of_mem _ (ht u hu)
  | withdraw => exact hfilter _
  | learnResult => exact hfilter _
  | learnLost => exact hfilter _
  | learnFired => exact hfilter _
  | _ => exact ht

/-- The step that starts an operation gives it a job. -/
theorem job?_of_started (h : p.Occurs e p') (hu : u ∈ p'.started.map Prod.fst)
    (hnot : u ∉ p.started.map Prod.fst) : (p'.job? u).isSome := by
  cases h with
  | @takeRun t w idle _ _ _ _ _ =>
    rcases List.mem_cons.mp hu with rfl | hu
    · simp [job?, List.find?_append]
    · exact absurd hu hnot
  | _ => exact absurd hu hnot

theorem placed_step (ho : p.Orderly) (ht : Traced p₀ es p) (h : p.Occurs e p') :
    ∀ t ∈ p'.runs, t ∈ p'.callers ∨ .withdraw t ∈ es ++ [e] := by
  have hold : ∀ t ∈ p.runs, t ∈ p'.callers ∨ .withdraw t ∈ es ++ [e] := fun t hr => by
    rcases ht.placed t hr with hcaller | hwithdraw
    · refine (callers_step ho h hr hcaller).imp_right ?_
      rintro rfl
      simp
    · exact .inr (List.mem_append_left _ hwithdraw)
  intro t hr
  rcases runs_cases h with heq | heq
  · exact hold t (heq ▸ hr)
  · rcases List.mem_cons.mp (heq ▸ hr) with rfl | hr
    · exact .inl (asked_mem_callers h heq)
    · exact hold t hr

theorem traced_step (ho : p.Orderly) (hp : p₀.run es = some p) (hp' : p.step e = some p')
    (ht : Traced p₀ es p) : Traced p₀ (es ++ [e]) p' where
  name_eq := (name_step (occurs_of_step hp')).trans ht.name_eq
  placed := placed_step ho ht (occurs_of_step hp')
  started_runs := started_runs_step ht.started_runs (occurs_of_step hp')
  held_runs := held_runs_step ho ht.held_runs (occurs_of_step hp')
  watching_started := watching_started_step ht.watching_started (occurs_of_step hp')
  backed := fun _ _ hj => backed_step hp hp' ht hj
  settled := fun t hu => by
    by_cases hold : t ∈ p.started.map Prod.fst
    · exact settled_step ht (occurs_of_step hp') hold
    · exact .inr (.inl (job?_of_started (occurs_of_step hp') hu hold))
  earned := fun _ _ hr => earned_step hp hp' ht hr

theorem traced_opened (name : String) (grace now : Nat) (workers : List Worker)
    (nextSerial : Nat) :
    Traced (opened name grace now workers nextSerial) []
      (opened name grace now workers nextSerial) where
  name_eq := rfl
  placed := nofun
  started_runs := nofun
  held_runs := nofun
  watching_started := nofun
  backed := nofun
  settled := nofun
  earned := nofun

/-- Along every run of a fresh pool all results are traced. -/
theorem traced_run {n : Nat} (h₀ : Fresh n p₀) (h : p₀.run es = some p) : Traced p₀ es p := by
  refine run_induction (motive := fun es q => Traced p₀ es q) ?_ ?_ h
  · obtain ⟨-, name, grace, now, rfl⟩ := fresh_eq h₀
    exact traced_opened _ _ _ _ _
  · intro es q e q' hq ht hs
    exact traced_step (accounted_run h₀ hq).1 hq hs ht

end Pool

end LanguageHost
