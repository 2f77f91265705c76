import LanguageHost.Proofs.Engine.Starts
import LanguageHost.Proofs.Pool.Closed

/-!
# The works of an engine

Each ticket of an engine belongs to a work, which has the token of its call.  `Engine.Acts` says
what may be done to an engine, as far as its works and its pool are concerned: everything else that
is done to an engine is about its start.  A token that fires has fired for the ticket of every work
under it, now and later (`Engine.Linked`).
-/

namespace LanguageHost

namespace Pool

variable {p q : Pool} {t : Ticket} {es : List PoolEvent}

/-- The tokens of runs fire, one after the other. -/
def fireAll (p : Pool) (tickets : List Ticket) : Pool :=
  tickets.foldl (fun p t => p.follow (.fire t)) p

/-- A pool leads to another one if a run gets there in which no operation panics as it is called or
fires the token that it was handed. -/
def LeadsTo (p q : Pool) : Prop :=
  ∃ es, p.run es = some q ∧ ∀ e ∈ es, e.isUnruly = false

theorem LeadsTo.refl (p : Pool) : p.LeadsTo p := ⟨[], rfl, fun _ he => absurd he List.not_mem_nil⟩

theorem LeadsTo.trans {q' : Pool} (h : p.LeadsTo q) (h' : q.LeadsTo q') : p.LeadsTo q' := by
  obtain ⟨es, hes, hall⟩ := h
  obtain ⟨es', hes', hall'⟩ := h'
  exact ⟨es ++ es', run_append_eq_some.mpr ⟨q, hes, hes'⟩,
    fun e he => (List.mem_append.mp he).elim (hall e) (hall' e)⟩

theorem leadsTo_follow (p : Pool) {e : PoolEvent} (he : e.isUnruly = false) :
    p.LeadsTo (p.follow e) := by
  rcases p.follow_cases e with hstep | hnothing
  · refine ⟨[e], by rw [run_cons, hstep]; rfl, fun e' he' => ?_⟩
    exact List.mem_singleton.mp he' ▸ he
  · rw [hnothing]
    exact .refl p

theorem leadsTo_fireAll (p : Pool) (tickets : List Ticket) : p.LeadsTo (p.fireAll tickets) := by
  induction tickets generalizing p with
  | nil => exact .refl p
  | cons t tickets ih => exact (p.leadsTo_follow (e := .fire t) rfl).trans (ih _)

theorem leadsTo_closeAtOnce (p : Pool) : p.LeadsTo p.closeAtOnce :=
  closeAtOnce_keeps (.refl p) fun q _ he hq => hq.trans (q.leadsTo_follow he)

/-- What stays so in every step stays so on the way. -/
theorem LeadsTo.keeps {motive : Pool → Prop} (h : p.LeadsTo q) (hp : motive p)
    (next : ∀ p e q, motive p → p.Occurs e q → motive q) : motive q := by
  obtain ⟨es, hes, -⟩ := h
  exact run_induction (motive := fun _ q => motive q) hp
    (fun _ p e q _ hp hs => next p e q hp (occurs_of_step hs)) hes

theorem LeadsTo.tame (h : p.LeadsTo q) (hp : p.Tame) : q.Tame := by
  obtain ⟨es, hes, hall⟩ := h
  obtain ⟨n, p₀, es₀, h₀, hrun, hall₀⟩ := hp
  exact ⟨n, p₀, es₀ ++ es, h₀, run_append_eq_some.mpr ⟨p, hrun, hes⟩,
    fun e he => (List.mem_append.mp he).elim (hall₀ e) (hall e)⟩

theorem LeadsTo.runs_subset (h : p.LeadsTo q) : p.runs ⊆ q.runs :=
  h.keeps (motive := fun q => p.runs ⊆ q.runs) (List.Subset.refl _)
    fun _ _ _ hp ho => List.Subset.trans hp (Pool.runs_subset ho)

theorem LeadsTo.fired_subset (h : p.LeadsTo q) : p.fired ⊆ q.fired :=
  h.keeps (motive := fun q => p.fired ⊆ q.fired) (List.Subset.refl _)
    fun _ _ _ hp ho => List.Subset.trans hp (Pool.fired_subset ho)

/-- A run whose token is told to fire has fired. -/
theorem mem_fired_follow (hr : t ∈ p.runs) : t ∈ (p.follow (.fire t)).fired := by
  by_cases hf : t ∈ p.fired
  · exact (p.leadsTo_follow (e := .fire t) rfl).fired_subset hf
  · have hpossible : (p.step (.fire t)).isSome = true := by
      simp only [step, List.contains_eq_mem, hr, hf, decide_true, decide_false, Bool.not_true,
        Bool.or_false, Bool.false_eq_true, if_false]
      split <;> rfl
    obtain ⟨q, hq⟩ := Option.isSome_iff_exists.mp hpossible
    rw [follow, hq, Option.getD_some]
    exact (hasFired_iff.mp (hasFired_of_fire hq)).2

theorem mem_fired_fireAll {tickets : List Ticket} (hr : t ∈ p.runs) (ht : t ∈ tickets) :
    t ∈ (p.fireAll tickets).fired := by
  induction tickets generalizing p with
  | nil => cases ht
  | cons u tickets ih =>
    have hrest : t ∈ (p.follow (.fire u)).runs := (p.leadsTo_follow (e := .fire u) rfl).runs_subset hr
    rcases List.mem_cons.mp ht with rfl | ht
    · exact ((p.follow (.fire t)).leadsTo_fireAll tickets).fired_subset (mem_fired_follow hr)
    · exact ih hrest ht

/-- A token that fires moves no worker, and lets nobody go. -/
theorem unmoved_follow_fire (p : Pool) (t : Ticket) :
    Unmoved p (p.follow (.fire t)) ∧ (p.follow (.fire t)).toLine = p.toLine := by
  rcases p.follow_cases (.fire t) with hstep | hnothing
  · have ho := occurs_of_step hstep
    refine ⟨unmoved_fire ho, ?_⟩
    generalize p.follow (.fire t) = q at ho
    cases ho with
    | fire => rfl
    | fireRunning => rfl
  · rw [hnothing]
    exact ⟨.refl p, rfl⟩

theorem unmoved_fireAll (p : Pool) (tickets : List Ticket) :
    Unmoved p (p.fireAll tickets) ∧ (p.fireAll tickets).toLine = p.toLine := by
  induction tickets generalizing p with
  | nil => exact ⟨.refl p, rfl⟩
  | cons t tickets ih =>
    obtain ⟨hmoved, hline⟩ := p.unmoved_follow_fire t
    obtain ⟨hmoved', hline'⟩ := ih (p.follow (.fire t))
    exact ⟨hmoved.trans hmoved', hline'.trans hline⟩

/-- No job begins or ends where no worker changes hands. -/
theorem isSome_job?_of_unmoved (h : Unmoved p q) (t : Ticket) :
    (q.job? t).isSome = (p.job? t).isSome := by
  have hmem : ∀ p : Pool, (p.job? t).isSome = true ↔
      ∃ w, (t, w) ∈ p.jobs.map fun j => (j.ticket, j.worker) := by
    intro p
    simp only [job?, List.find?_isSome, decide_eq_true_eq, List.mem_map, Prod.mk.injEq]
    constructor
    · rintro ⟨j, hj, rfl⟩
      exact ⟨j.worker, j, hj, rfl, rfl⟩
    · rintro ⟨w, j, hj, ht, -⟩
      exact ⟨j, hj, ht⟩
  rw [Bool.eq_iff_iff, hmem, hmem, h.jobs_eq]

end Pool

/-! ### What is done to an engine -/

namespace Engine

variable {e e' : Engine} {fired : List Token} {token token' : Token} {token? : Option Token}
variable {p q : Pool} {t : Ticket} {op : EngineOp} {now : Nat}

/-- What may be done to an engine where these tokens have fired, as far as its works and its pool
are concerned. -/
inductive Acts (fired : List Token) (e : Engine) : Option Token → Engine → Prop where
  | nothing {e' : Engine} (hworks : e'.works = e.works) (hpool : e'.pool? = e.pool?) :
      Acts fired e none e'
  /-- A start gives the engine its pool. -/
  | opens {e' : Engine} (hworks : e'.works = e.works) (hnone : e.pool? = none)
      (settings : RuntimeSettings) (now : Nat)
      (hpool : e'.pool? = some (.forSettings e.name settings now)) : Acts fired e none e'
  | follows {e' : Engine} (pe : PoolEvent) (hpe : pe.isUnruly = false) (hworks : e'.works = e.works)
      (hpool : e'.pool? = e.pool?.map fun p => p.follow pe) : Acts fired e none e'
  | closes {e' : Engine} (hworks : e'.works = e.works)
      (hpool : e'.pool? = e.pool?.map Pool.closeAtOnce) : Acts fired e none e'
  /-- A task waits for a worker; its token has not fired. -/
  | queues {e' : Engine} {p : Pool} {token : Token} {item : WorkItem} (hp : e.pool? = some p)
      (hworks : e'.works = ⟨p.asked, token, item⟩ :: e.works)
      (hpool : e'.pool? = some (p.follow (.askRun false))) (hnot : token.firedBy fired = false) :
      Acts fired e none e'
  | fires (token : Token) : Acts fired e (some token) (e.fire token)

theorem works_fire (e : Engine) (token : Token) :
    (e.fire token).works = e.works ∧ (e.fire token).pool? =
      e.pool?.map fun p =>
        p.fireAll ((e.works.filter fun w => w.token.under token).map Work.ticket) := by
  have hall : ∀ (works : List Work) (e : Engine),
      (works.foldl (fun e w => e.withPool fun p => p.follow (.fire w.ticket)) e).works = e.works ∧
      (works.foldl (fun e w => e.withPool fun p => p.follow (.fire w.ticket)) e).pool? =
        e.pool?.map fun p => p.fireAll (works.map Work.ticket) := by
    intro works
    induction works with
    | nil => exact fun e => ⟨rfl, by simp [Pool.fireAll]⟩
    | cons w works ih =>
      intro e
      obtain ⟨hworks, hpool⟩ := ih (e.withPool fun p => p.follow (.fire w.ticket))
      refine ⟨hworks, ?_⟩
      rw [List.foldl_cons, hpool, pool?_withPool, Option.map_map]
      rfl
  exact hall _ e

/-- Publishing a state gives an engine its pool, if it had none. -/
theorem acts_publish (hworks : e'.works = e.works) (hpool : e'.pool? = e.pool?)
    (hname : e'.name = e.name) (settings : RuntimeSettings) (report : StartReport) (now : Nat) :
    Acts fired e none { e' with
      lifecycle := e'.lifecycle.publish
        ⟨Pool.forSettings e'.name settings now, settings, report⟩ } := by
  cases hs : e'.lifecycle.started? with
  | none =>
    rw [Lifecycle.publish_of_none hs, hname]
    refine .opens hworks ?_ settings now rfl
    rw [← hpool, pool?, hs, Option.map_none]
  | some s =>
    have hsame : e'.lifecycle.publish
        ⟨Pool.forSettings e'.name settings now, settings, report⟩ = e'.lifecycle := by
      rw [Lifecycle.publish, hs]
    rw [hsame]
    exact .nothing hworks hpool

theorem acts_prepared (e : Engine) (settings : RuntimeSettings) (report : Outcome StartReport)
    (now : Nat) : Acts fired e none (e.prepared settings report now).2 := by
  cases report with
  | ok report => exact acts_publish rfl rfl rfl settings report now
  | error err => exact .nothing rfl rfl

/-- A start waits for no worker. -/
theorem acts_begin (e : Engine) (settings : RuntimeSettings) (isFired : Bool) (now : Nat) :
    Acts fired e none (e.begin settings isFired now).2 ∧
      ∀ t, (e.begin settings isFired now).1 ≠ .pooled t := by
  rcases e.lifecycle.claim_cases with ⟨hclaim, -, -⟩ | ⟨err, hclaim⟩
  · unfold begin
    rw [hclaim]
    simp only
    split
    · next version _ _ =>
      split
      · exact ⟨.nothing rfl rfl, nofun⟩
      · let claimed : Engine := { e with lifecycle := { e.lifecycle with claimed := true } }
        have hworks : claimed.works = e.works := rfl
        have hpool : claimed.pool? = e.pool? := rfl
        have hclaimed : Acts fired e none (claimed.startNative settings version now) :=
          acts_publish hworks hpool rfl settings ⟨version, ""⟩ now
        exact ⟨hclaimed, nofun⟩
    · exact ⟨.nothing rfl rfl, nofun⟩
  · unfold begin
    rw [hclaim]
    exact ⟨.nothing rfl rfl, nofun⟩

theorem acts_stop (e : Engine) : Acts fired e none e.stop := by
  cases hstopped : e.lifecycle.stopped with
  | true =>
    rw [stop_of_stopped hstopped]
    exact .nothing rfl rfl
  | false =>
    rw [stop_of_not_stopped hstopped]
    exact .closes rfl (pool?_withPool _ _)

/-- A task that waits for a worker has a work with its token. -/
theorem acts_run (e : Engine) (task : Task) (token : Token) :
    Acts fired e none (e.run task token (token.firedBy fired)).2 ∧
      ∀ t, (e.run task token (token.firedBy fired)).1 = .pooled t →
        ∃ w ∈ (e.run task token (token.firedBy fired)).2.works, w.ticket = t ∧ w.token = token := by
  unfold run
  split
  · exact ⟨.nothing rfl rfl, by simp⟩
  · next s hrunning =>
    split
    · exact ⟨.nothing rfl rfl, by simp⟩
    · next item _ =>
      have hs : e.lifecycle.started? = some s := (Lifecycle.running_eq_ok_iff.mp hrunning).2
      have hp : e.pool? = some s.pool := by rw [pool?, hs, Option.map_some]
      unfold enqueue
      cases hfired : token.firedBy fired with
      | true => exact ⟨.follows (.askRun true) rfl rfl (pool?_withPool _ _), by simp⟩
      | false =>
        have hpool := e.pool?_withPool fun p => p.follow (.askRun false)
        rw [hp, Option.map_some] at hpool
        refine ⟨.queues hp rfl hpool hfired, fun t ht => ?_⟩
        exact ⟨_, List.mem_cons_self, Progress.pooled.inj ht, rfl⟩

theorem acts_ask (e : Engine) (fired : List Token) (op : EngineOp) (token : Token) (now : Nat) :
    Acts fired e none (e.ask op token (token.firedBy fired) now).2 ∧
      ∀ t, (e.ask op token (token.firedBy fired) now).1 = .pooled t →
        (∃ task, op = .run task) ∧
          ∃ w ∈ (e.ask op token (token.firedBy fired) now).2.works,
            w.ticket = t ∧ w.token = token := by
  unfold ask
  split
  · exact ⟨.nothing rfl rfl, nofun⟩
  · split
    · next settings =>
      obtain ⟨hacts, hnot⟩ := e.acts_begin settings (token.firedBy fired) now
      exact ⟨hacts, fun t ht => absurd ht (hnot t)⟩
    · next task =>
      obtain ⟨hacts, hwork⟩ := e.acts_run task token
      exact ⟨hacts, fun t ht => ⟨⟨task, rfl⟩, hwork t ht⟩⟩
    · exact ⟨acts_stop e, nofun⟩

theorem acts_follow (e : Engine) (pe : PoolEvent) (hpe : pe.isUnruly = false) :
    Acts fired e none (e.withPool fun p => p.follow pe) :=
  .follows pe hpe rfl (pool?_withPool _ _)

/-- Something happens in the pool, which is known to be possible. -/
theorem acts_withPool (hp : e.pool? = some p) {pe : PoolEvent} (hpe : pe.isUnruly = false) :
    Acts fired e none (e.withPool fun _ => p.follow pe) := by
  refine .follows pe hpe rfl ?_
  rw [pool?_withPool, hp, Option.map_some, Option.map_some]

theorem acts_poolStep {pe : PoolEvent} (hpe : pe.isUnruly = false) (h : e.poolStep pe = some e') :
    Acts fired e none e' := by
  obtain ⟨pool, hpool, rfl⟩ := Option.map_eq_some_iff.mp h
  obtain ⟨p, hp, hstep⟩ := Option.bind_eq_some_iff.mp hpool
  have hfollow : pool = p.follow pe := by rw [Pool.follow, hstep, Option.getD_some]
  rw [hfollow]
  exact acts_withPool hp hpe

theorem acts_workEnds {report : WorkReport} (h : e.workEnds t report = some e') :
    Acts fired e none e' := by
  simp only [workEnds, Option.bind_eq_bind, Option.bind_eq_some_iff] at h
  obtain ⟨pool, -, work, -, result, -, hstep⟩ := h
  exact acts_poolStep rfl hstep

/-! ### Works and pools -/

/-- No work is forgotten. -/
theorem Acts.works_subset (h : Acts fired e token? e') : e.works ⊆ e'.works := by
  cases h with
  | queues _ hworks =>
    rw [hworks]
    exact List.subset_cons_self _ _
  | fires token => exact (e.works_fire token).1 ▸ List.Subset.refl _
  | nothing hworks => exact hworks ▸ List.Subset.refl _
  | opens hworks => exact hworks ▸ List.Subset.refl _
  | follows _ _ hworks => exact hworks ▸ List.Subset.refl _
  | closes hworks => exact hworks ▸ List.Subset.refl _

/-- A pool goes on, and a job that has come to its end did so in a step. -/
theorem Acts.pool (h : Acts fired e token? e') (hp : e.pool? = some p) :
    ∃ q, e'.pool? = some q ∧ p.LeadsTo q ∧ ∀ t, (p.job? t).isSome → q.job? t = none →
      ∃ pe, pe.isUnruly = false ∧ p.step pe = some q := by
  have hsame : ∀ {q : Pool}, (∀ t, (q.job? t).isSome = (p.job? t).isSome) → ∀ t,
      (p.job? t).isSome → q.job? t = none → ∃ pe, pe.isUnruly = false ∧ p.step pe = some q := by
    intro q hjobs t hsome hnone
    rw [← hjobs t, hnone] at hsome
    cases hsome
  have hfollow : ∀ pe : PoolEvent, pe.isUnruly = false → ∀ t, (p.job? t).isSome →
      (p.follow pe).job? t = none →
        ∃ pe', pe'.isUnruly = false ∧ p.step pe' = some (p.follow pe) := by
    intro pe hpe
    rcases p.follow_cases pe with hstep | hnothing
    · exact fun _ _ _ => ⟨pe, hpe, hstep⟩
    · rw [hnothing]
      exact hsame fun _ => rfl
  cases h with
  | nothing _ hpool => exact ⟨p, hpool.trans hp, .refl p, hsame fun _ => rfl⟩
  | opens _ hnone => cases hnone.symm.trans hp
  | follows pe hpe _ hpool =>
    rw [hp, Option.map_some] at hpool
    exact ⟨_, hpool, p.leadsTo_follow hpe, hfollow pe hpe⟩
  | closes _ hpool =>
    rw [hp, Option.map_some] at hpool
    refine ⟨_, hpool, p.leadsTo_closeAtOnce, hsame fun t => ?_⟩
    rw [Pool.job?, p.closeAtOnce_leaves.1]
    rfl
  | queues hp' _ hpool =>
    cases hp'.symm.trans hp
    exact ⟨_, hpool, p.leadsTo_follow rfl, hfollow _ rfl⟩
  | fires token =>
    have hpool := (e.works_fire token).2
    rw [hp, Option.map_some] at hpool
    exact ⟨_, hpool, p.leadsTo_fireAll _,
      hsame (Pool.isSome_job?_of_unmoved (p.unmoved_fireAll _).1)⟩

/-- The works of an engine belong to tickets of its pool, and the ticket of a work whose token has
fired has been told so. -/
structure Linked (fired : List Token) (e : Engine) : Prop where
  tame : ∀ p, e.pool? = some p → p.Tame
  works_nil : e.pool? = none → e.works = []
  runs : ∀ p, e.pool? = some p → ∀ w ∈ e.works, w.ticket ∈ p.runs
  told : ∀ p, e.pool? = some p → ∀ w ∈ e.works, w.token.firedBy fired = true → w.ticket ∈ p.fired

theorem Linked.used (hl : e.Linked fired) : ∀ p, e.pool? = some p → p.Used :=
  fun p hp => (hl.tame p hp).used

/-- A new engine has no works. -/
theorem linked_new (hnew : e.lifecycle = .new e.name) (hworks : e.works = []) :
    e.Linked fired where
  tame := fun p hp => by simp [pool?, hnew, Lifecycle.new] at hp
  works_nil := fun _ => hworks
  runs := fun p hp => by simp [pool?, hnew, Lifecycle.new] at hp
  told := fun p hp => by simp [pool?, hnew, Lifecycle.new] at hp

/-- As long as no work is added and no token fires, works stay linked to a pool that goes on. -/
theorem Linked.of_leadsTo (hl : e.Linked fired) (hworks : e'.works = e.works)
    (hpool : ∀ q, e'.pool? = some q → ∃ p, e.pool? = some p ∧ p.LeadsTo q)
    (hnone : e'.pool? = none → e.pool? = none) : e'.Linked fired where
  tame := fun q hq => by
    obtain ⟨p, hp, hleads⟩ := hpool q hq
    exact hleads.tame (hl.tame p hp)
  works_nil := fun h => hworks.trans (hl.works_nil (hnone h))
  runs := fun q hq w hw => by
    obtain ⟨p, hp, hleads⟩ := hpool q hq
    exact hleads.runs_subset (hl.runs p hp w (hworks ▸ hw))
  told := fun q hq w hw hfired => by
    obtain ⟨p, hp, hleads⟩ := hpool q hq
    exact hleads.fired_subset (hl.told p hp w (hworks ▸ hw) hfired)

/-- Whatever is done to the pool of an engine. -/
theorem Linked.of_map (hl : e.Linked fired) (hworks : e'.works = e.works) {f : Pool → Pool}
    (hpool : e'.pool? = e.pool?.map f) (hf : ∀ p, e.pool? = some p → p.LeadsTo (f p)) :
    e'.Linked fired := by
  refine hl.of_leadsTo hworks (fun q hq => ?_) fun hnone => ?_
  · rw [hpool] at hq
    obtain ⟨p, hp, rfl⟩ := Option.map_eq_some_iff.mp hq
    exact ⟨p, hp, hf p hp⟩
  · rw [hpool] at hnone
    exact Option.map_eq_none_iff.mp hnone

/-- A new work is linked to the ticket that was given out for it. -/
theorem Linked.queues {item : WorkItem} (hl : e.Linked fired) (hp : e.pool? = some p)
    (hworks : e'.works = ⟨p.asked, token, item⟩ :: e.works)
    (hpool : e'.pool? = some (p.follow (.askRun false))) (hnot : token.firedBy fired = false) :
    e'.Linked fired := by
  have hleads := p.leadsTo_follow (e := .askRun false) rfl
  refine ⟨fun q hq => ?_, fun hnone => ?_, fun q hq w hw => ?_, fun q hq w hw hfired => ?_⟩
  · cases hpool.symm.trans hq
    exact hleads.tame (hl.tame p hp)
  · cases hpool.symm.trans hnone
  · cases hpool.symm.trans hq
    rw [hworks] at hw
    rcases List.mem_cons.mp hw with rfl | hw
    · exact List.mem_cons_self
    · exact hleads.runs_subset (hl.runs p hp w hw)
  · cases hpool.symm.trans hq
    rw [hworks] at hw
    rcases List.mem_cons.mp hw with rfl | hw
    · cases hnot.symm.trans hfired
    · exact hleads.fired_subset (hl.told p hp w hw hfired)

/-- A token that fires is told to the tickets of all works under it. -/
theorem Linked.fires (hl : e.Linked fired) (token : Token) :
    (e.fire token).Linked (token :: fired) := by
  obtain ⟨hworks, hpool⟩ := e.works_fire token
  have hmap : (e.fire token).Linked fired :=
    hl.of_map hworks hpool fun p _ => p.leadsTo_fireAll _
  refine ⟨hmap.tame, hmap.works_nil, hmap.runs, fun q hq w hw hfired => ?_⟩
  rw [hworks] at hw
  rw [hpool] at hq
  obtain ⟨p, hp, rfl⟩ := Option.map_eq_some_iff.mp hq
  rw [Token.firedBy, List.any_cons, Bool.or_eq_true] at hfired
  rcases hfired with hunder | hbefore
  · refine Pool.mem_fired_fireAll (hl.runs p hp w hw) (List.mem_map_of_mem ?_)
    exact List.mem_filter.mpr ⟨hw, hunder⟩
  · exact (p.leadsTo_fireAll _).fired_subset (hl.told p hp w hw hbefore)

/-- Whatever is done to an engine, its works stay linked to its pool. -/
theorem Linked.acts (hl : e.Linked fired) (h : Acts fired e token? e') :
    e'.Linked (token?.toList ++ fired) := by
  cases h with
  | nothing hworks hpool =>
    refine hl.of_leadsTo hworks (fun q hq => ⟨q, hpool.symm.trans hq, .refl q⟩) fun hnone => ?_
    exact hpool.symm.trans hnone
  | opens hworks hnone settings now hpool =>
    have hempty : e'.works = [] := hworks.trans (hl.works_nil hnone)
    refine ⟨fun q hq => ?_, fun _ => hempty, fun q hq w hw => ?_, fun q hq w hw => ?_⟩
    · cases hpool.symm.trans hq
      exact Pool.tame_forSettings _ _ _
    · rw [hempty] at hw
      cases hw
    · rw [hempty] at hw
      cases hw
  | follows pe hpe hworks hpool =>
    exact hl.of_map hworks hpool fun p _ => p.leadsTo_follow hpe
  | closes hworks hpool => exact hl.of_map hworks hpool fun p _ => p.leadsTo_closeAtOnce
  | queues hp hworks hpool hnot => exact hl.queues hp hworks hpool hnot
  | fires token => exact hl.fires token

end Engine

end LanguageHost
