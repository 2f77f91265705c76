import LanguageHost.Proofs.Host.Spawns

/-!
# Callers that wait for their operations

Once its operation was started, a call that waits for a worker watches the job (`Pool.Minded`).
Nobody else stops it: only a call that goes on or goes away lets its own ticket learn or withdraw,
whatever it does to the engines by itself (`Host.Asks`), and no two calls wait with one ticket.  So
the calls of a host that wait stay so in every run: `Host.Seated`.
-/

namespace LanguageHost

/-- The ticket whose caller leaves with an event. -/
def PoolEvent.leaver? : PoolEvent → Option Ticket
  | .learn t | .withdraw t => some t
  | _ => none

/-- The ticket with which a call waits for a worker of an engine. -/
def Stage.seat? (stage : Stage) (r : EngineId) : Option Ticket :=
  match stage with
  | .pooled s t => if s = r then some t else none
  | _ => none

namespace Pool

variable {p q : Pool} {pe : PoolEvent} {t : Ticket} {gone? : Option Ticket}

/-- The caller of a ticket watches its operation, if it was started. -/
def Minded (p : Pool) (t : Ticket) : Prop := t ∈ p.started.map Prod.fst → t ∈ p.watching

theorem minded_step (h : p.Occurs pe q) (hstays : pe.leaver? ≠ some t) (hm : p.Minded t) :
    q.Minded t := by
  have hkept : ∀ {u}, pe.leaver? = some u → p.Minded t → t ∈ p.started.map Prod.fst →
      t ∈ p.watching.filter (· ≠ u) := fun {u} hu hm hs => by
    have hne : t ≠ u := fun heq => hstays (heq ▸ hu)
    exact List.mem_filter.mpr ⟨hm hs, decide_eq_true hne⟩
  cases h with
  | takeRun =>
    intro hs
    rcases List.mem_cons.mp hs with rfl | hs
    · exact List.mem_cons_self
    · exact List.mem_cons_of_mem _ (hm hs)
  | withdraw => exact hkept rfl hm
  | learnResult => exact hkept rfl hm
  | learnLost => exact hkept rfl hm
  | learnFired => exact hkept rfl hm
  | _ => exact hm

/-- All callers watch their operations as before, except one that is gone. -/
def Minds (gone? : Option Ticket) (p q : Pool) : Prop :=
  ∀ t, gone? ≠ some t → p.Minded t → q.Minded t

theorem Minds.refl (gone? : Option Ticket) (p : Pool) : p.Minds gone? p := fun _ _ hm => hm

theorem minds_follow (p : Pool) (pe : PoolEvent) : p.Minds pe.leaver? (p.follow pe) := by
  intro t hstays hm
  rcases p.follow_cases pe with hstep | hnothing
  · exact minded_step (occurs_of_step hstep) hstays hm
  · rw [hnothing]
    exact hm

theorem minds_fireAll (p : Pool) (tickets : List Ticket) : p.Minds none (p.fireAll tickets) := by
  induction tickets generalizing p with
  | nil => exact .refl none p
  | cons t tickets ih => exact fun u hu hm => ih _ u hu (p.minds_follow (.fire t) u hu hm)

theorem minds_closeAtOnce (p : Pool) : p.Minds none p.closeAtOnce := by
  have hall : ∀ (workers : List Worker) (q : Pool),
      q.Minds none (workers.foldl (fun p _ => p.follow .closedOne) q) := by
    intro workers
    induction workers with
    | nil => exact .refl none
    | cons w rest ih => exact fun q t ht hm => ih _ t ht (q.minds_follow .closedOne t ht hm)
  exact fun t ht hm => hall _ _ t ht (p.minds_follow .close t ht hm)

/-- The operation of a new ticket was not started. -/
theorem minded_new (ho : p.Orderly) : (p.follow (.askRun false)).Minded p.asked := by
  intro hs
  refine absurd (ho.claims_asked p.asked ?_) (Nat.lt_irrefl _)
  exact List.mem_append_right _ (List.mem_append_right _ hs)

end Pool

namespace Engine

variable {e e' : Engine} {gone? : Option Ticket} {p : Pool} {t : Ticket}

/-- The pool of an engine is there as before, and so are all callers, except one that is gone. -/
def Minds (gone? : Option Ticket) (e e' : Engine) : Prop :=
  ∀ p, e.pool? = some p → ∃ q, e'.pool? = some q ∧ p.Minds gone? q

theorem minds_of_pool?_eq (h : e'.pool? = e.pool?) : e.Minds gone? e' :=
  fun p hp => ⟨p, h.trans hp, .refl gone? p⟩

theorem Minds.mono (h : e.Minds none e') : e.Minds gone? e' := fun p hp => by
  obtain ⟨q, hq, hminds⟩ := h p hp
  exact ⟨q, hq, fun t _ hm => hminds t (by simp) hm⟩

theorem minds_withPool {f : Pool → Pool} (hf : ∀ p, e.pool? = some p → p.Minds gone? (f p)) :
    e.Minds gone? (e.withPool f) := fun p hp =>
  ⟨f p, by rw [pool?_withPool, hp, Option.map_some], hf p hp⟩

theorem minds_fire (e : Engine) (token : Token) : e.Minds none (e.fire token) := fun p hp => by
  have hpool := (e.works_fire token).2
  rw [hp, Option.map_some] at hpool
  exact ⟨_, hpool, p.minds_fireAll _⟩

theorem minds_publish (e : Engine) (s : Started) :
    e.Minds none { e with lifecycle := e.lifecycle.publish s } := fun p hp => by
  obtain ⟨s', hs', rfl⟩ := Option.map_eq_some_iff.mp hp
  exact ⟨s'.pool, by simp only [pool?, Lifecycle.publish, hs', Option.map_some], .refl none _⟩

theorem minds_prepared (e : Engine) (settings : RuntimeSettings) (report : Outcome StartReport)
    (now : Nat) : e.Minds none (e.prepared settings report now).2 := by
  cases report with
  | ok report => exact e.minds_publish _
  | error err => exact minds_of_pool?_eq rfl

theorem minds_begin (e : Engine) (settings : RuntimeSettings) (fired : Bool) (now : Nat) :
    e.Minds none (e.begin settings fired now).2 := by
  rcases e.lifecycle.claim_cases with ⟨hclaim, -, -⟩ | ⟨err, hclaim⟩
  · unfold begin
    rw [hclaim]
    dsimp only
    split
    · split
      · exact minds_of_pool?_eq rfl
      · exact e.withClaim.minds_publish _
    · exact minds_of_pool?_eq rfl
  · rw [begin_of_error hclaim]
    exact minds_of_pool?_eq rfl

theorem minds_stop (e : Engine) : e.Minds none e.stop := by
  cases hstopped : e.lifecycle.stopped with
  | true =>
    rw [stop_of_stopped hstopped]
    exact minds_of_pool?_eq rfl
  | false =>
    rw [stop_of_not_stopped hstopped]
    let stopped : Engine := { e with lifecycle := { e.lifecycle with stopped := true } }
    have hall := minds_withPool (e := stopped) fun p _ => p.minds_closeAtOnce
    exact hall

theorem minds_run (e : Engine) (task : Task) (token : Token) (fired : Bool) :
    e.Minds none (e.run task token fired).2 := by
  rcases e.run_cases task token fired with hsame | ⟨-, works, hrun⟩
  · rw [hsame]
    exact minds_of_pool?_eq rfl
  · have hall := minds_withPool (e := e) fun p _ => p.minds_follow (.askRun fired)
    rw [hrun]
    exact hall

theorem minds_ask (e : Engine) (op : EngineOp) (token : Token) (fired : Bool) (now : Nat) :
    e.Minds none (e.ask op token fired now).2 := by
  unfold ask
  split
  · exact minds_of_pool?_eq rfl
  · split
    · exact e.minds_begin _ fired now
    · exact e.minds_run _ token fired
    · exact e.minds_stop

theorem minds_poolStep {pe : PoolEvent} (hstays : pe.leaver? = none)
    (h : e.poolStep pe = some e') : e.Minds none e' := by
  obtain ⟨pool, hpool, rfl⟩ := Option.map_eq_some_iff.mp h
  obtain ⟨p, hp, hstep⟩ := Option.bind_eq_some_iff.mp hpool
  refine minds_withPool fun p' hp' t _ hm => ?_
  obtain rfl := Option.some.inj (hp.symm.trans hp')
  exact Pool.minded_step (Pool.occurs_of_step hstep) (by simp [hstays]) hm

theorem minds_workEnds {report : WorkReport} (h : e.workEnds t report = some e') :
    e.Minds none e' := by
  simp only [workEnds, Option.bind_eq_bind, Option.bind_eq_some_iff] at h
  obtain ⟨pool, -, work, -, result, -, hstep⟩ := h
  exact minds_poolStep rfl hstep

/-- A ticket that an engine gives out is the next one of its pool, for a task. -/
theorem run_of_pooled {task : Task} {token : Token} {fired : Bool}
    (h : (e.run task token fired).1 = .pooled t) :
    ∃ s item, e.lifecycle.started? = some s ∧ e.itemOf s task = .ok item ∧ t = s.pool.asked ∧
      (e.run task token fired).2 = { e.withPool fun p => p.follow (.askRun false) with
        works := ⟨s.pool.asked, token, item⟩ :: e.works } := by
  cases hrunning : e.lifecycle.running with
  | error err =>
    rw [run_of_error hrunning] at h
    cases h
  | ok s =>
    have hs : e.lifecycle.started? = some s := (Lifecycle.running_eq_ok_iff.mp hrunning).2
    cases hitem : e.itemOf s task with
    | error err =>
      rw [run_of_itemOf_error hrunning hitem] at h
      cases h
    | ok item =>
      rw [run_of_itemOf_ok hrunning hitem] at h ⊢
      cases fired with
      | true => cases h
      | false => exact ⟨s, item, hs, hitem, (Progress.pooled.inj h).symm, rfl⟩

theorem ask_of_pooled {op : EngineOp} {token : Token} {fired : Bool} {now : Nat}
    (h : (e.ask op token fired now).1 = .pooled t) :
    ∃ p, e.pool? = some p ∧ t = p.asked ∧
      (e.ask op token fired now).2.pool? = some (p.follow (.askRun false)) := by
  unfold ask at h ⊢
  split at h
  · cases h
  · split at h
    · next settings =>
      have hbegin : Acts [] e none (e.begin settings fired now).2 ∧
          ∀ t, (e.begin settings fired now).1 ≠ .pooled t := e.acts_begin settings fired now
      exact absurd h (hbegin.2 t)
    · next task hkind =>
      obtain ⟨s, item, hs, -, rfl, hrun⟩ := run_of_pooled h
      have hp : e.pool? = some s.pool := by rw [pool?, hs, Option.map_some]
      have hpool := e.pool?_withPool fun p => p.follow (.askRun false)
      rw [hp, Option.map_some] at hpool
      rw [hrun]
      exact ⟨s.pool, hp, rfl, hpool⟩
    · cases h

end Engine

namespace Host

variable {h h' mid : Host} {r : EngineId} {e e' : Engine} {t : Turn} {c : CallId} {k : Call}
variable {gone? : EngineId → Option Ticket} {event : HostEvent} {es : List HostEvent}
variable {stage : Stage}

/-- All pools are there as before, and so are all callers, except those that are gone. -/
def Minds (gone? : EngineId → Option Ticket) (h h' : Host) : Prop :=
  ∀ r e, h.engine? r = some e → ∃ e', h'.engine? r = some e' ∧ e.Minds (gone? r) e'

theorem minds_of_engines_eq (h' : Host) (hengines : h'.engines = h.engines) :
    h.Minds gone? h' := fun r e he =>
  ⟨e, by rw [engine?, hengines, ← engine?, he], Engine.minds_of_pool?_eq rfl⟩

theorem Minds.mono (hm : h.Minds (fun _ => none) h') : h.Minds gone? h' := fun r e he => by
  obtain ⟨e', he', hminds⟩ := hm r e he
  exact ⟨e', he', hminds.mono⟩

theorem minds_setEngine (he : h.engine? r = some e) (hm : e.Minds (gone? r) e') :
    h.Minds gone? (h.setEngine r e') := fun s e₀ he₀ => by
  rw [engine?_setEngine]
  split
  · next hs =>
    subst hs
    obtain rfl := Option.some.inj (he.symm.trans he₀)
    exact ⟨e', by rw [he, Option.map_some], hm⟩
  · exact ⟨e₀, he₀, Engine.minds_of_pool?_eq rfl⟩

/-- The same is done to all engines. -/
theorem minds_map {f : Engine → Engine} (hf : ∀ e : Engine, e.Minds none (f e))
    (hengines : h'.engines = h.engines.map fun g => { g with engine := f g.engine }) :
    h.Minds (fun _ => none) h' := fun r e he => by
  obtain ⟨g, hg, rfl⟩ := Option.map_eq_some_iff.mp he
  refine ⟨f g.engine, ?_, hf g.engine⟩
  rw [engine?, hengines, List.getElem?_map, hg, Option.map_some, Option.map_some]

/-- The pool of an engine goes on, and so do all callers that stay. -/
theorem Minds.pool (hm : h.Minds gone? h') {p : Pool} (hp : h.pool? r = some p) :
    ∃ q, h'.pool? r = some q ∧ p.Minds (gone? r) q := by
  obtain ⟨e, he, hpool⟩ := Option.bind_eq_some_iff.mp hp
  obtain ⟨e', he', hminds⟩ := hm r e he
  obtain ⟨q, hq, hall⟩ := hminds p hpool
  exact ⟨q, by rw [pool?, he', Option.bind_some, hq], hall⟩

/-! ### What a call does by itself -/

/-- What a call does by itself to the engines: it asks one of them, or touches none. -/
inductive Asks (h : Host) : Turn → Prop where
  | rests {t : Turn} (hengines : t.host.engines = h.engines)
      (hstage : ∀ r ticket, t.stage ≠ .pooled r ticket) : Asks h t
  | asks {mid : Host} (hengines : mid.engines = h.engines) (r : EngineId) (op : EngineOp)
      (token : Token) (frames : List Frame) : Asks h (mid.askEngine r op token frames)

theorem Asks.congr (ha : mid.Asks t) (hengines : mid.engines = h.engines) : h.Asks t := by
  cases ha with
  | rests hsame hstage => exact .rests (hsame.trans hengines) hstage
  | asks hsame r op token frames => exact .asks (hsame.trans hengines) r op token frames

theorem asks_dispatch (h : Host) (name : String) (task : Task) (token : Token)
    (frames : List Frame) : h.Asks (h.dispatch name task token frames) := by
  unfold dispatch
  split
  · exact .rests rfl (by simp)
  · exact .asks rfl _ _ _ _

theorem asks_callBridge (h : Host) (name : String) (args : List Json) (token : Token) :
    h.Asks (h.callBridge name args token) := by
  unfold callBridge
  split
  · exact .rests rfl (by simp)
  · split
    · exact .rests rfl (by simp)
    · exact (asks_dispatch { h with scopes := h.scopes + 1 } _ _ _ _).congr rfl
  · exact .rests rfl (by simp)

theorem asks_startNext (h : Host) (token : Token) (entries : List (String × RuntimeSettings))
    (frames : List Frame) : h.Asks (h.startNext token entries frames) := by
  unfold startNext
  split
  · exact .rests rfl (by simp)
  · split
    · exact .rests rfl (by simp)
    · exact .asks rfl _ _ _ _

theorem asks_stopNext (h : Host) (token : Token) (entries : List (String × EngineId))
    (failures : List (String × HostError)) (frames : List Frame) :
    h.Asks (h.stopNext token entries failures frames) := by
  unfold stopNext
  split
  · exact .rests rfl (by simp)
  · exact .asks rfl _ _ _ _

theorem asks_begin (h : Host) (request : Request) (token : Token) :
    h.Asks (h.begin request token) := by
  cases request with
  | start => exact asks_startNext h token _ []
  | stop => exact asks_stopNext h token _ [] []
  | dispatch name task => exact asks_dispatch h name task token []
  | bridge name args => exact asks_callBridge h name args token
  | engine r op => exact .asks rfl r op token []

theorem asks_pass (h : Host) (token : Token) (f : Frame) (rest : List Frame)
    (result : Outcome Json) : h.Asks (h.pass token f rest result) := by
  cases f with
  | starting name limit? entries =>
    cases result with
    | ok v => exact asks_startNext h token entries rest
    | error e => exact .rests rfl (by simp [pass])
  | stopping name entries failures =>
    cases result with
    | ok v => exact asks_stopNext h token entries failures rest
    | error e => exact asks_stopNext h token entries _ rest
  | _ => exact .rests rfl (by simp [pass])

/-- A call leaves a stage and gets somewhere else: nobody but its own caller goes away, and if it
waits for a worker afterwards, then with a new ticket. -/
structure Sits (h : Host) (stage : Stage) (t : Turn) : Prop where
  minds : h.Minds stage.seat? t.host
  fresh : ∀ r ticket, t.stage = .pooled r ticket → ∃ p, h.pool? r = some p ∧ ticket = p.asked ∧
    t.host.pool? r = some (p.follow (.askRun false))

/-- A call that does not wait for a worker. -/
theorem sits_of_minds (hm : h.Minds stage.seat? t.host)
    (hstage : ∀ r ticket, t.stage ≠ .pooled r ticket) : h.Sits stage t :=
  ⟨hm, fun r ticket hwaits => absurd hwaits (hstage r ticket)⟩

theorem stageOf_eq_pooled {op : EngineOp} {progress : Progress} {s : EngineId} {ticket : Ticket}
    (hstage : stageOf r op progress = .pooled s ticket) : r = s ∧ progress = .pooled ticket := by
  cases progress with
  | pooled t =>
    obtain ⟨rfl, rfl⟩ := Stage.pooled.inj hstage
    exact ⟨rfl, rfl⟩
  | _ => cases hstage

theorem sits_askEngine (h : Host) (r : EngineId) (op : EngineOp) (token : Token)
    (frames : List Frame) : h.Sits stage (h.askEngine r op token frames) := by
  unfold askEngine
  split
  · exact sits_of_minds (minds_of_engines_eq h rfl) (by simp)
  · next g hg =>
    obtain ⟨-, -, hengines⟩ := goes_letPass h g op
    split
    · next err mid hpass =>
      rw [hpass] at hengines
      exact sits_of_minds (minds_of_engines_eq mid hengines) (by simp)
    · next mid hpass =>
      rw [hpass] at hengines
      let asked := mid.note (.asked r op (mid.hasFired token))
      have hsame : ∀ s, asked.engine? s = h.engine? s := fun s =>
        congrArg (fun engines => (engines[s]?).map Guarded.engine) hengines
      have he : asked.engine? r = some g.engine := by
        rw [hsame, engine?, hg, Option.map_some]
      have hminds : asked.Minds (fun _ => none) (asked.setEngine r
          (g.engine.ask op token (mid.hasFired token) mid.now).2) :=
        minds_setEngine he (g.engine.minds_ask op token _ _)
      refine ⟨fun s e hs => hminds.mono s e ((hsame s).trans hs), fun s ticket hstage => ?_⟩
      obtain ⟨rfl, hprogress⟩ := stageOf_eq_pooled hstage
      obtain ⟨p, hp, hticket, hpool⟩ := Engine.ask_of_pooled hprogress
      refine ⟨p, ?_, hticket, ?_⟩
      · rw [pool?, ← hsame, he, Option.bind_some, hp]
      · have hnew : (asked.setEngine r
            (g.engine.ask op token (mid.hasFired token) mid.now).2).engine? r =
              some (g.engine.ask op token (mid.hasFired token) mid.now).2 := by
          rw [engine?_setEngine, if_pos rfl, he, Option.map_some]
        exact Option.bind_eq_some_iff.mpr ⟨_, hnew, hpool⟩

theorem Asks.sits (ha : h.Asks t) : h.Sits stage t := by
  cases ha with
  | rests hengines hstage => exact sits_of_minds (minds_of_engines_eq t.host hengines) hstage
  | @asks mid hengines r op token frames =>
    have hsits : mid.Sits stage (mid.askEngine r op token frames) := mid.sits_askEngine r op _ _
    have hsame : ∀ s, mid.engine? s = h.engine? s := fun s =>
      congrArg (fun engines => (engines[s]?).map Guarded.engine) hengines
    refine ⟨fun s e hs => hsits.minds s e ((hsame s).trans hs), fun s ticket hstage => ?_⟩
    obtain ⟨p, hp, hfresh⟩ := hsits.fresh s ticket hstage
    exact ⟨p, by rw [pool?, ← hsame, ← pool?, hp], hfresh⟩

/-! ### What happens at a stage -/

theorem minds_leave (h : Host) (stage : Stage) : h.Minds stage.seat? (h.leave stage) := by
  unfold leave
  split
  · next r t =>
    have hseat : (Stage.pooled r t).seat? r = some t := if_pos rfl
    split
    · next e he =>
      refine minds_setEngine he (Engine.minds_withPool fun p _ => ?_)
      rw [hseat]
      exact p.minds_follow (.withdraw t)
    · exact minds_of_engines_eq h rfl
  · exact minds_of_engines_eq h rfl

theorem sits_goOn (hg : h.goOn k = some t) : h.Sits k.stage t := by
  unfold goOn at hg
  split at hg
  · next r ticket hstage =>
    simp only [learn, Option.bind_eq_bind, Option.bind_eq_some_iff, Option.pure_def,
      Option.some.injEq] at hg
    obtain ⟨⟨result, h'⟩, ⟨e, he, pool, hpool, answer, -, heq⟩, rfl⟩ := hg
    obtain ⟨rfl, rfl⟩ := Prod.mk.inj heq
    have hseat : k.stage.seat? r = some ticket := by rw [hstage, Stage.seat?, if_pos rfl]
    refine sits_of_minds (minds_setEngine he (Engine.minds_withPool fun p hp => ?_)) (by simp)
    obtain rfl := Option.some.inj (hp.symm.trans hpool)
    rw [hseat]
    exact p.minds_follow (.learn ticket)
  · split at hg
    · obtain ⟨e, he, rfl⟩ := Option.map_eq_some_iff.mp hg
      exact sits_of_minds (minds_setEngine he (Engine.minds_of_pool?_eq rfl)) (by simp)
    · cases hg
  · cases hg

theorem sits_resume (hr : h.resume k = some t) : h.Sits k.stage t := by
  unfold resume at hr
  split at hr
  · split at hr
    · cases hr
    · cases hr
      exact (asks_pass h _ _ _ _).sits
  · split at hr
    · cases hr
      exact sits_of_minds (minds_leave h k.stage) (by simp)
    · exact sits_goOn hr

theorem sits_timeOut (ht : h.timeOut k = some t) : h.Sits k.stage t := by
  unfold timeOut at ht
  split at ht
  · cases ht
  · obtain ⟨⟨limit, frames⟩, -, rfl⟩ := Option.map_eq_some_iff.mp ht
    exact sits_of_minds (minds_leave h k.stage) (by simp)

theorem sits_returned (hr : h.returned k = some t) : h.Sits k.stage t := by
  obtain ⟨f, token, args, -, rfl⟩ := of_returned hr
  split <;> exact sits_of_minds (minds_of_engines_eq h rfl) (by simp)

theorem sits_finished {result : Outcome Json} (hf : h.finished k result = some t) :
    h.Sits k.stage t := by
  obtain ⟨-, rfl⟩ := of_finished hf
  exact sits_of_minds (minds_of_engines_eq h rfl) (by simp)

theorem sits_acted {result : Outcome Json} (ha : h.acted k result = some t) :
    h.Sits k.stage t := by
  unfold acted at ha
  split at ha
  · cases ha
    exact sits_of_minds (minds_of_engines_eq h rfl) (by simp)
  · cases ha

theorem sits_prepared {report : Outcome StartReport} (hp : h.prepared k report = some t) :
    h.Sits k.stage t := by
  unfold prepared at hp
  split at hp
  · obtain ⟨e, he, rfl⟩ := Option.map_eq_some_iff.mp hp
    refine sits_of_minds (minds_setEngine he ?_) (by simp)
    exact (e.minds_prepared _ report h.now).mono
  · cases hp

/-! ### All calls that wait -/

/-- Every call that waits for a worker minds its operation, and no other call waits with its
ticket. -/
structure Seated (h : Host) : Prop where
  minded : ∀ k ∈ h.calls, ∀ r t, k.stage = .pooled r t → ∀ p, h.pool? r = some p → p.Minded t
  alone : ∀ k ∈ h.calls, ∀ j ∈ h.calls, ∀ r t, k.stage = .pooled r t → j.stage = .pooled r t →
    k.id = j.id

theorem seated_new {config : HostConfig} (hnew : new config = .ok h) : h.Seated := by
  obtain rfl := eq_of_new hnew
  exact ⟨fun k hk => (by cases hk), fun k hk => (by cases hk)⟩

/-- Calls that were there before wait as before, if nobody is gone whose ticket they have. -/
theorem Seated.minds (hs : h.Seated) (hl : h.Linked) (hm : h.Minds gone? h') (hk : k ∈ h.calls)
    {ticket : Ticket} (hstage : k.stage = .pooled r ticket) (hstays : gone? r ≠ some ticket)
    {q : Pool} (hq : h'.pool? r = some q) : q.Minded ticket := by
  have hplace := hl.calls k hk
  rw [hstage] at hplace
  obtain ⟨e, w, he, hw, -, -⟩ := hplace
  cases hpool : e.pool? with
  | none =>
    rw [(hl.engines r e he).works_nil hpool] at hw
    cases hw
  | some p =>
    have hp : h.pool? r = some p := by rw [pool?, he, Option.bind_some, hpool]
    obtain ⟨q', hq', hall⟩ := hm.pool hp
    obtain rfl := Option.some.inj (hq'.symm.trans hq)
    exact hall ticket hstays (hs.minded k hk r ticket hstage p hp)

/-- The ticket of a call that waits came before the next one of its pool. -/
theorem Linked.ticket_lt (hl : h.Linked) (hk : k ∈ h.calls) {ticket : Ticket}
    (hstage : k.stage = .pooled r ticket) {p : Pool} (hp : h.pool? r = some p) :
    ticket < p.asked := by
  have hplace := hl.calls k hk
  rw [hstage] at hplace
  obtain ⟨e, w, he, hw, rfl, -⟩ := hplace
  rw [pool?, he, Option.bind_some] at hp
  have hlinked := hl.engines r e he
  exact (hlinked.used p hp).orderly.runs_asked _ (hlinked.runs p hp w hw)

/-- What has nothing to do with a call. -/
theorem Seated.aside (hs : h.Seated) (hl : h.Linked) (hm : h.Minds (fun _ => none) h')
    (hcalls : h'.calls = h.calls) : h'.Seated :=
  ⟨fun k hk _ _ hstage _ hq => hs.minds hl hm (hcalls ▸ hk) hstage (by simp) hq,
    fun k hk j hj => hs.alone k (hcalls ▸ hk) j (hcalls ▸ hj)⟩

/-- The new ticket of a call is no other's, and its operation was not started. -/
theorem Seated.concat (hs : h.Seated) (hl : h.Linked) (hsits : h.Sits stage t) (left : List Call)
    (hleft : ∀ j ∈ left, j ∈ h.calls ∧
      ∀ r ticket, j.stage = .pooled r ticket → stage.seat? r ≠ some ticket)
    (hengines : h'.engines = t.host.engines) (hstage : k.stage = t.stage)
    (hcalls : ∀ j, j ∈ h'.calls → j = k ∨ j ∈ left) : h'.Seated := by
  have hpool : ∀ r, h'.pool? r = t.host.pool? r := fun r =>
    congrArg (fun engines => ((engines[r]?).map Guarded.engine).bind Engine.pool?) hengines
  have hother : ∀ j ∈ left, ∀ r ticket, j.stage = .pooled r ticket →
      k.stage ≠ .pooled r ticket := fun j hj r ticket hjs hks => by
    obtain ⟨p, hp, rfl, -⟩ := hsits.fresh r ticket (hstage.symm.trans hks)
    exact Nat.lt_irrefl _ (hl.ticket_lt (hleft j hj).1 hjs hp)
  refine ⟨fun j hj r ticket hjs q hq => ?_, fun i hi j hj r ticket his hjs => ?_⟩
  · rw [hpool] at hq
    rcases hcalls j hj with rfl | hold
    · obtain ⟨p, hp, rfl, hp'⟩ := hsits.fresh r ticket (hstage.symm.trans hjs)
      obtain rfl := Option.some.inj (hp'.symm.trans hq)
      exact Pool.minded_new (hl.pool_used hp).orderly
    · obtain ⟨hmem, hstays⟩ := hleft j hold
      exact hs.minds hl hsits.minds hmem hjs (hstays r ticket hjs) hq
  · rcases hcalls i hi with rfl | hiold
    · rcases hcalls j hj with rfl | hjold
      · rfl
      · exact absurd his (hother j hjold r ticket hjs)
    · rcases hcalls j hj with rfl | hjold
      · exact absurd hjs (hother i hiold r ticket his)
      · exact hs.alone i (hleft i hiold).1 j (hleft j hjold).1 r ticket his hjs

/-- A call leaves the seats of all others alone. -/
theorem Seated.stays (hs : h.Seated) (hk : k ∈ h.calls) {j : Call} (hj : j ∈ h.calls)
    (hne : j.id ≠ k.id) (r : EngineId) (ticket : Ticket) (hstage : j.stage = .pooled r ticket) :
    k.stage.seat? r ≠ some ticket := by
  intro hseat
  refine hne (hs.alone j hj k hk r ticket hstage ?_)
  unfold Stage.seat? at hseat
  split at hseat
  · next s ticket' hks =>
    split at hseat
    · next heq => rw [hks, heq, Option.some.inj hseat]
    · cases hseat
  · cases hseat

/-- A call gets somewhere else. -/
theorem Seated.settle (hs : h.Seated) (hl : h.Linked) (hk : k ∈ h.calls)
    (hsits : h.Sits k.stage t) (hcalls : t.host.calls = h.calls) : (settle t k).Seated := by
  refine hs.concat (k := { k with frames := t.frames, stage := t.stage, since := t.host.now }) hl
    hsits (h.calls.filter fun j => j.id ≠ k.id) (fun j hj => ?_) rfl rfl fun j hj => ?_
  · obtain ⟨hmem, hne⟩ := List.mem_filter.mp hj
    exact ⟨hmem, hs.stays hk hmem (of_decide_eq_true hne)⟩
  · obtain ⟨i, hi, rfl⟩ := List.mem_map.mp hj
    rw [hcalls] at hi
    split
    · exact .inl rfl
    · next hid => exact .inr (List.mem_filter.mpr ⟨hi, decide_eq_true hid⟩)

theorem Seated.ask (hs : h.Seated) (hl : h.Linked) (request : Request) (token : Token) :
    (h.ask request token).Seated := by
  let later : Host := { h with asked := h.asked + 1 }
  have hcalls : (later.begin request token).host.calls = h.calls :=
    (brings_ask h request token).calls_eq
  have hasks : h.Asks (later.begin request token) := (asks_begin later request token).congr rfl
  have hsits : h.Sits (.over (.ok .null)) (later.begin request token) := hasks.sits
  let turn := later.begin request token
  refine hs.concat (k := ⟨h.asked, token, turn.frames, turn.stage, turn.host.now⟩) hl hsits h.calls
    (fun j hj => ⟨hj, fun _ _ _ hseat => by cases hseat⟩) rfl rfl fun j hj => ?_
  rcases List.mem_cons.mp hj with rfl | hold
  · exact .inl rfl
  · exact .inr (hcalls ▸ hold)

theorem Seated.drop (hs : h.Seated) (hl : h.Linked) (hk : k ∈ h.calls) : (h.drop k).Seated := by
  have hcalls : (h.leave k.stage).calls = h.calls := (acts_leave h k.stage).2
  have hleft : ∀ j ∈ (h.drop k).calls, j ∈ h.calls ∧ j.id ≠ k.id := fun j hj => by
    obtain ⟨hmem, hne⟩ := List.mem_filter.mp hj
    exact ⟨hcalls ▸ hmem, of_decide_eq_true hne⟩
  refine ⟨fun j hj r ticket hstage q hq => ?_, fun i hi j hj => ?_⟩
  · obtain ⟨hmem, hne⟩ := hleft j hj
    exact hs.minds hl (minds_leave h k.stage) hmem hstage (hs.stays hk hmem hne r ticket hstage) hq
  · exact hs.alone i (hleft i hi).1 j (hleft j hj).1

theorem seated_forCall {f : Call → Option Turn}
    (hf : ∀ k t, f k = some t → h.Sits k.stage t ∧ t.host.calls = h.calls) (hs : h.Seated)
    (hl : h.Linked) (hstep : h.forCall c f = some h') : h'.Seated := by
  simp only [forCall, Option.bind_eq_bind, Option.bind_eq_some_iff, Option.pure_def,
    Option.some.injEq] at hstep
  obtain ⟨k, hk, t, hturn, rfl⟩ := hstep
  obtain ⟨hsits, hcalls⟩ := hf k t hturn
  exact hs.settle hl (mem_of_call? hk).1 hsits hcalls

theorem seated_forEngine {f : Engine → Option Engine}
    (hf : ∀ e e', f e = some e' → Engine.Minds none e e') (hs : h.Seated) (hl : h.Linked)
    (hstep : h.forEngine r f = some h') : h'.Seated := by
  simp only [forEngine, Option.bind_eq_bind, Option.bind_eq_some_iff, Option.pure_def,
    Option.some.injEq] at hstep
  obtain ⟨e, he, e', he', rfl⟩ := hstep
  exact hs.aside hl (minds_setEngine he (hf e e' he')) rfl

theorem seated_step (hs : h.Seated) (hl : h.Linked) (hstep : h.step event = some h') :
    h'.Seated := by
  have hquiet : h'.engines = h.engines → h'.calls = h.calls → h'.Seated := fun hengines hcalls =>
    hs.aside hl (minds_of_engines_eq h' hengines) hcalls
  cases event with
  | ask request token =>
    cases hstep
    exact hs.ask hl request token
  | fire token =>
    cases hstep
    exact hs.aside hl (minds_map (fun e => e.minds_fire token) rfl) rfl
  | resume c =>
    exact seated_forCall (fun k t ht => ⟨sits_resume ht, (moves_resume ht).calls_eq⟩) hs hl hstep
  | timeOut c =>
    exact seated_forCall (fun k t ht => ⟨sits_timeOut ht, (moves_timeOut ht).calls_eq⟩) hs hl hstep
  | drop c =>
    obtain ⟨k, hk, rfl⟩ := Option.map_eq_some_iff.mp hstep
    exact hs.drop hl (mem_of_call? hk).1
  | acted c result =>
    exact seated_forCall (fun k t ht => ⟨sits_acted ht, (moves_acted ht).calls_eq⟩) hs hl hstep
  | prepared c report =>
    exact seated_forCall (fun k t ht => ⟨sits_prepared ht, (moves_prepared ht).calls_eq⟩) hs hl
      hstep
  | returned c =>
    exact seated_forCall (fun k t ht => ⟨sits_returned ht, (moves_returned ht).calls_eq⟩) hs hl
      hstep
  | finished c result =>
    exact seated_forCall (fun k t ht => ⟨sits_finished ht, (moves_finished ht).calls_eq⟩) hs hl
      hstep
  | panicked c =>
    obtain ⟨k, f, token, args, hk, -, rfl⟩ := of_step_panicked hstep
    exact hs.drop hl (mem_of_call? hk).1
  | pool r pe =>
    simp only [step] at hstep
    split at hstep
    · next hinner =>
      have hstays : pe.leaver? = none := by cases pe <;> first | rfl | cases hinner
      exact seated_forEngine (fun _ _ => Engine.minds_poolStep hstays) hs hl hstep
    · cases hstep
  | workEnds r ticket report =>
    exact seated_forEngine (fun _ _ => Engine.minds_workEnds) hs hl hstep
  | make e guard? =>
    cases hstep
    refine hs.aside hl (fun r e' he' => ⟨e', ?_, Engine.minds_of_pool?_eq rfl⟩) rfl
    exact engine?_make_of_some he' e guard?
  | register r =>
    cases hstep
    unfold register
    split
    · exact hs
    · split
      · exact hs
      · exact hs.aside hl (minds_of_engines_eq _ rfl) rfl
  | wait time =>
    simp only [step] at hstep
    split at hstep
    · cases hstep
      have hwait : ∀ e : Engine, e.Minds none (e.wait time) := fun e =>
        Engine.minds_withPool fun p _ => p.minds_follow (.wait time)
      exact hs.aside hl (minds_map hwait rfl) rfl
    · cases hstep
  | _ =>
    cases hstep
    exact hquiet rfl rfl

/-- The calls of a host that wait for a worker mind their operations. -/
theorem Used.seated (hu : h.Used) : h.Seated := by
  obtain ⟨config, h₀, es, hnew, hmade, hr⟩ := hu
  refine (plays.induction (motive := fun g => g.Linked ∧ g.Seated)
    ⟨linked_new hnew, seated_new hnew⟩ (fun g event g' hmem ⟨hl, hs⟩ hstep => ?_) hr).2
  exact ⟨linked_step hl (fun e guard? heq => hmade e guard? (heq ▸ hmem)) hstep,
    seated_step hs hl hstep⟩

end Host

end LanguageHost
