import LanguageHost.Proofs.Engine.Printed
import LanguageHost.Proofs.Host.Learning

/-!
# Values across the boundary of a process

A child that has printed a value ends the operation of its call with this value, and one whose
input or output fails ends it with that failure (`Host.Used.delivers_report`).  The result stays
what it is until the caller has learned it (`Pool.Ended`, `Pool.ended_step`), and the caller is there
to learn it (`Host.Seated`).  So the call returns the result, whatever happens in between:
`Host.value_unchanged`.
-/

namespace LanguageHost

namespace Pool

variable {p q q' : Pool} {pe : PoolEvent} {t : Ticket} {result : Outcome Json}

theorem LeadsTo.ended (h : p.LeadsTo q) (hu : p.Used) (hstarted : t ∈ p.started.map Prod.fst)
    (hended : p.Ended t result) : q.Ended t result ∧ t ∈ q.started.map Prod.fst := by
  have hall : q.Orderly ∧ t ∈ q.started.map Prod.fst ∧ q.Ended t result :=
    h.keeps (motive := fun q => q.Orderly ∧ t ∈ q.started.map Prod.fst ∧ q.Ended t result)
      ⟨hu.orderly, hstarted, hended⟩ fun q pe q' ⟨ho, hs, he⟩ hstep =>
        ⟨orderly_step ho hstep, ((started_suffix hstep).map Prod.fst).subset hs,
          ended_step ho hs he hstep⟩
  exact ⟨hall.2.2, hall.2.1⟩

/-- The end of an operation fires no token, in a pool that is open. -/
theorem hasFired_finish_of_open {j : Job} (hopen : p.closed = false) (result : Outcome Json) :
    (p.finish j result).hasFired t = p.hasFired t := by
  rw [finish, hopen, if_neg (by decide)]
  rfl

end Pool

namespace Engine

variable {e : Engine}

/-- What becomes of a child ends the work of its call. -/
theorem workOutcome_of_child {language : Language} {w : Work} {spawn : Spawn}
    (hkind : e.kind = .interpreter language) (hitem : w.item = .process spawn)
    (report : ChildReport) (fired : Bool) :
    e.workOutcome? w (.child report) fired = report.outcome? spawn fired := by
  simp only [workOutcome?, hkind, hitem]

end Engine

namespace Host

variable {h h' g : Host} {r : EngineId} {e : Engine} {k : Call} {t : Ticket} {p q : Pool} {v : Json}
variable {pe : PoolEvent} {result : Outcome Json} {es : List HostEvent}

/-- The next step of a call is its return with a result, to whatever is around it. -/
def Returns (h : Host) (k : Call) (result : Outcome Json) : Prop :=
  ∃ h', h.step (.resume k.id) = some h' ∧
    h'.call? k.id = some { k with stage := .over result, since := h.now }

/-- A call returns the result that was sent to it. -/
theorem Used.returns_of_sent (hu : h.Used) (hk : h.call? k.id = some k)
    (hstage : k.stage = .pooled r t) (hp : h.pool? r = some p)
    (hstarted : t ∈ p.started.map Prod.fst) (hsent : p.sent? t = some result)
    (hnot : p.hasFired t = false) : h.Returns k result := by
  obtain ⟨q, hstep, hanswer⟩ := Pool.learns_result (hu.watches hk hstage hp hstarted) hsent
  have hlearned : (p.follow (.learn t)).answer? t = some result := by
    rw [Pool.follow, hstep, Option.getD_some, hanswer]
  obtain ⟨h', hs, -, hk'⟩ := hu.resume_of_learned hk hstage hp hnot hlearned
  exact ⟨h', hs, hk'⟩

/-- A call whose result was not sent yet waits for it. -/
theorem Used.waits_of_returning (hu : h.Used) (hk : h.call? k.id = some k)
    (hstage : k.stage = .pooled r t) (hp : h.pool? r = some p)
    (hstarted : t ∈ p.started.map Prod.fst) {j : Job} (hj : p.job? t = some j)
    (hphase : j.phase = .returning result) (hnot : p.hasFired t = false) :
    h.step (.resume k.id) = none := by
  obtain ⟨hcan, hanswer⟩ := Pool.not_learns_of_job (hu.linked.pool_used hp)
    (hu.watches hk hstage hp hstarted) hj (.inr ⟨result, hphase⟩) hnot
  refine hu.not_resume_of_nothing hk hstage hp hnot ?_
  rw [Pool.follow, Pool.step, hcan, if_neg (by decide), Option.getD_none, hanswer]

/-- What becomes of a call whose operation has ended with a result. -/
structure Delivers (h : Host) (k : Call) (r : EngineId) (t : Ticket) (result : Outcome Json) :
    Prop where
  /-- The call is there until its own next step, or until its caller goes away. -/
  waits : ∀ es g, MakesNew es → h.run es = some g →
    (∀ event ∈ es, event ≠ .resume k.id ∧ event ≠ .drop k.id) → g.call? k.id = some k
  /-- While it is there, and was not cancelled, its next step is the return with the result; if the
  pool is closed, the worker may have to be shut down before. -/
  returns : ∀ es g, MakesNew es → h.run es = some g → g.call? k.id = some k →
    ∃ q, g.pool? r = some q ∧ (q.hasFired t = false → g.Returns k result ∨
      q.closed = true ∧ g.step (.resume k.id) = none ∧
        ∃ g', g.step (.pool r (.jobDown t)) = some g' ∧ g'.Returns k result)

/-- The worker of a job is shut down, and then the call returns the result. -/
theorem Used.returns_after_down (hu : h.Used) (hk : h.call? k.id = some k)
    (hstage : k.stage = .pooled r t) (hp : h.pool? r = some p)
    (hstarted : t ∈ p.started.map Prod.fst) {j : Job} (hj : p.job? t = some j)
    (hphase : j.phase = .returning result) (hnot : p.hasFired t = false) :
    ∃ h', h.step (.pool r (.jobDown t)) = some h' ∧ h'.Returns k result := by
  obtain rfl := Pool.ticket_eq_of_job? hj
  let q : Pool := (p.endJob j.ticket).send j.ticket result
  have hdown : p.step (.jobDown j.ticket) = some q := by
    simp only [Pool.step, hj, Option.bind_some, Pool.jobDown, hphase, q]
  obtain ⟨h', hs, hq⟩ := step_pool hp rfl hdown
  have hu' : h'.Used := hu.step (by simp [MakesNew]) hs
  have hk' := call?_step_of_pooled hu.linked hu.ids_lt hk hstage hs (by simp) (by simp)
  exact ⟨h', hs, hu'.returns_of_sent hk' hstage hq hstarted (Pool.sent?_send_self _ _ _) hnot⟩

theorem Used.delivers (hu : h.Used) (hk : h.call? k.id = some k) (hstage : k.stage = .pooled r t)
    (hp : h.pool? r = some p) (hstarted : t ∈ p.started.map Prod.fst)
    (hended : p.Ended t result) : h.Delivers k r t result := by
  refine ⟨fun es g hmade hr hevents => hu.call?_run_of_pooled hk hstage hmade hr hevents,
    fun es g hmade hr hkg => ?_⟩
  have hug : g.Used := hu.run hmade hr
  obtain ⟨q, hq, hleads⟩ := pool_run hu.linked hmade hp hr
  obtain ⟨hendedq, hstartedq⟩ := hleads.ended (hu.linked.pool_used hp) hstarted hended
  refine ⟨q, hq, fun hnot => ?_⟩
  cases hendedq with
  | sent _ hsent => exact .inl (hug.returns_of_sent hkg hstage hq hstartedq hsent hnot)
  | returning hj hphase hclosed =>
    exact .inr ⟨hclosed, hug.waits_of_returning hkg hstage hq hstartedq hj hphase hnot,
      hug.returns_after_down hkg hstage hq hstartedq hj hphase hnot⟩

/-- A child of an interpreter is at work for a call. -/
structure AtWork (h : Host) (k : Call) (r : EngineId) (t : Ticket) (language : Language) :
    Prop where
  call : h.call? k.id = some k
  stage : k.stage = .pooled r t
  job : ∃ e p j, h.engine? r = some e ∧ e.kind = .interpreter language ∧ e.pool? = some p ∧
    p.job? t = some j ∧ j.phase.operating = true

/-- The work of a call that waits is a process, if the engine is an interpreter. -/
theorem Used.work_of_pooled {language : Language} (hu : h.Used) (hk : h.call? k.id = some k)
    (hstage : k.stage = .pooled r t) (he : h.engine? r = some e)
    (hkind : e.kind = .interpreter language) :
    ∃ w spawn, e.work? t = some w ∧ w.item = .process spawn := by
  have hplace := hu.linked.calls k (mem_of_call? hk).1
  rw [hstage] at hplace
  obtain ⟨e', w, he', hw, rfl, -⟩ := hplace
  obtain rfl := Option.some.inj (he.symm.trans he')
  have hfurnished := hu.furnished he
  obtain ⟨s, program, args, -, hitem⟩ := hfurnished.spawns language hkind w hw
  exact ⟨w, _, hfurnished.work?_of_mem hw, hitem⟩

/-- What becomes of a child is what its call returns, if it does not depend on the token; in an open
pool, the call returns at once. -/
theorem Used.delivers_report {language : Language} (hu : h.Used)
    (hwork : h.AtWork k r t language) (report : ChildReport)
    (houtcome : ∀ spawn fired, report.outcome? spawn fired = some result) :
    ∃ h', h.step (.workEnds r t (.child report)) = some h' ∧ h'.Delivers k r t result ∧
      ∀ p, h.pool? r = some p → p.closed = false → p.hasFired t = false →
        h'.Returns k result := by
  obtain ⟨hk, hstage, e, p, j, he, hkind, hpool, hj, hop⟩ := hwork
  obtain ⟨w, spawn, hw, hitem⟩ := hu.work_of_pooled hk hstage he hkind
  obtain ⟨q, hfinish, hended, hsent⟩ := Pool.ended_finish hj hop result
  have hworkOutcome := (Engine.workOutcome_of_child hkind hitem report (p.fired.contains t)).trans
    (houtcome spawn _)
  obtain ⟨h', hs, hq⟩ := step_workEnds he hpool hw hworkOutcome hfinish
  have hu' : h'.Used := hu.step (by simp [MakesNew]) hs
  have hk' := call?_step_of_pooled hu.linked hu.ids_lt hk hstage hs (by simp) (by simp)
  have hp : h.pool? r = some p := by rw [pool?, he, Option.bind_some, hpool]
  have hstarted : t ∈ p.started.map Prod.fst := by
    obtain rfl := Pool.ticket_eq_of_job? hj
    exact (hu.linked.pool_used hp).orderly.job_started j (Pool.mem_jobs_of_job? hj)
  have hstarted' : t ∈ q.started.map Prod.fst :=
    ((Pool.started_suffix (Pool.occurs_of_step hfinish)).map Prod.fst).subset hstarted
  refine ⟨h', hs, hu'.delivers hk' hstage hq hstarted' hended, fun p' hp' hopen hnot => ?_⟩
  obtain rfl := Option.some.inj (hp.symm.trans hp')
  have hone : p.step (.finish t result) = some (p.finish j result) := by
    simp only [Pool.step, hj, hop, if_true]
  obtain rfl := Option.some.inj (hone.symm.trans hfinish)
  exact hu'.returns_of_sent hk' hstage hq hstarted' (hsent hopen).2
    ((Pool.hasFired_finish_of_open hopen result).trans hnot)

/-- A value that a child prints is what its call returns. -/
theorem Used.delivers_printed {language : Language} {before after : List Char} (hu : h.Used)
    (hwork : h.AtWork k r t language) (hv : v.Exact) (hdepth : v.depth ≤ Json.maxDepth)
    (hbefore : ∀ c ∈ before, Text.isBlank c = true) (hafter : ∀ c ∈ after, Text.isBlank c = true)
    (err : List UInt8) :
    ∃ h', h.step (.workEnds r t (.child (.ended (.printed (before ++ v.write ++ after) err)))) =
      some h' ∧ h'.Delivers k r t (.ok v) := by
  obtain ⟨h', hs, hdelivers, -⟩ := hu.delivers_report hwork (.ended _) fun spawn _ =>
    congrArg some (outcome_of_printed hv hdepth hbefore hafter err spawn.language.name)
  exact ⟨h', hs, hdelivers⟩

/-- An interpreter that is asked to do a task, and lets the call wait, has a work for it. -/
theorem work_of_askEngine {task : Task} {token : Token} {frames : List Frame} {language : Language}
    (he : h.engine? r = some e) (hkind : e.kind = .interpreter language)
    (hstage : (h.askEngine r (.run task) token frames).stage = .pooled r t) :
    ∃ s item e', e.lifecycle.started? = some s ∧ e.itemOf s task = .ok item ∧
      (h.askEngine r (.run task) token frames).host.engine? r = some e' ∧
      ⟨t, token, item⟩ ∈ e'.works := by
  obtain ⟨guarded, hg, rfl⟩ := Option.map_eq_some_iff.mp he
  have hengines := (goes_letPass h guarded (.run task)).2.2
  unfold askEngine at hstage ⊢
  rw [hg] at hstage ⊢
  dsimp only at hstage ⊢
  generalize h.letPass guarded (.run task) = passed at hstage hengines ⊢
  obtain ⟨verdict, mid⟩ := passed
  cases verdict with
  | error err => cases hstage
  | ok u =>
    have hask : guarded.engine.ask (.run task) token (mid.hasFired token) mid.now =
        guarded.engine.run task token (mid.hasFired token) := by rw [Engine.ask, hkind]
    dsimp only at hstage hengines ⊢
    rw [hask] at hstage ⊢
    obtain ⟨-, hprogress⟩ := stageOf_eq_pooled hstage
    obtain ⟨s, item, hs, hitem, rfl, hrun⟩ := Engine.run_of_pooled hprogress
    have hmid : (mid.note (.asked r (.run task) (mid.hasFired token))).engine? r =
        some guarded.engine := by
      rw [engine?, note, hengines, hg, Option.map_some]
    refine ⟨s, item, (guarded.engine.run task token (mid.hasFired token)).2, hs, hitem, ?_, ?_⟩
    · rw [engine?_setEngine, if_pos rfl, hmid, Option.map_some]
    · rw [hrun]
      exact List.mem_cons_self

/-- The child of a call that was asked to execute code is given its arguments, and the variables
that the settings ask for with which the engine runs. -/
theorem Used.work_of_execute {language : Language} {code : String} {args : List Json}
    {token : Token} (hu : h.Used)
    (hk : (h.ask (.engine r (.run (.execute code args))) token).call? h.asked = some k)
    (hmade : MakesNew es)
    (hr : (h.ask (.engine r (.run (.execute code args))) token).run es = some g)
    (hwork : g.AtWork k r t language) :
    ∃ e₀ s e, h.engine? r = some e₀ ∧ e₀.lifecycle.started? = some s ∧ g.engine? r = some e ∧
      e.work? t = some ⟨t, token, .process (.of language s.settings code args)⟩ := by
  obtain ⟨-, hstage, e, -, -, he, hkind, -⟩ := hwork
  let later : Host := { h with asked := h.asked + 1 }
  let turn := later.askEngine r (.run (.execute code args)) token []
  let call : Call := ⟨h.asked, token, turn.frames, turn.stage, turn.host.now⟩
  have hnew : (h.ask (.engine r (.run (.execute code args))) token).call? h.asked = some call :=
    List.find?_cons_of_pos (decide_eq_true rfl)
  obtain rfl : call = k := Option.some.inj (hnew.symm.trans hk)
  have hused := hu.ask (.engine r (.run (.execute code args))) token
  cases he₀ : later.engine? r with
  | none =>
    have hnone : later.engines[r]? = none := Option.map_eq_none_iff.mp he₀
    have hover : turn.stage = .over (.ok .null) := by simp only [turn, askEngine, hnone]
    cases hover.symm.trans hstage
  | some e₀ =>
    have hfrom : h.run (.ask (.engine r (.run (.execute code args))) token :: es) = some g :=
      plays.cons_eq_some.mpr ⟨_, rfl, hr⟩
    obtain ⟨e', he', hremains⟩ := remains_run (h := h) he₀ hfrom
    obtain rfl := Option.some.inj (he.symm.trans he')
    have hkind₀ : e₀.kind = .interpreter language := hremains.kind_eq.symm.trans hkind
    obtain ⟨s, item, e₁, hs, hitem, he₁, hmem⟩ := work_of_askEngine he₀ hkind₀ hstage
    have hitem' : item = .process (.of language s.settings code args) := by
      rw [Engine.itemOf, hkind₀] at hitem
      exact (Except.ok.inj hitem).symm
    have hfound := (hused.furnished he₁).work?_of_mem hmem
    obtain ⟨e'', he'', -, hw⟩ := work?_run hused hmade he₁ hfound hr
    obtain rfl := Option.some.inj (he.symm.trans he'')
    exact ⟨e₀, s, e, he₀, hs, he, hitem' ▸ hw⟩

/-- Values cross the boundary of a process unchanged.  A child that exits with success after it has
printed a value, whatever blanks stand around it, ends the operation of its call with this value,
which the call returns; it only has to be there still, and not to be cancelled.  If writing the
program of the child, reading what it prints or waiting for it fails, the call returns that failure
instead, whatever the child leaves behind.  This holds of every value without doubles that is nested
no deeper than the reader goes, and of the arguments with which an interpreter was asked to execute
code, if they are nested one level less: its child finds them in its environment, whatever value the
settings ask for in their place.  If no variable has a name that begins like theirs together with a
value, the child finds nothing else there, and if it prints what it finds, the call returns the
array of the arguments. -/
theorem value_unchanged (hu : h.Used) :
    (∀ k r t language v before after err, h.AtWork k r t language → v.Exact →
      v.depth ≤ Json.maxDepth → (∀ c ∈ before, Text.isBlank c = true) →
      (∀ c ∈ after, Text.isBlank c = true) →
      ∃ h', h.step (.workEnds r t (.child (.ended (.printed (before ++ v.write ++ after) err)))) =
        some h' ∧ h'.Delivers k r t (.ok v)) ∧
    (∀ k r t language reason output?, h.AtWork k r t language →
      ∃ h', h.step (.workEnds r t (.child (.broken reason output?))) = some h' ∧
        h'.Delivers k r t (.error (.io reason))) ∧
    ∀ r language code args token k t,
      (h.ask (.engine r (.run (.execute code args))) token).call? h.asked = some k →
      (∀ v ∈ args, v.Exact) → (∀ v ∈ args, v.depth < Json.maxDepth) →
      ∀ es g, MakesNew es → (h.ask (.engine r (.run (.execute code args))) token).run es = some g →
      g.AtWork k r t language →
      ∃ e₀ s e spawn, h.engine? r = some e₀ ∧ e₀.lifecycle.started? = some s ∧
        spawn = .of language s.settings code args ∧
        g.engine? r = some e ∧ e.work? t = some ⟨t, token, .process spawn⟩ ∧
        (∃ text, spawn.Finds argsVariable text) ∧
        (spawn.Clear → ∀ text before after err, spawn.Finds argsVariable text →
          (∀ c ∈ before, Text.isBlank c = true) → (∀ c ∈ after, Text.isBlank c = true) →
          ∃ g', g.step (.workEnds r t (.child (.ended
            (.printed (before ++ text.toList ++ after) err)))) = some g' ∧
            g'.Delivers k r t (.ok (.arr args))) := by
  refine ⟨fun k r t language v before after err hwork hv hdepth hbefore hafter =>
    hu.delivers_printed hwork hv hdepth hbefore hafter err,
    fun k r t language reason output? hwork => ?_, ?_⟩
  · obtain ⟨h', hs, hdelivers, -⟩ :=
      hu.delivers_report hwork (.broken reason output?) fun _ _ => rfl
    exact ⟨h', hs, hdelivers⟩
  intro r language code args token k t hk hexact hdepth es g hmade hr hwork
  obtain ⟨e₀, s, e, he₀, hs, he, hw⟩ := hu.work_of_execute hk hmade hr hwork
  have hused := hu.ask (.engine r (.run (.execute code args))) token
  obtain ⟨hvalue, hnested⟩ := exact_args hexact hdepth
  refine ⟨e₀, s, e, _, he₀, hs, rfl, he, hw, ⟨_, Spawn.finds_args language s.settings code args⟩,
    fun hclear text before after err hfinds hbefore hafter => ?_⟩
  rw [Spawn.eq_of_finds language s.settings code args hclear hfinds, Json.render,
    String.toList_ofList]
  exact (hused.run hmade hr).delivers_printed hwork hvalue hnested hbefore hafter err

/-- An interpreter whose settings ask for some variables has a child that works for a call with some
arguments. -/
theorem exists_atWork (members : List (String × Json)) (args : List Json) :
    ∃ (h g : Host) (k : Call) (e : Engine) (s : RuntimeSettings) (p : Pool), h.Used ∧ g.Used ∧
      (h.ask (.engine 0 (.run (.execute "code" args))) (.root 3)).call? h.asked = some k ∧
      (h.ask (.engine 0 (.run (.execute "code" args))) (.root 3)).run [.pool 0 (.take 0)] =
        some g ∧
      g.AtWork k 0 0 .python ∧ g.engine? 0 = some e ∧
      e.work? 0 = some ⟨0, .root 3, .process (.of .python s "code" args)⟩ ∧
      s.options.get? "env" = some (.obj members) ∧
      g.pool? 0 = some p ∧ p.closed = false ∧ p.hasFired 0 = false := by
  let settings : RuntimeSettings :=
    { RuntimeSettings.new "python" "3" with maxConcurrency := 1 }.withOption "env" (.obj members)
  let before : List HostEvent := [.make (.interpreter .python) none,
    .ask (.engine 0 (.start settings)) (.root 2), .prepared 0 (.ok ⟨"3", ""⟩)]
  have hbefore : MakesNew before := by
    intro e guard? he
    have heq : e = .interpreter .python ∧ guard? = none := by simpa [before] using he
    rw [heq.1]
    exact ⟨rfl, rfl⟩
  obtain ⟨h₀, h, g, k, e, p, j, hnew, hrun, hk, htake, hcall, hstage, he, hkind, hpool, hj, hop,
      hwork, hopen, hnot⟩ :
      ∃ h₀ h g k e p j, Host.new default = .ok h₀ ∧ h₀.run before = some h ∧
        (h.ask (.engine 0 (.run (.execute "code" args))) (.root 3)).call? h.asked = some k ∧
        (h.ask (.engine 0 (.run (.execute "code" args))) (.root 3)).run [.pool 0 (.take 0)] =
          some g ∧
        g.call? k.id = some k ∧ k.stage = .pooled 0 0 ∧ g.engine? 0 = some e ∧
        e.kind = .interpreter .python ∧ e.pool? = some p ∧ p.job? 0 = some j ∧
        j.phase.operating = true ∧
        e.work? 0 = some ⟨0, .root 3, .process (.of .python settings "code" args)⟩ ∧
        p.closed = false ∧ p.hasFired 0 = false :=
    ⟨_, _, _, _, _, _, _, rfl, rfl, rfl, rfl, rfl, rfl, rfl, rfl, rfl, rfl, rfl, rfl, rfl, rfl⟩
  have hused : h.Used := ⟨default, h₀, before, hnew, hbefore, hrun⟩
  have hafter : MakesNew [.pool 0 (.take 0)] := by simp [MakesNew]
  exact ⟨h, g, k, e, settings, p, hused, (hused.ask _ _).run hafter htake, hk, htake,
    ⟨hcall, hstage, e, p, j, he, hkind, hpool, hj, hop⟩, he, hwork, rfl,
    by rw [pool?, he, Option.bind_some, hpool], hopen, hnot⟩

/-- A child that was given the arguments of a call prints them, in spite of a setting for the same
variable; or it prints an empty text, with blanks around it; or what it prints cannot be read. -/
theorem value_unchanged_of_chosen_variable :
    ∃ (h g : Host) (k : Call) (e : Engine) (spawn : Spawn) (g₁ g₂ g₃ : Host), h.Used ∧ g.Used ∧
      g.AtWork k 0 0 .python ∧ g.engine? 0 = some e ∧
      e.work? 0 = some ⟨0, .root 3, .process spawn⟩ ∧ spawn.Clear ∧
      spawn.Finds argsVariable "[\" \",-1]" ∧
      g.step (.workEnds 0 0 (.child (.ended (.printed "[\" \",-1]\n".toList [])))) = some g₁ ∧
      g₁.Delivers k 0 0 (.ok (.arr [.str " ", .int (-1)])) ∧
      g.step (.workEnds 0 0 (.child (.ended (.printed " \"\"\n".toList [])))) = some g₂ ∧
      g₂.Delivers k 0 0 (.ok (.str "")) ∧
      g.step (.workEnds 0 0 (.child (.broken "Broken pipe (os error 32)" none))) = some g₃ ∧
      g₃.Delivers k 0 0 (.error (.io "Broken pipe (os error 32)")) := by
  let args : List Json := [.str " ", .int (-1)]
  obtain ⟨h, g, k, e, s, p, hused, hg, hk, htake, hat, he, hwork, henv, -⟩ :=
    exists_atWork [(argsVariable, .str "[]")] args
  let spawn : Spawn := .of .python s "code" args
  have hexact : ∀ v ∈ args, v.Exact := by
    simpa [args] using ⟨Json.Exact.str " ", Json.Exact.int (by decide) (by decide)⟩
  have hvariables : spawn.environment.keys = [argsVariable] := by
    simp only [spawn, Spawn.of, Spawn.chosenVariables, henv]
    decide +kernel
  have hclear : spawn.Clear := fun name hname => by
    rw [hvariables, List.mem_singleton] at hname
    rw [hname]
    decide
  have hfinds : spawn.Finds argsVariable "[\" \",-1]" := by
    have hrender : (Json.arr args).render = "[\" \",-1]" := by decide +kernel
    exact hrender ▸ Spawn.finds_args .python s "code" args
  obtain ⟨-, -, hargs⟩ := value_unchanged hused
  obtain ⟨hprinted, hbroken, -⟩ := value_unchanged hg
  obtain ⟨_, _, e', spawn', -, -, -, he', hwork', -, hprints⟩ := hargs 0 .python "code" args
    (.root 3) k 0 hk hexact (by decide) _ g (by simp [MakesNew]) htake hat
  obtain rfl := Option.some.inj (he.symm.trans he')
  obtain rfl : spawn = spawn' := by
    have hsame := Option.some.inj (hwork.symm.trans hwork')
    exact WorkItem.process.inj (Work.mk.inj hsame).2.2
  obtain ⟨g₁, hg₁, hdelivers₁⟩ := hprints hclear "[\" \",-1]" [] ['\n'] [] hfinds
    (List.forall_mem_nil _) (List.forall_mem_singleton.mpr rfl)
  obtain ⟨g₂, hg₂, hdelivers₂⟩ := hprinted k 0 0 .python (.str "") [' '] ['\n'] [] hat (.str "")
    (by decide) (List.forall_mem_singleton.mpr rfl) (List.forall_mem_singleton.mpr rfl)
  obtain ⟨g₃, hg₃, hdelivers₃⟩ := hbroken k 0 0 .python "Broken pipe (os error 32)" none hat
  exact ⟨h, g, k, e, spawn, g₁, g₂, g₃, hused, hg, hat, he, hwork, hclear, hfinds, hg₁, hdelivers₁,
    hg₂, hdelivers₂, hg₃, hdelivers₃⟩

/-- A child that exits with success after it has printed a value does not give this value to its
call if its program could not be written to the end.  And where the settings ask for a variable that
is named like the one of the arguments together with a value, a child that takes the last text it
finds does not print the arguments. -/
theorem value_lost :
    ∃ (g : Host) (k : Call) (e : Engine) (spawn : Spawn) (g₁ g₂ : Host), g.Used ∧
      g.AtWork k 0 0 .python ∧ g.engine? 0 = some e ∧
      e.work? 0 = some ⟨0, .root 3, .process spawn⟩ ∧
      g.step (.workEnds 0 0 (.child (.broken "Broken pipe (os error 32)"
        (some (.printed (Json.int 7).write []))))) = some g₁ ∧
      g₁.Returns k (.error (.io "Broken pipe (os error 32)")) ∧
      spawn.variableTexts = [argsVariable ++ "=" ++ "[1]", argsVariable ++ "=" ++ "x=y"] ∧
      g.step (.workEnds 0 0 (.child (.ended (.printed "x=y".toList [])))) = some g₂ ∧
      g₂.Returns k (.ok (.str "x=y")) := by
  obtain ⟨h, g, k, e, s, p, -, hg, -, -, hat, he, hwork, henv, hp, hopen, hnot⟩ :=
    exists_atWork [(argsVariable ++ "=x", .str "y")] [.int 1]
  have htexts : (Spawn.of .python s "code" [.int 1]).variableTexts =
      [argsVariable ++ "=" ++ "[1]", argsVariable ++ "=" ++ "x=y"] := by
    simp only [Spawn.of, Spawn.chosenVariables, Spawn.variableTexts, henv]
    decide +kernel
  obtain ⟨g₁, hg₁, -, hreturns₁⟩ := hg.delivers_report hat
    (.broken "Broken pipe (os error 32)" (some (.printed (Json.int 7).write []))) fun _ _ => rfl
  have hvalue : ∀ runtime,
      (ChildOutput.printed "x=y".toList []).outcome runtime = .ok (.str "x=y") := by
    intro runtime
    have htext : trimmedText (Text.Utf8.encode "x=y".toList) = "x=y" := by decide +kernel
    have hnone : Json.read? "x=y".toList = none :=
      Option.isNone_iff_eq_none.mp (by decide +kernel)
    have hprinted : printedValue "x=y" = .str "x=y" := by
      rw [printedValue, hnone]
      rfl
    rw [← hprinted, ← htext]
    rfl
  obtain ⟨g₂, hg₂, -, hreturns₂⟩ := hg.delivers_report hat (.ended (.printed "x=y".toList []))
    fun spawn _ => congrArg some (hvalue spawn.language.name)
  exact ⟨g, k, e, _, g₁, g₂, hg, hat, he, hwork, hg₁, hreturns₁ p hp hopen hnot, htexts, hg₂,
    hreturns₂ p hp hopen hnot⟩

end Host

end LanguageHost
