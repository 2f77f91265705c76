import LanguageHost.Proofs.Host.Steps

/-!
# What enforcers let pass

An engine that is guarded is handed a task only if its enforcer lets it pass (`Host.permits`).  A
task that passes gets to the engine as it is, and the engine decides where its call is then; a task
that does not pass gets nowhere, and its call fails (`step_of_permitted`, `step_of_denied`).

What an enforcer lets pass is a matter of the policy that it was given last and of whether it was
last told to enforce it (`enforcer_of_run`).
-/

namespace LanguageHost

/-- Whether something is put on record about an operation that was not denied. -/
def PolicyEvent.isAudit : PolicyEvent → Bool
  | .audit .. => true
  | .denial .. => false

/-- Whether an enforcer lets an operation pass. -/
def Enforcer.lets (e : Enforcer) (op : Operation) : Bool := !e.active || e.policy.allow op

namespace Enforcer

variable {e : Enforcer} {op : Operation}

/-- What passes is audited at most. -/
theorem check_of_lets (h : e.lets op = true) :
    ∃ events, e.check op = (.ok (), events) ∧ ∀ event ∈ events, event.isAudit = true := by
  unfold check
  cases hactive : e.active with
  | false => exact ⟨[], rfl, nofun⟩
  | true =>
    have hallow : e.policy.allow op = true := by simpa [lets, hactive] using h
    refine ⟨e.policy.auditEvents op, by simp [hallow], fun event he => ?_⟩
    unfold Policy.auditEvents at he
    split at he
    · obtain rfl : event = .audit e.policy.name op := by simpa using he
      rfl
    · cases he

/-- What does not pass is denied. -/
theorem check_of_not_lets (h : e.lets op = false) :
    e.check op = (.error (.policyDenied op.render e.policy.name), [.denial e.policy.name op]) := by
  obtain ⟨hactive, hallow⟩ : e.active = true ∧ e.policy.allow op = false := by
    simpa [lets] using h
  simp [check, hactive, hallow]

end Enforcer

/-- What an engine does with a task, as enforcers see it. -/
def Guarded.operation (g : Guarded) (task : Task) : Operation :=
  ⟨.runtimeCall, task.function, g.engine.name⟩

namespace Host

variable {h h' : Host} {r : EngineId} {g : Guarded} {k : EnforcerId} {enforcer : Enforcer}
variable {x : Handing} {event : HostEvent} {es : List HostEvent} {task : Task} {token : Token}
variable {frames : List Frame}

/-- The enforcer of an engine, if it is guarded. -/
def enforcer? (h : Host) (g : Guarded) : Option Enforcer := g.guard?.bind fun k => h.enforcers[k]?

/-- Whether a task that is handed to an engine passes. -/
def permits (h : Host) (r : EngineId) (task : Task) : Bool :=
  (h.engines[r]?).all fun g => (h.enforcer? g).all fun e => e.lets (g.operation task)

theorem count_of_audits (m : Metrics) {events : List PolicyEvent}
    (h : ∀ event ∈ events, event.isAudit = true) : PolicyEvent.count m events = m := by
  have hnone : events.filterMap PolicyEvent.series? = [] := by
    refine List.filterMap_eq_nil_iff.mpr fun event he => ?_
    have haudit := h event he
    cases event with
    | audit => rfl
    | denial => cases haudit
  rw [PolicyEvent.count, hnone]
  rfl

/-- A task that passes is audited at most. -/
theorem check_of_permits (hg : h.engines[r]? = some g) (hp : h.permits r task = true) :
    ∃ events, h.check g task = (.ok (), h.record events) ∧
      ∀ event ∈ events, event.isAudit = true := by
  have hlets : (h.enforcer? g).all (fun e => e.lets (g.operation task)) = true := by
    simpa [permits, hg] using hp
  unfold check
  split
  · exact ⟨[], rfl, nofun⟩
  · next enforcer henforcer =>
    have hpass : enforcer.lets (g.operation task) = true := by
      simpa [enforcer?, henforcer] using hlets
    obtain ⟨events, hcheck, haudits⟩ := Enforcer.check_of_lets hpass
    unfold Guarded.operation at hcheck
    exact ⟨events, by rw [hcheck], haudits⟩

/-- A task that does not pass is denied by the enforcer of the engine. -/
theorem check_of_not_permits (hg : h.engines[r]? = some g) (hp : h.permits r task = false) :
    ∃ enforcer, h.enforcer? g = some enforcer ∧ enforcer.lets (g.operation task) = false ∧
      h.check g task =
        (.error (.policyDenied (g.operation task).render enforcer.policy.name),
          h.record [.denial enforcer.policy.name (g.operation task)]) := by
  cases henforcer : h.enforcer? g with
  | none => simp [permits, hg, henforcer] at hp
  | some enforcer =>
    have hnot : enforcer.lets (g.operation task) = false := by
      simpa [permits, hg, henforcer] using hp
    have hcheck := Enforcer.check_of_not_lets hnot
    unfold Guarded.operation at hcheck
    refine ⟨enforcer, rfl, hnot, ?_⟩
    unfold enforcer? at henforcer
    simp only [check, henforcer, hcheck]
    rfl

/-! ### What becomes of a task that is handed on -/

/-- An engine is asked to do a task that was let pass. -/
theorem askEngine_of_ok {mid : Host} (hg : h.engines[r]? = some g)
    (hcheck : h.check g task = (.ok (), mid)) :
    h.askEngine r (.run task) token frames =
      ⟨(mid.note (.asked r (.run task) (mid.hasFired token))).setEngine r
        (g.engine.ask (.run task) token (mid.hasFired token) mid.now).2, frames,
        stageOf r (.run task) (g.engine.ask (.run task) token (mid.hasFired token) mid.now).1⟩ := by
  simp only [askEngine, hg, letPass, hcheck]

/-- An engine is not asked to do a task that was denied. -/
theorem askEngine_of_error {mid : Host} {err : HostError} (hg : h.engines[r]? = some g)
    (hcheck : h.check g task = (.error err, mid)) :
    h.askEngine r (.run task) token frames = ⟨mid, frames, .over (.error err)⟩ := by
  simp only [askEngine, hg, letPass, hcheck]

/-- A task that passes gets to the engine as it is, and to no other, and the engine decides where
its call is then. -/
theorem step_of_permitted (hs : h.step event = some h') (hx : h.handed? event = some x)
    (hg : h.engines[x.engine]? = some g) (hp : h.permits x.engine x.task = true) :
    h'.tasks = (x.engine, x.task) :: h.tasks ∧ h'.metrics = h.metrics ∧
      ∃ token call,
        h'.engines = h.engines.modify x.engine (fun g' =>
          { g' with engine := (g.engine.ask (.run x.task) token (h.hasFired token) h.now).2 }) ∧
        h'.call? x.call = some call ∧
        call.stage = stageOf x.engine (.run x.task)
          (g.engine.ask (.run x.task) token (h.hasFired token) h.now).1 := by
  obtain ⟨mid, token, frames, call, ⟨scopes, asked, rfl⟩, hengines, hnotes, hmetrics, hcall,
    hstage⟩ := step_of_handed hs hx
  let later : Host := { h with scopes, asked }
  have hpermits : later.permits x.engine x.task = true := hp
  obtain ⟨events, hcheck, haudits⟩ := check_of_permits (h := later) hg hpermits
  rw [askEngine_of_ok (h := later) hg hcheck] at hengines hnotes hmetrics hstage
  refine ⟨?_, ?_, token, call, hengines, hcall, hstage⟩
  · have htasks : (later.record events).tasks = h.tasks := (quiet_record later events).tasks_eq
    rw [← htasks, tasks, hnotes]
    exact List.filterMap_cons_some rfl
  · rw [hmetrics]
    exact count_of_audits h.metrics haudits

/-- A task that does not pass gets to no engine: the engines are left as they are, one more denial
is counted, and the call has failed. -/
theorem step_of_denied (hs : h.step event = some h') (hx : h.handed? event = some x)
    (hg : h.engines[x.engine]? = some g) (hp : h.permits x.engine x.task = false) :
    h'.tasks = h.tasks ∧ h'.engines = h.engines ∧
      h'.metrics = h.metrics.add (.denials g.engine.name) 1 ∧
      ∃ enforcer call, h.enforcer? g = some enforcer ∧ h'.call? x.call = some call ∧
        call.stage = .over (.error (.policyDenied (g.operation x.task).render
          enforcer.policy.name)) := by
  obtain ⟨mid, token, frames, call, ⟨scopes, asked, rfl⟩, hengines, hnotes, hmetrics, hcall,
    hstage⟩ := step_of_handed hs hx
  let later : Host := { h with scopes, asked }
  have hpermits : later.permits x.engine x.task = false := hp
  obtain ⟨enforcer, henforcer, -, hcheck⟩ := check_of_not_permits (h := later) hg hpermits
  rw [askEngine_of_error (h := later) hg hcheck] at hengines hnotes hmetrics hstage
  refine ⟨?_, hengines, hmetrics, enforcer, call, henforcer, hcall, hstage⟩
  have htasks := (quiet_record later [.denial enforcer.policy.name (g.operation x.task)]).tasks_eq
  rw [tasks, hnotes]
  exact htasks

/-- The task that an event gets to an engine, where it passes. -/
def reaching? (h : Host) (event : HostEvent) : Option (EngineId × Task) :=
  (h.handed? event).bind fun x =>
    if (h.engines[x.engine]?).isSome && h.permits x.engine x.task then some (x.engine, x.task)
    else none

/-- An event asks engines to do the task that it hands on and that passes, and nothing else. -/
theorem tasks_step (hs : h.step event = some h') :
    h'.tasks = (h.reaching? event).toList ++ h.tasks := by
  unfold reaching?
  cases hx : h.handed? event with
  | none => exact tasks_step_of_not_handed hs hx
  | some x =>
    rw [Option.bind_some]
    cases hg : h.engines[x.engine]? with
    | none =>
      obtain ⟨mid, token, frames, call, ⟨scopes, asked, rfl⟩, -, hnotes, -⟩ := step_of_handed hs hx
      have hnothing : ({ h with scopes, asked } : Host).askEngine x.engine (.run x.task) token
          frames = ⟨{ h with scopes, asked }, frames, .over (.ok .null)⟩ := by
        simp only [askEngine, hg]
      rw [hnothing] at hnotes
      rw [tasks, hnotes]
      rfl
    | some g =>
      cases hp : h.permits x.engine x.task with
      | true => exact (step_of_permitted hs hx hg hp).1
      | false => exact (step_of_denied hs hx hg hp).1

/-- An event that hands nothing to an engine gets no task there. -/
theorem tasks_step_of_not_to (hs : h.step event = some h')
    (hnot : ∀ x, h.handed? event = some x → x.engine ≠ r) :
    (h'.tasks.filter fun asked => asked.1 = r) = h.tasks.filter fun asked => asked.1 = r := by
  rw [tasks_step hs, List.filter_append]
  unfold reaching?
  cases hx : h.handed? event with
  | none => rfl
  | some x =>
    rw [Option.bind_some]
    split
    · rw [Option.toList_some, List.filter_singleton, decide_eq_false (hnot x hx)]
      rfl
    · rfl

/-! ### What enforcers were told last -/

/-- What an event does to the enforcers. -/
def changedEnforcers (enforcers : List Enforcer) : HostEvent → List Enforcer
  | .makeEnforcer policy => enforcers ++ [.new policy]
  | .enforce k active => enforcers.modify k fun e => { e with active }
  | .update k policy => enforcers.modify k fun e => { e with policy }
  | _ => enforcers

theorem Turns.enforcers_eq {call : Call} {t : Turn} (ht : h.Turns call event t) :
    t.host.enforcers = changedEnforcers h.enforcers event := by
  cases ht with
  | @pass f rest result hstage hframes =>
    cases hf : f.isTracked with
    | true =>
      cases f with
      | tracked runtime function since => rfl
      | _ => cases hf
    | false => exact (leads_pass hf h call.token rest result).settings_eq.2
  | cut => exact (quiet_leave h _).enforcers_eq
  | timeOut => exact (quiet_leave h _).enforcers_eq
  | ends hevent hstage hquiet =>
    rcases hevent with ⟨rfl, -⟩ | hreport
    · exact hquiet.enforcers_eq
    · cases event <;> first | exact hquiet.enforcers_eq | cases hreport
  | begins => rfl

theorem enforcers_forEngine {f : Engine → Option Engine} (hs : h.forEngine r f = some h') :
    h'.enforcers = h.enforcers := by
  simp only [forEngine, Option.bind_eq_bind, Option.bind_eq_some_iff, Option.pure_def,
    Option.some.injEq] at hs
  obtain ⟨e, -, e', -, rfl⟩ := hs
  rfl

/-- Enforcers change by what they are told, and by nothing else. -/
theorem enforcers_step (hs : h.step event = some h') :
    h'.enforcers = changedEnforcers h.enforcers event := by
  cases steps_of_step hs with
  | ask request token =>
    exact (leads_begin { h with asked := h.asked + 1 } h.asked request token).settings_eq.2
  | turn hk ht => exact ht.enforcers_eq
  | @drop _ call hevent hk =>
    rcases hevent with rfl | rfl <;> exact (quiet_leave h call.stage).enforcers_eq
  | aside hevent =>
    cases event with
    | pool r e =>
      simp only [step] at hs
      split at hs
      · exact enforcers_forEngine hs
      · cases hs
    | workEnds r t report => exact enforcers_forEngine hs
    | register r =>
      cases hs
      unfold register
      split
      · rfl
      · split <;> rfl
    | wait time =>
      simp only [step] at hs
      split at hs
      · cases hs
        rfl
      · cases hs
    | _ => first | (cases hs; rfl) | cases hevent

/-- The policy that an event gives to an enforcer. -/
def given? (k : EnforcerId) (h : Host) : HostEvent → Option Policy
  | .makeEnforcer policy => if h.enforcers.length = k then some policy else none
  | .update g policy => if g = k ∧ k < h.enforcers.length then some policy else none
  | _ => none

/-- Whether an event tells an enforcer to enforce its policy or not to; one that is made does. -/
def told? (k : EnforcerId) (h : Host) : HostEvent → Option Bool
  | .makeEnforcer _ => if h.enforcers.length = k then some true else none
  | .enforce g active => if g = k ∧ k < h.enforcers.length then some active else none
  | _ => none

/-- After an event an enforcer is as it was told then, or else as it was before. -/
theorem told_step (hs : h.step event = some h') (k : EnforcerId) :
    (h'.enforcers[k]?).map Enforcer.policy =
        (given? k h event).or ((h.enforcers[k]?).map Enforcer.policy) ∧
      (h'.enforcers[k]?).map Enforcer.active =
        (told? k h event).or ((h.enforcers[k]?).map Enforcer.active) := by
  rw [enforcers_step hs]
  cases event with
  | makeEnforcer policy =>
    simp only [changedEnforcers, given?, told?]
    rcases Nat.lt_trichotomy k h.enforcers.length with hlt | rfl | hgt
    · rw [List.getElem?_append_left hlt, if_neg (Nat.ne_of_gt hlt), if_neg (Nat.ne_of_gt hlt)]
      exact ⟨rfl, rfl⟩
    · rw [List.getElem?_concat_length, if_pos rfl, if_pos rfl]
      exact ⟨rfl, rfl⟩
    · have hlength : (h.enforcers ++ [Enforcer.new policy]).length ≤ k := by
        simp only [List.length_append, List.length_singleton]
        exact hgt
      rw [List.getElem?_eq_none hlength, List.getElem?_eq_none (Nat.le_of_lt hgt),
        if_neg (Nat.ne_of_lt hgt), if_neg (Nat.ne_of_lt hgt)]
      exact ⟨rfl, rfl⟩
  | enforce g active =>
    simp only [changedEnforcers, given?, told?, List.getElem?_modify, Option.map_eq_map]
    by_cases hg : g = k
    · subst hg
      by_cases hlt : g < h.enforcers.length
      · simp [hlt]
      · simp [hlt]
    · simp [hg]
  | update g policy =>
    simp only [changedEnforcers, given?, told?, List.getElem?_modify, Option.map_eq_map]
    by_cases hg : g = k
    · subst hg
      by_cases hlt : g < h.enforcers.length
      · simp [hlt]
      · simp [hlt]
    · simp [hg]
  | _ => exact ⟨rfl, rfl⟩

theorem getLast?_append_toList {α : Type} (l : List α) (a? : Option α) :
    (l ++ a?.toList).getLast? = a?.or l.getLast? := by
  cases a? with
  | none => simp
  | some a => simp

/-- An enforcer has the policy that it was given last, and enforces it if it was told so last. -/
theorem enforcer_of_run {h₀ : Host} (hnone : h₀.enforcers = []) (hr : h₀.run es = some h)
    (k : EnforcerId) :
    (h.enforcers[k]?).map Enforcer.policy = (logged step (given? k) h₀ es).getLast? ∧
      (h.enforcers[k]?).map Enforcer.active = (logged step (told? k) h₀ es).getLast? := by
  refine plays.history (motive := fun es h =>
    (h.enforcers[k]?).map Enforcer.policy = (logged step (given? k) h₀ es).getLast? ∧
      (h.enforcers[k]?).map Enforcer.active = (logged step (told? k) h₀ es).getLast?) ?_ ?_ hr
  · rw [hnone]
    exact ⟨rfl, rfl⟩
  · intro es mid event next hrun ih hs
    obtain ⟨hpolicy, hactive⟩ := told_step hs k
    rw [plays.logged_concat hrun, plays.logged_concat hrun, getLast?_append_toList,
      getLast?_append_toList, ← ih.1, ← ih.2]
    exact ⟨hpolicy, hactive⟩

/-- The enforcer that was given a policy and was told to enforce it or not. -/
theorem enforcer_of_new {config : HostConfig} {h₀ : Host} {policy : Policy} {active : Bool}
    (hnew : Host.new config = .ok h₀) (hr : h₀.run es = some h)
    (hpolicy : (logged step (given? k) h₀ es).getLast? = some policy)
    (hactive : (logged step (told? k) h₀ es).getLast? = some active) :
    h.enforcers[k]? = some ⟨policy, active⟩ := by
  have hnone : h₀.enforcers = [] := by rw [eq_of_new hnew]
  obtain ⟨hgiven, htold⟩ := enforcer_of_run hnone hr k
  rw [hpolicy] at hgiven
  rw [hactive] at htold
  obtain ⟨enforcer, hk, rfl⟩ := Option.map_eq_some_iff.mp hgiven
  rw [hk] at htold ⊢
  obtain rfl := Option.some.inj htold
  rfl

end Host

end LanguageHost
