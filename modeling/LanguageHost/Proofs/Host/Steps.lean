import LanguageHost.Proofs.Host.Handing

/-!
# What the events of a host do

`Host.Turns` lists what an event may do to a call, and `Host.Steps` what it may do to a host.  What
is to be kept by every event is proved by going through these two lists.
-/

namespace LanguageHost

/-- The call of which an event tells what has become of its stage. -/
def HostEvent.reported? : HostEvent → Option CallId
  | .acted c _ | .prepared c _ | .returned c | .finished c _ => some c
  | _ => none

namespace Host

variable {h h' mid : Host} {r : EngineId} {t : Turn} {c : CallId} {k : Call} {x : Handing}
variable {event : HostEvent} {token : Token}

/-! ### What an event does to a call -/

/-- Where an event gets a call. -/
inductive Turns (h : Host) (k : Call) : HostEvent → Turn → Prop where
  /-- An outcome goes through a frame. -/
  | pass {f : Frame} {rest : List Frame} {result : Outcome Json} (hstage : k.stage = .over result)
    (hframes : k.frames = f :: rest) : Turns h k (.resume k.id) (h.pass k.token f rest result)
  /-- A race is over, and everything inside of it is left. -/
  | cut {outer : List Frame} (hstage : k.stage.isOver = false)
    (hcut : cutRace h.hasFired k.frames = some outer) :
    Turns h k (.resume k.id) ⟨h.leave k.stage, outer, .over (.error .operationCancelled)⟩
  /-- A start takes too long, and everything inside of it is left. -/
  | timeOut {limit : Duration} {outer : List Frame} (hstage : k.stage.isOver = false)
    (hcut : cutStart h.now k.frames = some (limit, outer)) :
    Turns h k (.timeOut k.id) ⟨h.leave k.stage, outer, .over (.error (.initTimeout limit))⟩
  /-- A stage comes to its end. -/
  | ends {event : HostEvent} {mid : Host} {result : Outcome Json}
    (hevent : event = .resume k.id ∧ cutRace h.hasFired k.frames = none ∨ event.reported? = some k.id)
    (hstage : k.stage.isOver = false) (hquiet : h.Quiet mid) :
    Turns h k event ⟨mid, k.frames, .over result⟩
  /-- An application function has come back from its call, and its work begins. -/
  | begins {f : FunctionId} {token : Token} {args : List Json}
    (hstage : k.stage = .called f token args) (hfired : h.hasFired k.token = false) :
    Turns h k (.returned k.id) ⟨h, .race k.token :: k.frames, .inside f token args⟩

theorem quiet_leave (h : Host) (stage : Stage) : h.Quiet (h.leave stage) := by
  unfold leave
  split
  · split <;> exact ⟨rfl, rfl, rfl⟩
  · exact ⟨rfl, rfl, rfl⟩

theorem turns_resume (ht : h.resume k = some t) : h.Turns k (.resume k.id) t := by
  unfold resume at ht
  split at ht
  · next result hstage =>
    split at ht
    · cases ht
    · next f rest hframes =>
      cases ht
      exact .pass hstage hframes
  · next hnot =>
    have hstage : k.stage.isOver = false := Stage.isOver_of_ne hnot
    split at ht
    · next outer hcut =>
      cases ht
      exact .cut hstage hcut
    · next hcut =>
      unfold goOn at ht
      split at ht
      · simp only [Option.bind_eq_bind, Option.bind_eq_some_iff, Option.pure_def,
          Option.some.injEq] at ht
        obtain ⟨⟨result, mid⟩, hlearn, rfl⟩ := ht
        simp only [learn, Option.bind_eq_bind, Option.bind_eq_some_iff, Option.pure_def,
          Option.some.injEq, Prod.mk.injEq] at hlearn
        obtain ⟨e, -, pool, -, answer, -, -, rfl⟩ := hlearn
        exact .ends (.inl ⟨rfl, hcut⟩) hstage ⟨rfl, rfl, rfl⟩
      · split at ht
        · obtain ⟨e, -, rfl⟩ := Option.map_eq_some_iff.mp ht
          exact .ends (.inl ⟨rfl, hcut⟩) hstage ⟨rfl, rfl, rfl⟩
        · cases ht
      · cases ht

theorem turns_timeOut (ht : h.timeOut k = some t) : h.Turns k (.timeOut k.id) t := by
  unfold timeOut at ht
  split at ht
  · cases ht
  · next hnot =>
    have hstage : k.stage.isOver = false := Stage.isOver_of_ne hnot
    obtain ⟨⟨limit, outer⟩, hcut, rfl⟩ := Option.map_eq_some_iff.mp ht
    exact .timeOut hstage hcut

theorem turns_acted {result : Outcome Json} (ht : h.acted k result = some t) :
    h.Turns k (.acted k.id result) t := by
  unfold acted at ht
  split at ht
  · next r op hstage =>
    cases ht
    exact .ends (.inr rfl) (by rw [hstage]; rfl) ⟨rfl, rfl, rfl⟩
  · cases ht

theorem turns_prepared {report : Outcome StartReport} (ht : h.prepared k report = some t) :
    h.Turns k (.prepared k.id report) t := by
  unfold prepared at ht
  split at ht
  · next r settings hstage =>
    obtain ⟨e, -, rfl⟩ := Option.map_eq_some_iff.mp ht
    exact .ends (.inr rfl) (by rw [hstage]; rfl) ⟨rfl, rfl, rfl⟩
  · cases ht

theorem turns_returned (ht : h.returned k = some t) : h.Turns k (.returned k.id) t := by
  obtain ⟨f, token, args, hstage, rfl⟩ := of_returned ht
  cases hfired : h.hasFired k.token with
  | true => exact .ends (.inr rfl) (by rw [hstage]; rfl) ⟨rfl, rfl, rfl⟩
  | false => exact .begins hstage hfired

theorem turns_finished {result : Outcome Json} (ht : h.finished k result = some t) :
    h.Turns k (.finished k.id result) t := by
  obtain ⟨⟨f, token, args, hstage⟩, rfl⟩ := of_finished ht
  exact .ends (.inr rfl) (by rw [hstage]; rfl) ⟨rfl, rfl, rfl⟩

/-- What an event does to a host. -/
inductive Steps (h : Host) : HostEvent → Host → Prop where
  /-- A request comes. -/
  | ask (request : Request) (token : Token) : Steps h (.ask request token) (h.ask request token)
  /-- A call gets somewhere. -/
  | turn {event : HostEvent} {k : Call} {t : Turn} {drops : Bool} (hk : h.call? k.id = some k)
    (ht : h.Turns k event t) (hmoves : h.Moves k.stage t drops) : Steps h event (settle t k)
  /-- A caller goes away, or panics with the function that it has called. -/
  | drop {event : HostEvent} {k : Call} (hevent : event = .drop k.id ∨ event = .panicked k.id)
    (hk : h.call? k.id = some k) : Steps h event (h.drop k)
  /-- What has nothing to do with a call. -/
  | aside {event : HostEvent} {h' : Host} (hevent : event.isOfCall = false)
    (hcalls : h'.calls = h.calls) (hasked : h'.asked = h.asked) (htasks : h'.tasks = h.tasks)
    (hprofiler : (∀ enabled, event ≠ .profile enabled) → event ≠ .resetProfiler →
      h'.profiler = h.profiler) (hprofile : ∀ enabled, event = .profile enabled →
      h'.profiler = { h.profiler with enabled }) : Steps h event h'

/-- An event lets a call do something. -/
theorem steps_forCall {f : Call → Option Turn} (event : CallId → HostEvent)
    (drops : Call → Bool) (hf : ∀ k t, f k = some t → h.Turns k (event k.id) t)
    (hmoves : ∀ k t, f k = some t → h.Moves k.stage t (drops k)) (hs : h.forCall c f = some h') :
    h.Steps (event c) h' := by
  simp only [forCall, Option.bind_eq_bind, Option.bind_eq_some_iff, Option.pure_def,
    Option.some.injEq] at hs
  obtain ⟨k, hk, t, hturn, rfl⟩ := hs
  obtain ⟨-, rfl⟩ := mem_of_call? hk
  exact .turn hk (hf k t hturn) (hmoves k t hturn)

/-- What has nothing to do with a call or with the profiler. -/
theorem steps_of_eq (hevent : event.isOfCall = false) (hcalls : h'.calls = h.calls)
    (hasked : h'.asked = h.asked) (htasks : h'.tasks = h.tasks)
    (hprofiler : h'.profiler = h.profiler) (hnot : ∀ enabled, event ≠ .profile enabled) :
    h.Steps event h' :=
  .aside hevent hcalls hasked htasks (fun _ _ => hprofiler) fun enabled he =>
    absurd he (hnot enabled)

theorem steps_forEngine {f : Engine → Option Engine} (hevent : event.isOfCall = false)
    (hnot : ∀ enabled, event ≠ .profile enabled) (hs : h.forEngine r f = some h') :
    h.Steps event h' := by
  simp only [forEngine, Option.bind_eq_bind, Option.bind_eq_some_iff, Option.pure_def,
    Option.some.injEq] at hs
  obtain ⟨e, -, e', -, rfl⟩ := hs
  exact steps_of_eq hevent rfl rfl rfl rfl hnot

/-- An event does to a host what is listed. -/
theorem steps_of_step (hs : h.step event = some h') : h.Steps event h' := by
  cases event with
  | ask request token =>
    cases hs
    exact .ask request token
  | resume c => exact steps_forCall .resume _ (fun _ _ => turns_resume) (fun _ _ => moves_resume) hs
  | timeOut c =>
    exact steps_forCall .timeOut _ (fun _ _ => turns_timeOut) (fun _ _ => moves_timeOut) hs
  | drop c =>
    obtain ⟨k, hk, rfl⟩ := Option.map_eq_some_iff.mp hs
    obtain ⟨-, rfl⟩ := mem_of_call? hk
    exact .drop (.inl rfl) hk
  | acted c result =>
    exact steps_forCall (.acted · result) _ (fun _ _ => turns_acted) (fun _ _ => moves_acted) hs
  | prepared c report =>
    exact steps_forCall (.prepared · report) _ (fun _ _ => turns_prepared)
      (fun _ _ => moves_prepared) hs
  | returned c =>
    exact steps_forCall .returned _ (fun _ _ => turns_returned) (fun _ _ => moves_returned) hs
  | finished c result =>
    exact steps_forCall (.finished · result) _ (fun _ _ => turns_finished)
      (fun _ _ => moves_finished) hs
  | panicked c =>
    obtain ⟨k, f, token, args, hk, -, rfl⟩ := of_step_panicked hs
    obtain ⟨-, rfl⟩ := mem_of_call? hk
    exact .drop (.inr rfl) hk
  | pool r e =>
    simp only [step] at hs
    split at hs
    · exact steps_forEngine rfl (by simp) hs
    · cases hs
  | workEnds r ticket report => exact steps_forEngine rfl (by simp) hs
  | register r =>
    cases hs
    unfold register
    split
    · exact steps_of_eq rfl rfl rfl rfl rfl (by simp)
    · split <;> exact steps_of_eq rfl rfl rfl rfl rfl (by simp)
  | wait time =>
    simp only [step] at hs
    split at hs
    · cases hs
      exact steps_of_eq rfl rfl rfl rfl rfl (by simp)
    · cases hs
  | profile enabled =>
    cases hs
    refine .aside rfl rfl rfl rfl (fun hnot _ => absurd rfl (hnot enabled)) fun b hb => ?_
    cases hb
    rfl
  | resetProfiler =>
    cases hs
    exact .aside rfl rfl rfl rfl (fun _ hnot => absurd rfl hnot) (by simp)
  | _ =>
    cases hs
    exact steps_of_eq rfl rfl rfl rfl rfl (by simp)

/-! ### What an event hands on -/

/-- An event that hands nothing on asks no engine to do a task. -/
theorem tasks_step_of_not_handed (hs : h.step event = some h') (hx : h.handed? event = none) :
    h'.tasks = h.tasks := by
  cases steps_of_step hs with
  | ask request token =>
    let later : Host := { h with asked := h.asked + 1 }
    have hnone : later.requestHands? h.asked request token = none := hx
    have hturn := leads_begin later h.asked request token
    rw [hnone] at hturn
    exact hturn.quiet.tasks_eq
  | @turn _ k t _ hk ht =>
    have hturn : t.host.tasks = h.tasks := ?_
    · exact hturn
    cases ht with
    | @pass f rest result hstage hframes =>
      cases hf : f.isTracked with
      | true =>
        cases f with
        | tracked runtime function since => rfl
        | _ => cases hf
      | false => exact (leads_pass hf h _ rest result).quiet.tasks_eq
    | cut => exact (quiet_leave h _).tasks_eq
    | timeOut => exact (quiet_leave h _).tasks_eq
    | ends hevent hstage hquiet => exact hquiet.tasks_eq
    | begins => rfl
  | drop hevent hk => exact (quiet_leave h _).tasks_eq
  | aside hevent hcalls hasked htasks => exact htasks

/-- A call that gets somewhere leaves all others where they are. -/
theorem call?_settle_map (k : Call) (hcalls : t.host.calls = h.calls) (c : CallId) :
    (settle t k).call? c = (h.call? c).map fun j => if j.id = k.id then
      { k with frames := t.frames, stage := t.stage, since := t.host.now } else j := by
  let next (j : Call) : Call :=
    if j.id = k.id then { k with frames := t.frames, stage := t.stage, since := t.host.now } else j
  have hid (j : Call) : (next j).id = j.id := by
    by_cases hj : j.id = k.id
    · rw [show next j = _ from if_pos hj]
      exact hj.symm
    · rw [show next j = _ from if_neg hj]
  have hsame : (fun j : Call => decide (j.id = c)) ∘ next = fun j => decide (j.id = c) := by
    funext j
    rw [Function.comp_apply, hid]
  change (t.host.calls.map next).find? (fun j => decide (j.id = c)) = _
  rw [List.find?_map, hsame, hcalls]
  rfl

theorem call?_settle (hk : h.call? k.id = some k) (hcalls : t.host.calls = h.calls) :
    (settle t k).call? k.id =
      some { k with frames := t.frames, stage := t.stage, since := t.host.now } := by
  rw [call?_settle_map k hcalls, hk, Option.map_some, if_pos rfl]

theorem call?_settle_of_ne {c : CallId} (hne : c ≠ k.id) (hcalls : t.host.calls = h.calls) :
    (settle t k).call? c = h.call? c := by
  rw [call?_settle_map k hcalls]
  cases hc : h.call? c with
  | none => rfl
  | some j =>
    have hid : j.id = c := (mem_of_call? hc).2
    rw [Option.map_some, if_neg (hid ▸ hne)]

/-- An event that hands a task on asks the engine to do it, and the call is where this gets it. -/
theorem step_of_handed (hs : h.step event = some h') (hx : h.handed? event = some x) :
    ∃ mid token frames k, (∃ scopes asked, mid = { h with scopes, asked }) ∧
      h'.engines = (mid.askEngine x.engine (.run x.task) token frames).host.engines ∧
      h'.notes = (mid.askEngine x.engine (.run x.task) token frames).host.notes ∧
      h'.metrics = (mid.askEngine x.engine (.run x.task) token frames).host.metrics ∧
      h'.call? x.call = some k ∧
      k.stage = (mid.askEngine x.engine (.run x.task) token frames).stage := by
  cases steps_of_step hs with
  | ask request token =>
    let later : Host := { h with asked := h.asked + 1 }
    have hnow : later.requestHands? h.asked request token = some x := hx
    have hcall : x.call = h.asked := call_of_requestHands? hnow
    have hleads := leads_begin later h.asked request token
    rw [hnow] at hleads
    obtain ⟨mid, token', frames, ⟨scopes, rfl⟩, -, hturn⟩ := hleads.eq_askEngine
    let k : Call := ⟨h.asked, token, (later.begin request token).frames,
      (later.begin request token).stage, (later.begin request token).host.now⟩
    refine ⟨_, token', frames, k, ⟨scopes, h.asked + 1, rfl⟩, ?_, ?_, ?_, ?_, ?_⟩
    · exact congrArg (fun t : Turn => t.host.engines) hturn
    · exact congrArg (fun t : Turn => t.host.notes) hturn
    · exact congrArg (fun t : Turn => t.host.metrics) hturn
    · rw [hcall]
      exact List.find?_cons_of_pos (by simp)
    · exact congrArg Turn.stage hturn
  | turn hk ht =>
    cases ht with
    | ends hevent =>
      rcases hevent with ⟨rfl, -⟩ | hreport
      · cases hx
      · cases event <;> first | cases hx | cases hreport
    | _ => cases hx
  | drop hevent => rcases hevent with rfl | rfl <;> cases hx
  | aside hevent => cases event <;> first | cases hx | cases hevent

end Host

end LanguageHost
