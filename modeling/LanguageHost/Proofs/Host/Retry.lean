import LanguageHost.Proofs.Host.Tracked

/-!
# Starting again after a failed start

The claim on an engine is taken while a call prepares it, after it was started, and after a start
was dropped.  A start that fails or whose token fires gives the claim back, and the next one may
begin.  A start that runs out of time is dropped, and the claim stays taken for good.
-/

namespace LanguageHost

namespace Engine

variable {e : Engine}

/-- The refusal of a start whose claim is taken. -/
def alreadyInitialized (e : Engine) : HostError :=
  .invalidState (e.name ++ " runtime already initialized")

/-- The start of an engine that was not stopped is refused for a claim that is taken, and for
nothing else. -/
theorem begin_refused_iff (settings : RuntimeSettings) (fired : Bool) (now : Nat)
    (hname : e.lifecycle.name = e.name) (hopen : e.lifecycle.stopped = false) :
    (e.begin settings fired now).1 = .done (.error e.alreadyInitialized) ↔
      e.lifecycle.claimed = true := by
  cases hclaimed : e.lifecycle.claimed with
  | true =>
    have hclaim : e.lifecycle.claim = (.error e.alreadyInitialized, e.lifecycle) := by
      rw [Lifecycle.claim, if_neg (by simp [hopen]), if_pos hclaimed, hname]
      rfl
    simp only [begin, hclaim]
  | false =>
    have hclaim : e.lifecycle.claim = (.ok (), { e.lifecycle with claimed := true }) := by
      rw [Lifecycle.claim, if_neg (by simp [hopen]), if_neg (by simp [hclaimed])]
    unfold begin
    rw [hclaim]
    simp only
    split
    · split
      · simp [alreadyInitialized]
      · simp
    · simp

/-- A native engine whose token has fired is not started and is left as it was. -/
theorem begin_native_of_fired {version : String} {table : NativeTable}
    (settings : RuntimeSettings) (now : Nat) (hkind : e.kind = .native version table)
    (hopen : e.lifecycle.stopped = false) (hfree : e.lifecycle.claimed = false) :
    e.begin settings true now = (.done (.error .operationCancelled), e) := by
  obtain ⟨name, kind, ⟨name', claimed, stopped, started?⟩, works⟩ := e
  simp only at hkind hopen hfree
  subst hkind hopen hfree
  rfl

end Engine

/-- The outcome of a stage that is over. -/
def Stage.outcome? : Stage → Option (Outcome Json)
  | .over result => some result
  | _ => none

/-- A call that prepares an engine is at the stage of preparing it. -/
theorem Stage.eq_preparing_of_prepares {stage : Stage} {r : EngineId}
    (h : stage.prepares r = true) : ∃ settings, stage = .preparing r settings := by
  cases stage with
  | preparing s settings =>
    obtain rfl : s = r := beq_iff_eq.mp h
    exact ⟨settings, rfl⟩
  | _ => cases h

namespace Host

variable {h h' : Host} {r : EngineId} {e e' : Engine} {lost : EngineId → Bool}
variable {c : CallId} {call : Call} {event : HostEvent} {es : List HostEvent}

/-! ### The claim on an engine -/

/-- The claim is taken while a call prepares the engine, after it was started, and after a start was
dropped. -/
theorem Tracked.claims (ht : h.Tracked lost) (he : h.engine? r = some e) :
    e.lifecycle.Claims (decide (0 < h.preparing r)) (lost r) := by
  obtain ⟨starting, hreached, hprepares⟩ := ht.engines r e he
  have hclaims := hreached.sound.claims
  cases starting <;> simpa [hprepares] using hclaims

theorem Tracked.name_eq (ht : h.Tracked lost) (he : h.engine? r = some e) :
    e.lifecycle.name = e.name := by
  obtain ⟨starting, hreached, -⟩ := ht.engines r e he
  exact hreached.name_eq

theorem Tracked.call?_of_mem (ht : h.Tracked lost) (hc : call ∈ h.calls) :
    h.call? call.id = some call := by
  obtain ⟨k, hk⟩ : ∃ k, h.call? call.id = some k := by
    refine Option.isSome_iff_exists.mp ?_
    rw [call?, List.find?_isSome]
    exact ⟨call, hc, decide_eq_true rfl⟩
  obtain ⟨hmem, hid⟩ := mem_of_call? hk
  rw [hk, List.inj_on_of_nodup_map ht.ids_nodup hmem hc hid]

/-- A request to start an engine is answered at once with a refusal if the claim is taken, and not
otherwise. -/
theorem answer?_ask_start_iff {settings : RuntimeSettings} {token : Token}
    (he : h.engine? r = some e) (hname : e.lifecycle.name = e.name)
    (hopen : e.lifecycle.stopped = false) (hkind : ∀ version, e.kind ≠ .foreign version) :
    (h.ask (.engine r (.start settings)) token).answer? h.asked =
        some (.error e.alreadyInitialized) ↔
      e.lifecycle.claimed = true := by
  obtain ⟨g, hg, rfl⟩ := Option.map_eq_some_iff.mp he
  let fired := h.hasFired token
  have hask : g.engine.ask (.start settings) token fired h.now =
      g.engine.begin settings fired h.now := by
    unfold Engine.ask
    split
    · next version hforeign => exact absurd hforeign (hkind version)
    · rfl
  have hturn : ({ h with asked := h.asked + 1 } : Host).begin (.engine r (.start settings)) token =
      ⟨(({ h with asked := h.asked + 1 } : Host).note (.asked r (.start settings) fired)).setEngine
        r (g.engine.begin settings fired h.now).2, [],
        stageOf r (.start settings) (g.engine.begin settings fired h.now).1⟩ := by
    rw [← hask]
    simp only [begin, askEngine, hg]
    rfl
  rw [← Engine.begin_refused_iff settings fired h.now hname hopen]
  have hanswer : (h.ask (.engine r (.start settings)) token).answer? h.asked =
      (stageOf r (.start settings) (g.engine.begin settings fired h.now).1).outcome? := by
    simp only [ask, hturn, answer?, call?, List.find?_cons, decide_true]
    cases (g.engine.begin settings fired h.now).1 <;> rfl
  rw [hanswer]
  cases (g.engine.begin settings fired h.now).1 <;> simp [stageOf, Stage.outcome?]

/-- Where a call prepares an engine, a turn that changes the engine can be taken. -/
theorem engine?_of_forCall {f : Call → Option Turn} {frames : List Frame} {result : Outcome Json}
    (he : h.engine? r = some e) (hc : h.call? c = some call)
    (hf : f call = some ⟨h.setEngine r e', frames, .over result⟩) :
    ∃ h', h.forCall c f = some h' ∧ h'.engine? r = some e' := by
  refine ⟨settle ⟨h.setEngine r e', frames, .over result⟩ call, ?_, ?_⟩
  · simp only [forCall, hc, Option.bind_eq_bind, Option.bind_some, hf, Option.pure_def]
  · change (h.setEngine r e').engine? r = some e'
    rw [engine?_setEngine, if_pos rfl, he, Option.map_some]

/-- A start that fails gives the claim back. -/
theorem Tracked.step_prepared_error (ht : h.Tracked lost) (he : h.engine? r = some e)
    (hc : call ∈ h.calls) (hp : call.stage.prepares r = true) (err : HostError) :
    ∃ h', h.step (.prepared call.id (.error err)) = some h' ∧
      h'.engine? r = some e.abandonStart := by
  obtain ⟨settings, hstage⟩ := Stage.eq_preparing_of_prepares hp
  have hturn : h.prepared call (.error err) =
      some ⟨h.setEngine r e.abandonStart, call.frames, .over (.error err)⟩ := by
    simp only [prepared, hstage, he, Option.map_some, Engine.prepared]
  exact engine?_of_forCall he (ht.call?_of_mem hc) hturn

/-- A start whose token has fired gives the claim back. -/
theorem Tracked.step_resume_of_fired (ht : h.Tracked lost) (he : h.engine? r = some e)
    (hc : call ∈ h.calls) (hp : call.stage.prepares r = true)
    (hfired : h.hasFired call.token = true) (hrace : cutRace h.hasFired call.frames = none) :
    ∃ h', h.step (.resume call.id) = some h' ∧ h'.engine? r = some e.abandonStart := by
  obtain ⟨settings, hstage⟩ := Stage.eq_preparing_of_prepares hp
  have hturn : h.resume call =
      some ⟨h.setEngine r e.abandonStart, call.frames, .over (.error .operationCancelled)⟩ := by
    simp only [resume, hstage, hrace, goOn, if_pos hfired, he, Option.map_some]
  exact engine?_of_forCall he (ht.call?_of_mem hc) hturn

/-- The start of an engine that is under way ends without a started state.  The claim is given back,
unless the start was dropped. -/
theorem Tracked.claimed_iff_of_ended (ht : h.Tracked lost) (hs : h.step event = some h')
    (hbefore : 0 < h.preparing r) (hafter : h'.preparing r = 0) (he' : h'.engine? r = some e')
    (hnone : e'.lifecycle.started? = none) :
    e'.lifecycle.claimed = true ↔ h.dropsStart r event = true := by
  have hmade : ∀ e guard?, event = .make e guard? → e.lifecycle = .new e.name := by
    rintro e guard? rfl
    -- Making an engine ends no start.
    cases hs
    exact absurd hafter (Nat.ne_of_gt hbefore)
  have hlost : lost r = false := by
    cases he : h.engine? r with
    | none =>
      obtain ⟨hzero, -⟩ := ht.absent r he
      omega
    | some e => exact ((ht.claims he).starting_alone (decide_eq_true hbefore)).1
  have hclaims := ((tracked_step ht hmade hs).claims he').claimed_iff
  simpa [hafter, hnone, hlost] using hclaims

/-! ### Failed starts -/

/-- After any run the claim on an engine is taken only by a start that is under way, by a start that
has succeeded, or by one that was dropped, and only for this the next start is refused.  So a start
that fails or is cancelled leaves the engine as if it had not been tried; one that is dropped, since
it ran out of time or its caller went away, leaves the claim taken, and there is no started
state. -/
theorem claim_released_unless_dropped {config : HostConfig} {h₀ : Host}
    (hnew : Host.new config = .ok h₀)
    (hmade : ∀ e guard?, .make e guard? ∈ es → e.lifecycle = .new e.name)
    (hr : h₀.run es = some h) (he : h.engine? r = some e) :
    (e.lifecycle.claimed = true ↔ 0 < h.preparing r ∨ e.lifecycle.started?.isSome = true ∨
      h₀.droppedStart r es = true) ∧
    (h₀.droppedStart r es = true → h.preparing r = 0 ∧ e.lifecycle.started? = none) ∧
    (e.lifecycle.stopped = false → (∀ version, e.kind ≠ .foreign version) →
      ∀ settings token, (h.ask (.engine r (.start settings)) token).answer? h.asked =
          some (.error (.invalidState (e.name ++ " runtime already initialized"))) ↔
        e.lifecycle.claimed = true) ∧
    (∀ version table settings now, e.kind = .native version table →
      e.lifecycle.stopped = false → e.lifecycle.claimed = false →
        e.begin settings true now = (.done (.error .operationCancelled), e)) ∧
    (∀ call ∈ h.calls, call.stage.prepares r = true → e.lifecycle.started? = none ∧
      (∀ err, ∃ h', h.step (.prepared call.id (.error err)) = some h' ∧
        h'.engine? r = some e.abandonStart) ∧
      (h.hasFired call.token = true → cutRace h.hasFired call.frames = none →
        ∃ h', h.step (.resume call.id) = some h' ∧ h'.engine? r = some e.abandonStart)) ∧
    ∀ event h' e', h.step event = some h' → 0 < h.preparing r → h'.preparing r = 0 →
      h'.engine? r = some e' → e'.lifecycle.started? = none →
        (e'.lifecycle.claimed = true ↔ h.dropsStart r event = true) := by
  have ht : h.Tracked fun r => h₀.droppedStart r es := by
    simpa only [Bool.false_or] using tracked_run (tracked_new hnew) hmade hr
  have hclaims := ht.claims he
  have hname := ht.name_eq he
  refine ⟨?_, fun hdropped => ?_, fun hopen hkind settings token => ?_, ?_,
    fun call hc hp => ⟨?_, ?_, ?_⟩, ?_⟩
  · simpa only [decide_eq_true_eq, or_left_comm, or_comm, or_assoc] using hclaims.claimed_iff
  · refine ⟨?_, hclaims.lost_alone hdropped⟩
    by_contra hpos
    have halone := hclaims.starting_alone (decide_eq_true (Nat.pos_of_ne_zero hpos))
    cases halone.1.symm.trans hdropped
  · exact answer?_ask_start_iff he hname hopen hkind
  · intro version table settings now hkind hopen hfree
    exact Engine.begin_native_of_fired settings now hkind hopen hfree
  · exact (hclaims.starting_alone (decide_eq_true (preparing_pos hc hp))).2
  · exact ht.step_prepared_error he hc hp
  · exact ht.step_resume_of_fired he hc hp
  · intro event h' e' hs hbefore hafter he' hnone
    exact ht.claimed_iff_of_ended hs hbefore hafter he' hnone

/-- Two starts of an interpreter, the first of which runs out of time: the claim stays taken, and
the second start is refused. -/
theorem refused_after_timeOut :
    ∃ h₀ h e, Host.new ((default : HostConfig).enable "python" "3") = .ok h₀ ∧
      h₀.run [.make (.interpreter .python) none, .register 0, .ask .start (.root 0), .wait 30000,
        .timeOut 0, .resume 0, .ask (.engine 0 (.start (.new "python" "3"))) (.root 1)] = some h ∧
      h.answer? 0 =
        some (.error (.initializationFailed "python" (.initTimeout (.ofSecs 30)))) ∧
      h.engine? 0 = some e ∧ e.lifecycle.stopped = false ∧ e.lifecycle.started? = none ∧
      e.lifecycle.claimed = true ∧
      h.answer? 1 = some (.error (.invalidState "python runtime already initialized")) :=
  ⟨_, _, _, rfl, rfl, rfl, rfl, rfl, rfl, rfl, rfl⟩

/-- An interpreter that could not be prepared: the next start is not refused. -/
theorem not_refused_after_failed_start :
    ∃ h₀ h e, Host.new ((default : HostConfig).enable "python" "3") = .ok h₀ ∧
      h₀.run [.make (.interpreter .python) none, .register 0, .ask .start (.root 0),
        .prepared 0 (.error (.io "no such file"))] = some h ∧
      h.engine? 0 = some e ∧
      (h.ask (.engine 0 (.start (.new "python" "3"))) (.root 1)).answer? 1 ≠
        some (.error (.invalidState "python runtime already initialized")) := by
  obtain ⟨h₀, h, e, hnew, hr, he, hasked, hname, hkind, hopen, hfree⟩ :
      ∃ h₀ h e, Host.new ((default : HostConfig).enable "python" "3") = .ok h₀ ∧
        h₀.run [.make (.interpreter .python) none, .register 0, .ask .start (.root 0),
          .prepared 0 (.error (.io "no such file"))] = some h ∧
        h.engine? 0 = some e ∧ h.asked = 1 ∧ e.name = "python" ∧
        e.kind = .interpreter .python ∧ e.lifecycle.stopped = false ∧
        e.lifecycle.claimed = false :=
    ⟨_, _, _, rfl, rfl, rfl, rfl, rfl, rfl, rfl, rfl⟩
  have hmade : ∀ e guard?, .make e guard? ∈ ([.make (.interpreter .python) none, .register 0,
      .ask .start (.root 0), .prepared 0 (.error (.io "no such file"))] : List HostEvent) →
      e.lifecycle = .new e.name := by
    intro e guard? hmem
    obtain ⟨rfl, rfl⟩ : e = .interpreter .python ∧ guard? = none := by simpa using hmem
    rfl
  obtain ⟨-, -, hrefused, -⟩ := claim_released_unless_dropped hnew hmade hr he
  have hiff := hrefused hopen (by simp [hkind]) (.new "python" "3") (.root 1)
  rw [hasked, hname, hfree] at hiff
  exact ⟨h₀, h, e, hnew, hr, he, fun hanswer => Bool.noConfusion (hiff.mp hanswer)⟩

end Host

end LanguageHost
