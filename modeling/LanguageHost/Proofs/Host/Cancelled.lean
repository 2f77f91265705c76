import LanguageHost.Proofs.Host.Timing
import LanguageHost.Proofs.Host.Tracked
import LanguageHost.Proofs.Host.Works

/-!
# Calls through the bridge that are cancelled

A call through the bridge waits nowhere but for a worker and for the work on it, and its token
races it all the time (`Turn.Races`).  While it waits, only its own next step and its caller can
make anything of it (`Host.call?_step_of_pooled`), and once the token has fired that step is its
return (`Host.cutRace_of_fired`).

What is left behind is a ticket of a pool.  Its run was told that the token has fired
(`Host.Linked.told`), so it is never started if it has not been (`Host.Used.not_started_run`); and
if it has, its job is still there or has come to its end in one of the ways that a job may end
(`Host.Used.jobGoesOn_run`).
-/

namespace LanguageHost

/-- Whether an engine lends the workers of a pool to its tasks. -/
def Engine.lends (e : Engine) : Bool :=
  match e.kind with
  | .native .. | .interpreter _ => true
  | .foreign _ => false

/-- Whether a call is over, or waits for a worker or for the work on it. -/
def Stage.waitsOnlyInPool : Stage → Bool
  | .over _ | .pooled .. => true
  | _ => false

/-- Whether an outcome goes through a frame as it is. -/
def Frame.passes : Frame → Bool
  | .race _ | .tracked .. => true
  | .starting .. | .stopping .. => false

/-- A call races a token, within these frames, and waits for nothing but a worker. -/
structure Turn.Races (t : Turn) (token : Token) (frames : List Frame) : Prop where
  frames_eq : ∃ inner, t.frames = inner ++ .race token :: frames ∧ ∀ f ∈ inner, f.passes = true
  stage_eq : t.stage.waitsOnlyInPool = true

/-- The caller of a ticket goes away: no worker changes hands, and its place in line and its permit
are left to the others. -/
structure Pool.Forgets (p : Pool) (t : Ticket) (q : Pool) : Prop where
  unmoved : p.Unmoved q
  members_perm : q.members.Perm (p.members.filter (· ≠ t))
  allPermits_eq : p.closed = false → q.allPermits = p.allPermits

theorem Pool.forgets_withdraw {p : Pool} (ho : p.Orderly) (t : Ticket) :
    p.Forgets t (p.follow (.withdraw t)) := by
  obtain ⟨hmoved, hmembers, hpermits⟩ := unmoved_withdraw ho (.withdraw t)
  exact ⟨hmoved, hmembers, hpermits⟩

/-! ### What a call through the bridge waits for -/

/-- An engine that lends workers is done with a task at once, or the call waits for a worker. -/
theorem Engine.waitsOnlyInPool_ask {e : Engine} (hlends : e.lends = true) (r : EngineId)
    (task : Task) (token : Token) (fired : Bool) (now : Nat) :
    (Host.stageOf r (.run task) (e.ask (.run task) token fired now).1).waitsOnlyInPool = true := by
  have hrun : (Host.stageOf r (.run task) (e.run task token fired).1).waitsOnlyInPool = true := by
    unfold run
    split
    · rfl
    · split
      · rfl
      · unfold enqueue
        cases fired <;> rfl
  unfold ask
  split
  · next hkind =>
    rw [lends, hkind] at hlends
    cases hlends
  · exact hrun

namespace Host

variable {h h' g : Host} {k : Call} {r : EngineId} {ticket : Ticket} {w : Worker} {p q : Pool}
variable {inner outer frames : List Frame} {token σ : Token} {event : HostEvent}
variable {es : List HostEvent} {t : Turn}

theorem waitsOnlyInPool_askEngine (task : Task) (token : Token) (frames : List Frame)
    (hlends : ∀ e, h.engine? r = some e → e.lends = true) :
    (h.askEngine r (.run task) token frames).stage.waitsOnlyInPool = true := by
  unfold askEngine
  split
  · rfl
  · next g hg =>
    have hlend : g.engine.lends = true := hlends _ (by rw [engine?, hg, Option.map_some])
    split
    · rfl
    · exact Engine.waitsOnlyInPool_ask hlend r task token _ _

/-- A task that is handed on by a name is tracked at most, and waits for workers only. -/
theorem races_dispatch {name : String} (task : Task) (inner : Token)
    (hlends : ∀ e, h.lookUp? name = some e → e.lends = true) :
    (h.dispatch name task inner (.race token :: frames)).Races token frames := by
  unfold dispatch
  split
  · exact ⟨⟨[], rfl, nofun⟩, rfl⟩
  · next r hname =>
    have hlend : ∀ e, h.engine? r = some e → e.lends = true := fun e he =>
      hlends e (by rw [lookUp?, hname, Option.bind_some, he])
    refine ⟨?_, waitsOnlyInPool_askEngine task inner _ hlend⟩
    rw [(askEngine_frames h r (.run task) inner _).1]
    split
    · exact ⟨[.tracked name task.function h.now], rfl, by simp [Frame.passes]⟩
    · exact ⟨[], rfl, nofun⟩

/-- A call through the bridge whose token has not fired races it, and waits for workers only. -/
theorem races_callBridge {name runtime function : String} (args : List Json)
    (hname : h.bridge.get? name = some (.exposed runtime function))
    (hlends : ∀ e, h.lookUp? runtime = some e → e.lends = true)
    (hnot : h.hasFired token = false) :
    (h.callBridge name args token).Races token [] := by
  unfold callBridge
  rw [hname, hnot]
  exact races_dispatch _ _ hlends

/-! ### Outcomes -/

theorem step_resume (hk : h.call? k.id = some k) (ht : h.resume k = some t) :
    h.step (.resume k.id) = some (settle t k) := by
  simp only [step, forCall, hk, Option.bind_eq_bind, Option.bind_some, ht, Option.pure_def]

/-- An outcome goes through a frame at once. -/
theorem step_of_passes {f : Frame} {result : Outcome Json} (hf : f.passes = true)
    (hk : h.call? k.id = some k) (hstage : k.stage = .over result)
    (hframes : k.frames = f :: outer) :
    ∃ h', h.step (.resume k.id) = some h' ∧ h'.now = h.now ∧
      h'.call? k.id = some { k with frames := outer, stage := .over result, since := h.now } := by
  have hpass : ∃ mid, h.pass k.token f outer result = ⟨mid, outer, .over result⟩ ∧
      mid.now = h.now ∧ mid.calls = h.calls := by
    cases f with
    | race | tracked => exact ⟨_, rfl, rfl, rfl⟩
    | starting | stopping => cases hf
  obtain ⟨mid, hturn, hnow, hcalls⟩ := hpass
  have hresume : h.resume k = some ⟨mid, outer, .over result⟩ := by
    unfold resume
    simp only [hstage, hframes, hturn]
  refine ⟨settle ⟨mid, outer, .over result⟩ k, step_resume hk hresume, hnow, ?_⟩
  rw [call?_settle hk hcalls, hnow]

/-- An outcome gets out of a race without time passing, as it is. -/
theorem run_of_over {result : Outcome Json} (hinner : ∀ f ∈ inner, f.passes = true)
    (hk : h.call? k.id = some k) (hstage : k.stage = .over result)
    (hframes : k.frames = inner ++ .race token :: outer) :
    ∃ h', h.run (.replicate (inner.length + 1) (.resume k.id)) = some h' ∧ h'.now = h.now ∧
      h'.call? k.id = some { k with frames := outer, stage := .over result, since := h.now } := by
  induction inner generalizing h k with
  | nil =>
    obtain ⟨h', hs, hnow, hcall⟩ := step_of_passes (f := .race token) rfl hk hstage hframes
    exact ⟨h', plays.cons_eq_some.mpr ⟨h', hs, rfl⟩, hnow, hcall⟩
  | cons f inner ih =>
    obtain ⟨hf, hrest⟩ := List.forall_mem_cons.mp hinner
    obtain ⟨mid, hs, hnow, hcall⟩ := step_of_passes hf hk hstage hframes
    obtain ⟨h', hrun, hnow', hcall'⟩ := ih (k := { k with
      frames := inner ++ .race token :: outer, stage := .over result, since := h.now })
      hrest hcall rfl rfl
    refine ⟨h', plays.cons_eq_some.mpr ⟨mid, hs, hrun⟩, hnow'.trans hnow, ?_⟩
    rw [← hnow]
    exact hcall'

/-! ### Hosts that were used from the beginning -/

/-- A host that was new and then used. -/
def Used (h : Host) : Prop :=
  ∃ config h₀ es, new config = .ok h₀ ∧ MakesNew es ∧ h₀.run es = some h

namespace Used

theorem run (hu : h.Used) (hmade : MakesNew es) (hr : h.run es = some h') : h'.Used := by
  obtain ⟨config, h₀, es₀, hnew, hmade₀, hr₀⟩ := hu
  refine ⟨config, h₀, es₀ ++ es, hnew, fun e guard? he => ?_, plays.append_eq_some.mpr ⟨h, hr₀, hr⟩⟩
  rcases List.mem_append.mp he with he | he
  · exact hmade₀ e guard? he
  · exact hmade e guard? he

theorem linked (hu : h.Used) : h.Linked := by
  obtain ⟨config, h₀, es, hnew, hmade, hr⟩ := hu
  exact linked_run (linked_new hnew) hmade hr

theorem tracked (hu : h.Used) : ∃ lost, h.Tracked lost := by
  obtain ⟨config, h₀, es, hnew, hmade, hr⟩ := hu
  exact ⟨_, tracked_run (tracked_new hnew) (fun e guard? he => (hmade e guard? he).1) hr⟩

theorem ids_lt (hu : h.Used) : ∀ k ∈ h.calls, k.id < h.asked := by
  obtain ⟨lost, ht⟩ := hu.tracked
  exact ht.ids_lt

theorem ids_nodup (hu : h.Used) : (h.calls.map Call.id).Nodup := by
  obtain ⟨lost, ht⟩ := hu.tracked
  exact ht.ids_nodup

end Used

/-- The pool of an engine was started and then used. -/
theorem Linked.pool_used (hl : h.Linked) (hp : h.pool? r = some p) : p.Used := by
  obtain ⟨e, he, hpool⟩ := Option.bind_eq_some_iff.mp hp
  exact (hl.engines r e he).used p hpool

/-- In the pool of an engine no operation has panicked as it was called or told itself to stop. -/
theorem Linked.pool_tame (hl : h.Linked) (hp : h.pool? r = some p) : p.Tame := by
  obtain ⟨e, he, hpool⟩ := Option.bind_eq_some_iff.mp hp
  exact (hl.engines r e he).tame p hpool

/-! ### The ticket of a call that waits -/

/-- A call that waits has a ticket of a pool. -/
theorem Linked.pool_of_pooled (hl : h.Linked) (hk : h.call? k.id = some k)
    (hstage : k.stage = .pooled r ticket) : ∃ p, h.pool? r = some p ∧ ticket ∈ p.runs := by
  have hplace := hl.calls k (mem_of_call? hk).1
  rw [hstage] at hplace
  obtain ⟨e, w, he, hw, rfl, -⟩ := hplace
  have hlinked := hl.engines r e he
  cases hpool : e.pool? with
  | none =>
    rw [hlinked.works_nil hpool] at hw
    cases hw
  | some p => exact ⟨p, by rw [pool?, he, Option.bind_some, hpool], hlinked.runs p hpool w hw⟩

/-- The ticket of a call that waits was told of every race around the call that is lost. -/
theorem Linked.told (hl : h.Linked) (hk : h.call? k.id = some k)
    (hstage : k.stage = .pooled r ticket) (hrace : .race token ∈ k.frames)
    (hfired : h.hasFired token = true) (hp : h.pool? r = some p) : ticket ∈ p.fired := by
  have hplace := hl.calls k (mem_of_call? hk).1
  rw [hstage] at hplace
  obtain ⟨e, w, he, hw, rfl, hframes⟩ := hplace
  rw [pool?, he, Option.bind_some] at hp
  have hunder : w.token.under token = true := hframes _ hrace
  exact (hl.engines r e he).told p hp w hw (Token.firedBy_of_under hunder hfired)

/-! ### What becomes of a call that waits -/

/-- There is no limit where nothing is being started. -/
theorem cutStart_of_not_starting
    (hframes : ∀ f ∈ frames, ∀ name limit? rest, f ≠ .starting name limit? rest) (now : Nat) :
    cutStart now frames = none := by
  induction frames with
  | nil => rfl
  | cons f frames ih =>
    obtain ⟨hf, hrest⟩ := List.forall_mem_cons.mp hframes
    cases f with
    | starting name limit? rest => exact absurd rfl (hf name limit? rest)
    | _ => simp only [cutStart, ih hrest]

/-- Nothing is being started around a call that waits for a worker. -/
theorem cutStart_of_holds {token : Token} (hframes : ∀ f ∈ frames, f.Holds token) (now : Nat) :
    cutStart now frames = none := by
  refine cutStart_of_not_starting (fun f hf name limit? rest => ?_) now
  rintro rfl
  cases hframes _ hf

theorem cutRace_of_not_fired {fired : Token → Bool}
    (hnot : ∀ token, .race token ∈ frames → fired token = false) : cutRace fired frames = none := by
  induction frames with
  | nil => rfl
  | cons f frames ih =>
    have hrest := ih fun token hmem => hnot token (List.mem_cons_of_mem _ hmem)
    cases f with
    | race token => simp only [cutRace, hrest, hnot token List.mem_cons_self, Bool.false_eq_true,
        if_false]
    | _ => simp only [cutRace, hrest]

/-- A race that is lost is left, and if another one around it is lost, that one is. -/
theorem cutRace_of_fired {fired : Token → Bool} (inner outer : List Frame)
    (hfired : fired token = true) :
    ∃ rest, cutRace fired (inner ++ .race token :: outer) = some rest ∧ rest <:+ outer ∧
      ((∀ σ, .race σ ∈ outer → fired σ = false) → rest = outer) := by
  induction inner with
  | nil =>
    rw [List.nil_append, cutRace]
    cases hcut : cutRace fired outer with
    | none => exact ⟨outer, if_pos hfired, List.suffix_refl outer, fun _ => rfl⟩
    | some rest =>
      refine ⟨rest, rfl, ?_, fun hnot => ?_⟩
      · obtain ⟨inside, other, rfl⟩ := eq_append_of_cutRace hcut
        exact (List.suffix_cons _ rest).trans (List.suffix_append inside _)
      · cases (cutRace_of_not_fired hnot).symm.trans hcut
  | cons f inner ih =>
    obtain ⟨rest, hcut, hrest⟩ := ih
    exact ⟨rest, by simp only [List.cons_append, cutRace, hcut], hrest⟩

/-- A caller that goes away takes no other call along. -/
theorem call?_drop_of_ne {c : CallId} (hne : c ≠ k.id) : (h.drop k).call? c = h.call? c := by
  have hcalls : (h.leave k.stage).calls = h.calls := (acts_leave h k.stage).2
  have hkeep : (fun j : Call => decide (decide (j.id ≠ k.id) = true ∧ decide (j.id = c) = true)) =
      fun j => decide (j.id = c) := by
    funext j
    by_cases hj : j.id = c
    · simp [hj, hne]
    · simp [hj]
  simp only [call?, drop, hcalls, List.find?_filter, hkeep]

/-- A new call is none of those that came before it. -/
theorem call?_ask_of_lt {c : CallId} (request : Request) (token : Token) (hlt : c < h.asked) :
    (h.ask request token).call? c = h.call? c := by
  have hcalls := (brings_begin { h with asked := h.asked + 1 } request token).calls_eq
  have hne : ¬ h.asked = c := Nat.ne_of_gt hlt
  simp only [call?, ask, List.find?_cons, hne, decide_false, hcalls]

/-- A call that waits for a worker gets somewhere by its own next step only. -/
theorem turn?_of_pooled (hl : h.Linked) (hk : k ∈ h.calls) (hstage : k.stage = .pooled r ticket)
    (hturn : h.turn? k event = some t) : ∃ c, event = .resume c := by
  have hplace := hl.calls k hk
  rw [hstage] at hplace
  obtain ⟨e, w, he, hw, hticket, hframes⟩ := hplace
  cases event with
  | resume c => exact ⟨c, rfl⟩
  | timeOut c => simp [turn?, timeOut, hstage, cutStart_of_holds hframes] at hturn
  | acted c result => simp [turn?, acted, hstage] at hturn
  | prepared c report => simp [turn?, prepared, hstage] at hturn
  | returned c => simp [turn?, returned, hstage] at hturn
  | finished c result => simp [turn?, finished, hstage] at hturn
  | _ => cases hturn

/-- Only the next step of a call that waits for a worker, and its caller, make anything of it. -/
theorem call?_step_of_pooled (hl : h.Linked) (hids : ∀ k ∈ h.calls, k.id < h.asked)
    (hk : h.call? k.id = some k) (hstage : k.stage = .pooled r ticket)
    (hs : h.step event = some h') (hresume : event ≠ .resume k.id) (hdrop : event ≠ .drop k.id) :
    h'.call? k.id = some k := by
  have hmem := (mem_of_call? hk).1
  cases handles_of_step hs with
  | ask request token => rw [call?_ask_of_lt request token (hids k hmem), hk]
  | @turn _ j t hj hself hturn hb =>
    by_cases hid : k.id = j.id
    · obtain rfl : k = j := Option.some.inj (hk.symm.trans (hid ▸ hj))
      obtain ⟨c, rfl⟩ := turn?_of_pooled hl hmem hstage hturn
      exact absurd (congrArg _ (hself c rfl)) hresume
    · rw [call?_settle_of_ne hid hb.calls_eq, hk]
  | @drop _ j hevent hj =>
    have hne : k.id ≠ j.id := by
      intro hid
      rcases hevent with rfl | rfl
      · exact hdrop (congrArg _ hid.symm)
      · obtain ⟨i, f, token, args, hi, hpanics, -⟩ := of_step_panicked hs
        obtain rfl : k = i := Option.some.inj (hk.symm.trans (hid ▸ hi))
        rw [hstage] at hpanics
        rcases hpanics with hpanics | hpanics <;> cases hpanics
    rw [call?_drop_of_ne hne, hk]
  | make => exact hk
  | aside hcalls => rw [call?, hcalls, ← call?, hk]

/-! ### What becomes of its ticket -/

/-- A token that fires moves no worker, and lets nobody in line go. -/
theorem pool?_fire (hp : h.pool? r = some p) (token : Token) :
    ∃ q, (h.fire token).pool? r = some q ∧ p.Unmoved q ∧ q.toLine = p.toLine := by
  obtain ⟨e, he, hpool⟩ := Option.bind_eq_some_iff.mp hp
  obtain ⟨guarded, hg, rfl⟩ := Option.map_eq_some_iff.mp he
  have hengine : (h.fire token).engine? r = some (guarded.engine.fire token) := by
    simp only [engine?, fire, List.getElem?_map, hg, Option.map_some]
  have hfired := (guarded.engine.works_fire token).2
  rw [hpool, Option.map_some] at hfired
  obtain ⟨hmoved, hline⟩ := p.unmoved_fireAll
    ((guarded.engine.works.filter fun w => w.token.under token).map Work.ticket)
  exact ⟨_, by rw [pool?, hengine, Option.bind_some, hfired], hmoved, hline⟩

/-- A call that is left withdraws its ticket. -/
theorem pool?_leave (hp : h.pool? r = some p) (ticket : Ticket) :
    (h.leave (.pooled r ticket)).pool? r = some (p.follow (.withdraw ticket)) := by
  obtain ⟨e, he, hpool⟩ := Option.bind_eq_some_iff.mp hp
  simp only [leave, he, pool?, engine?_setEngine, if_true, Option.map_some, Option.bind_some]
  rw [Engine.pool?_withPool, hpool, Option.map_some]

/-- Whatever happens later, the operation of a call whose race is lost is not started. -/
theorem Used.not_started_run (hu : h.Used) (hk : h.call? k.id = some k)
    (hstage : k.stage = .pooled r ticket) (hrace : .race token ∈ k.frames)
    (hfired : h.hasFired token = true) (hp : h.pool? r = some p)
    (hnot : ticket ∉ p.started.map Prod.fst) (hmade : MakesNew es) (hr : h.run es = some g) :
    ∃ q, g.pool? r = some q ∧ ticket ∉ q.started.map Prod.fst := by
  have htold : ticket ∈ p.fired := hu.linked.told hk hstage hrace hfired hp
  obtain ⟨p', hp', hruns⟩ := hu.linked.pool_of_pooled hk hstage
  obtain rfl : p = p' := Option.some.inj (hp.symm.trans hp')
  obtain ⟨q, hq, pes, hpes, -⟩ := pool_run hu.linked hmade hp hr
  have hgone : p.hasFired ticket = true := Pool.hasFired_iff.mpr ⟨hruns, htold⟩
  exact ⟨q, hq, Pool.not_started_run_of_fired hgone hnot hpes⟩

/-- The job of a run has come to its end by one of these events. -/
def JobEnded (h : Host) (es : List HostEvent) (r : EngineId) (t : Ticket) (w : Worker) : Prop :=
  ∃ before event after g g' q e q', es = before ++ event :: after ∧ h.run before = some g ∧
    g.step event = some g' ∧ g.pool? r = some q ∧ g'.pool? r = some q' ∧
    q.step e = some q' ∧ q.JobEnds t w e q'

theorem JobEnded.concat (he : h.JobEnded es r ticket w) (event : HostEvent) :
    h.JobEnded (es ++ [event]) r ticket w := by
  obtain ⟨before, event', after, g, g', q, e, q', rfl, hends⟩ := he
  exact ⟨before, event', after ++ [event], g, g', q, e, q', by simp, hends⟩

/-- What has become of the operation of a run by these events, which was started on a worker. -/
structure JobGoesOn (h : Host) (es : List HostEvent) (r : EngineId) (t : Ticket) (w : Worker)
    (p q : Pool) : Prop where
  started : (t, w) ∈ q.started
  fired_subset : p.fired ⊆ q.fired
  /-- While the job is there, it serves with the worker, and nothing keeps it from going on. -/
  serves : ∀ j, q.job? t = some j → q.Serves w j ∧ q.CanGoOn j
  /-- Once it is gone, its result was sent. -/
  sent : q.job? t = none → (q.sent? t).isSome = true
  /-- It was gone already, or has come to its end. -/
  ended : q.job? t = none → p.job? t = none ∨ h.JobEnded es r t w

/-- What is known of a run that was started. -/
theorem serves_of_started (htame : p.Tame) (hw : (ticket, w) ∈ p.started) :
    (∀ j, p.job? ticket = some j → p.Serves w j ∧ p.CanGoOn j) ∧
      (p.job? ticket = none → (p.sent? ticket).isSome = true) := by
  refine ⟨fun j hj => ⟨?_, Pool.canGoOn hj⟩, fun hnone => ?_⟩
  · obtain ⟨n, p₀, es, h₀, hrun⟩ := htame.used
    exact Pool.jobsServe_run h₀ hrun ticket w j hw hj
  · obtain ⟨p₀, es, htraced, hnocrash⟩ := htame.traced
    rcases htraced.settled ticket (List.mem_map_of_mem hw) with hsent | hjob | hcrash
    · exact hsent
    · rw [hnone] at hjob
      cases hjob
    · exact absurd hcrash (hnocrash ticket)

theorem Used.jobGoesOn_run (hu : h.Used) (hp : h.pool? r = some p)
    (hw : (ticket, w) ∈ p.started) (hmade : MakesNew es) (hr : h.run es = some g) :
    ∃ q, g.pool? r = some q ∧ h.JobGoesOn es r ticket w p q := by
  refine plays.history (motive := fun es g => MakesNew es →
    ∃ q, g.pool? r = some q ∧ h.JobGoesOn es r ticket w p q) ?_ ?_ hr hmade
  · intro _
    obtain ⟨hserves, hsent⟩ := serves_of_started (hu.linked.pool_tame hp) hw
    exact ⟨p, hp, hw, List.Subset.refl _, hserves, hsent, .inl⟩
  · intro es g event g' hrun ih hs hmade
    have hmade' : MakesNew es := fun e guard? he => hmade e guard? (List.mem_append_left _ he)
    obtain ⟨q, hq, hgoes⟩ := ih hmade'
    have hug : g.Used := hu.run hmade' hrun
    have hug' : g'.Used := hu.run hmade (plays.concat_eq_some.mpr ⟨g, hrun, hs⟩)
    obtain ⟨q', hq', hleads, hgone⟩ := (handles_of_step hs).pool hq
    have hw' : (ticket, w) ∈ q'.started := hleads.keeps (motive := fun q => (ticket, w) ∈ q.started)
      hgoes.started fun _ _ _ hmem ho => (Pool.started_suffix ho).subset hmem
    obtain ⟨hserves, hsent⟩ := serves_of_started (hug'.linked.pool_tame hq') hw'
    refine ⟨q', hq', hw', List.Subset.trans hgoes.fired_subset hleads.fired_subset, hserves, hsent,
      fun hnone => ?_⟩
    cases hj : q.job? ticket with
    | none =>
      rcases hgoes.ended hj with hbefore | hended
      · exact .inl hbefore
      · exact .inr (hended.concat event)
    | some j =>
      obtain ⟨e, htame, he⟩ := hgone ticket (by rw [hj]; rfl) hnone
      have hcrash : e ≠ .crash ticket := fun heq => by
        rw [heq] at htame
        cases htame
      have hends := Pool.jobEnds_of_step (Pool.occurs_of_step he) (hgoes.serves j hj).1 hcrash hj
        hnone
      exact .inr ⟨es, event, [], g, g', q, e, q', rfl, hrun, hs, hq, hq', he, hends⟩

/-! ### Cancellation -/

/-- A token has fired around a call that waits with a ticket of a pool.  The call waits on, no
worker moves and nobody leaves the line, and the run of the ticket is told. -/
structure Told (h h' : Host) (k : Call) (token : Token) (r : EngineId) (t : Ticket) (p q : Pool) :
    Prop where
  now_eq : h'.now = h.now
  fired : h'.hasFired token = true
  call_eq : h'.call? k.id = some k
  pool_eq : h'.pool? r = some q
  unmoved : p.Unmoved q
  line_eq : q.toLine = p.toLine
  told : t ∈ q.fired

/-- A call that waited with a ticket of a pool, inside of a race, has returned from the race, and
from all around it that are lost as well. -/
structure Returned (h h' : Host) (k : Call) (outer rest : List Frame) (r : EngineId) (t : Ticket)
    (p q : Pool) : Prop where
  now_eq : h'.now = h.now
  suffix : rest <:+ outer
  rest_eq : (∀ σ, .race σ ∈ outer → h.hasFired σ = false) → rest = outer
  call_eq : h'.call? k.id =
    some { k with frames := rest, stage := .over (.error .operationCancelled), since := h.now }
  pool_eq : h'.pool? r = some q
  forgets : p.Forgets t q

/-- What becomes of a call that waits with a ticket of a pool, inside of a race for a token. -/
structure Cancels (h : Host) (k : Call) (token : Token) (outer : List Frame) (r : EngineId)
    (t : Ticket) (p : Pool) : Prop where
  /-- The token may fire, or one that it was made from. -/
  told : ∀ σ, token.under σ = true →
    ∃ h' q, h.step (.fire σ) = some h' ∧ h.Told h' k token r t p q
  /-- The call is changed by nothing but its own next step, and its caller. -/
  waits : ∀ event h', h.step event = some h' → event ≠ .resume k.id → event ≠ .drop k.id →
    h'.call? k.id = some k
  /-- Once the token has fired, the next step of the call is its return. -/
  returns : h.hasFired token = true →
    ∃ h' q rest, h.step (.resume k.id) = some h' ∧ h.Returned h' k outer rest r t p q
  /-- An operation that had not been started never is. -/
  never : h.hasFired token = true → t ∉ p.started.map Prod.fst → ∀ es g, MakesNew es →
    h.run es = some g → ∃ q, g.pool? r = some q ∧ t ∉ q.started.map Prod.fst
  /-- An operation that had been started keeps its worker until it has come to its end. -/
  goes_on : ∀ w, (t, w) ∈ p.started → ∀ es g, MakesNew es → h.run es = some g →
    ∃ q, g.pool? r = some q ∧ h.JobGoesOn es r t w p q

theorem Used.told (hu : h.Used) (hk : h.call? k.id = some k) (hstage : k.stage = .pooled r ticket)
    (hrace : .race token ∈ k.frames) (hp : h.pool? r = some p) (hunder : token.under σ = true) :
    ∃ q, h.Told (h.fire σ) k token r ticket p q := by
  obtain ⟨q, hq, hmoved, hline⟩ := pool?_fire hp σ
  have hfired : (h.fire σ).hasFired token = true := by
    rw [hasFired, fire, Token.firedBy, List.any_cons, hunder, Bool.true_or]
  have hnext : (h.fire σ).Linked := hu.linked.aside rfl (acts_fire h σ)
  have htold : ticket ∈ q.fired := hnext.told hk hstage hrace hfired hq
  exact ⟨q, rfl, hfired, hk, hq, hmoved, hline, htold⟩

theorem Used.returns (hu : h.Used) (hk : h.call? k.id = some k)
    (hstage : k.stage = .pooled r ticket) (hframes : k.frames = inner ++ .race token :: outer)
    (hp : h.pool? r = some p) (hfired : h.hasFired token = true) :
    ∃ h' q rest, h.step (.resume k.id) = some h' ∧
      h.Returned h' k outer rest r ticket p q := by
  obtain ⟨rest, hcut, hsuffix, hrest⟩ := cutRace_of_fired inner outer hfired
  obtain ⟨-, hcalls⟩ := acts_leave h k.stage
  have hnow : (h.leave k.stage).now = h.now := by
    rw [hstage, leave]
    split <;> rfl
  let t : Turn := ⟨h.leave k.stage, rest, .over (.error .operationCancelled)⟩
  have hresume : h.resume k = some t := by
    unfold resume
    rw [hframes, hcut]
    simp only [hstage, t]
  have hcall := call?_settle (t := t) hk hcalls
  have hpool : (settle t k).pool? r = some (p.follow (.withdraw ticket)) := by
    have hleft := pool?_leave hp ticket
    rw [← hstage] at hleft
    exact hleft
  have hforgets := Pool.forgets_withdraw (hu.linked.pool_used hp).orderly ticket
  refine ⟨settle t k, _, rest, step_resume hk hresume, hnow, hsuffix, hrest, ?_, hpool, hforgets⟩
  rw [hcall, hnow]

/-- A call of a function that is exposed by an engine returns at once when its token fires, wherever
it waits, and strands no worker.  A call whose token has fired does nothing at all.  Another one, if
the engine lends workers, waits for a worker and for the work on it, inside of the race for its
token, and nowhere else; an outcome that it has is passed on without waiting.  When the
token fires while the call waits, it is over at the same time with the failure that says so, and it
gives up its ticket.  If its operation had not been started, it never is, and the pool has lost
nothing but a caller.  If it had been, it was told; its job goes on by itself until it has given
back the worker, or put another one in its place, or the pool has shrunk or was closed. -/
theorem bridge_cancelled (hu : h.Used) :
    (∀ name runtime function args token,
      h.bridge.get? name = some (.exposed runtime function) → h.hasFired token = true →
      h.callBridge name args token = ⟨h, [], .over (.error .operationCancelled)⟩) ∧
    (∀ name runtime function args token,
      h.bridge.get? name = some (.exposed runtime function) →
      (∀ e, h.lookUp? runtime = some e → e.lends = true) → h.hasFired token = false →
      (h.callBridge name args token).Races token []) ∧
    (∀ k result inner token outer, h.call? k.id = some k → k.stage = .over result →
      k.frames = inner ++ .race token :: outer → (∀ f ∈ inner, f.passes = true) →
      ∃ h', h.run (.replicate (inner.length + 1) (.resume k.id)) = some h' ∧ h'.now = h.now ∧
        h'.call? k.id = some { k with frames := outer, stage := .over result, since := h.now }) ∧
    ∀ k r t inner token outer, h.call? k.id = some k → k.stage = .pooled r t →
      k.frames = inner ++ .race token :: outer →
      ∃ p, h.pool? r = some p ∧ h.Cancels k token outer r t p := by
  refine ⟨?_, ?_, ?_, ?_⟩
  · intro name runtime function args token hname hfired
    rw [callBridge, hname]
    exact if_pos hfired
  · intro name runtime function args token hname hlends hnot
    exact races_callBridge args hname hlends hnot
  · intro k result inner token outer hk hstage hframes hinner
    exact run_of_over hinner hk hstage hframes
  · intro k r t inner token outer hk hstage hframes
    obtain ⟨p, hp, -⟩ := hu.linked.pool_of_pooled hk hstage
    have hrace : .race token ∈ k.frames := by
      rw [hframes]
      exact List.mem_append_right _ List.mem_cons_self
    refine ⟨p, hp, fun σ hunder => ?_, fun event h' hs hresume hdrop => ?_, fun hfired => ?_,
      fun hfired hnot es g hmade hr => ?_, fun w hw es g hmade hr => ?_⟩
    · obtain ⟨q, htold⟩ := hu.told hk hstage hrace hp hunder
      exact ⟨h.fire σ, q, rfl, htold⟩
    · exact call?_step_of_pooled hu.linked hu.ids_lt hk hstage hs hresume hdrop
    · exact hu.returns hk hstage hframes hp hfired
    · exact hu.not_started_run hk hstage hrace hfired hp hnot hmade hr
    · exact hu.jobGoesOn_run hp hw hmade hr

/-- One call is at work on the only worker and another one waits for it when their tokens fire.
Both return, and the operation of the first one ends by itself afterwards. -/
theorem bridge_cancelled_of_two_calls :
    ∃ h k₁ k₂ p mid g q, Used h ∧ h.call? 1 = some k₁ ∧ h.call? 2 = some k₂ ∧
      h.pool? 0 = some p ∧ h.Cancels k₁ (.root 0) [] 0 0 p ∧ h.Cancels k₂ (.root 1) [] 0 1 p ∧
      (0, ⟨0, 0⟩) ∈ p.started ∧ 1 ∉ p.started.map Prod.fst ∧
      h.run [.resume 1, .resume 2] = some mid ∧
      mid.answer? 1 = some (.error .operationCancelled) ∧
      mid.answer? 2 = some (.error .operationCancelled) ∧
      mid.run [.workEnds 0 0 (.returned (.value .null))] = some g ∧ g.pool? 0 = some q ∧
      1 ∉ q.started.map Prod.fst ∧
      h.JobEnded [.resume 1, .resume 2, .workEnds 0 0 (.returned (.value .null))] 0 0 ⟨0, 0⟩ := by
  let before : List HostEvent := [.make (.native "one" "1.0" Dict.empty) none, .register 0,
    .bridgeRegister "f" (.exposed "one" "g"),
    .ask (.engine 0 (.start { RuntimeSettings.new "one" "1" with maxConcurrency := 1 })) (.root 2),
    .ask (.bridge "f" []) (.root 0), .pool 0 (.take 0), .ask (.bridge "f" []) (.root 1),
    .fire (.root 0), .fire (.root 1)]
  have hbefore : MakesNew before := by
    intro e guard? he
    have heq : e = .native "one" "1.0" Dict.empty ∧ guard? = none := by simpa [before] using he
    rw [heq.1]
    exact ⟨rfl, rfl⟩
  obtain ⟨h₀, h, k₁, k₂, p, mid, hnew, hrun, hk₁, hk₂, hstage₁, hstage₂, hframes₁, hframes₂,
      hfired, hp, hstarted, hjob, hmid, hfirst, hsecond, hdone⟩ :
      ∃ h₀ h k₁ k₂ p mid, Host.new default = .ok h₀ ∧ h₀.run before = some h ∧
        h.call? 1 = some k₁ ∧ h.call? 2 = some k₂ ∧
        k₁.stage = .pooled 0 0 ∧ k₂.stage = .pooled 0 1 ∧
        k₁.frames = [.tracked "one" "g" 0] ++ .race (.root 0) :: [] ∧
        k₂.frames = [.tracked "one" "g" 0] ++ .race (.root 1) :: [] ∧
        h.hasFired (.root 1) = true ∧ h.pool? 0 = some p ∧ p.started = [(0, ⟨0, 0⟩)] ∧
        (p.job? 0).isSome = true ∧
        h.run [.resume 1, .resume 2] = some mid ∧
        mid.answer? 1 = some (.error .operationCancelled) ∧
        mid.answer? 2 = some (.error .operationCancelled) ∧
        ((mid.run [.workEnds 0 0 (.returned (.value .null))]).bind fun g => (g.pool? 0).map fun q =>
          (q.job? 0).isNone) = some true :=
    ⟨_, _, _, _, _, _, rfl, rfl, rfl, rfl, rfl, rfl, rfl, rfl, rfl, rfl, rfl, rfl, rfl, rfl, rfl,
      by decide +kernel⟩
  have hused : h.Used := ⟨default, h₀, before, hnew, hbefore, hrun⟩
  obtain ⟨-, -, -, hwaiting⟩ := bridge_cancelled hused
  have hid₁ : k₁.id = 1 := (mem_of_call? hk₁).2
  have hid₂ : k₂.id = 2 := (mem_of_call? hk₂).2
  obtain ⟨p₁, hp₁, hcancels₁⟩ := hwaiting k₁ 0 0 _ _ _ (hid₁.symm ▸ hk₁) hstage₁ hframes₁
  obtain ⟨p₂, hp₂, hcancels₂⟩ := hwaiting k₂ 0 1 _ _ _ (hid₂.symm ▸ hk₂) hstage₂ hframes₂
  obtain rfl : p = p₁ := Option.some.inj (hp.symm.trans hp₁)
  obtain rfl : p = p₂ := Option.some.inj (hp.symm.trans hp₂)
  have hw : (0, ⟨0, 0⟩) ∈ p.started := hstarted ▸ List.mem_cons_self
  have hnot : 1 ∉ p.started.map Prod.fst := by simp [hstarted]
  obtain ⟨g, hg, hdone⟩ := Option.bind_eq_some_iff.mp hdone
  obtain ⟨q, hq, hnone⟩ := Option.map_eq_some_iff.mp hdone
  have hall : h.run ([.resume 1, .resume 2] ++ [.workEnds 0 0 (.returned (.value .null))]) = some g :=
    plays.append_eq_some.mpr ⟨mid, hmid, hg⟩
  have hafter : MakesNew [.resume 1, .resume 2, .workEnds 0 0 (.returned (.value .null))] := by simp [MakesNew]
  obtain ⟨q₁, hq₁, hgoes⟩ := hcancels₁.goes_on _ hw _ g hafter hall
  obtain ⟨q₂, hq₂, hnever⟩ := hcancels₂.never hfired hnot _ g hafter hall
  obtain rfl : q = q₁ := Option.some.inj (hq.symm.trans hq₁)
  obtain rfl : q = q₂ := Option.some.inj (hq.symm.trans hq₂)
  have hended := hgoes.ended (Option.isNone_iff_eq_none.mp hnone)
  refine ⟨h, k₁, k₂, p, mid, g, q, hused, hk₁, hk₂, hp, hcancels₁, hcancels₂, hw, hnot, hmid,
    hfirst, hsecond, hg, hq, hnever, hended.resolve_left fun hgone => ?_⟩
  rw [hgone] at hjob
  cases hjob

end Host

end LanguageHost
