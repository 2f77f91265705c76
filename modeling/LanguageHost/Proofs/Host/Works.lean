import LanguageHost.Proofs.Engine.Works
import LanguageHost.Proofs.Host.Steps

/-!
# Where the calls of a host wait

A call that waits for a worker has a work in the engine, whose token was made from the token of
every race around the call (`Host.Places`).  What a call does by itself gets it to such a place (`Host.Brings`), and what is
done to the engines in the meantime keeps it there (`Host.Acts`).  So the places of all calls are
kept by every event and every run: `Host.Linked`.
-/

namespace LanguageHost

namespace Token

variable {t u v : Token} {fired : List Token}

theorem under_trans (h : t.under u = true) (h' : u.under v = true) : t.under v = true := by
  simp only [under, List.isSuffixOf_iff_suffix] at h h' ⊢
  exact h'.trans h

/-- Where a token has fired, all that were made from it have fired. -/
theorem firedBy_of_under (h : t.under u = true) (hu : u.firedBy fired = true) :
    t.firedBy fired = true := by
  simp only [firedBy, List.any_eq_true] at hu ⊢
  obtain ⟨v, hv, huv⟩ := hu
  exact ⟨v, hv, under_trans h huv⟩

end Token

/-- A frame around a call with a token: a race is for a token that this one was made from, and no
engine is being started or stopped. -/
def Frame.Holds (token : Token) : Frame → Prop
  | .race outer => token.under outer = true
  | .tracked .. => True
  | .starting .. | .stopping .. => False

theorem Frame.Holds.child {token : Token} {f : Frame} (h : f.Holds token) (n : Nat) :
    f.Holds (token.child n) := by
  cases f with
  | race outer => exact Token.child_under n h
  | tracked => trivial
  | starting => exact h
  | stopping => exact h

namespace Host

variable {h h' mid : Host} {r : EngineId} {e e' : Engine} {t : Turn} {c : CallId} {call k : Call}
variable {frames : List Frame} {stage : Stage} {token : Token} {event : HostEvent}
variable {es : List HostEvent}

/-- What may be done to the engines of a host, and which token fires. -/
inductive Acts (h h' : Host) : Prop where
  | intro (token? : Option Token) (hfired : h'.fired = token?.toList ++ h.fired)
      (hengines : ∀ r, Option.Rel (fun e e' => Engine.Acts h.fired e token? e') (h.engine? r)
        (h'.engine? r))

/-- The place of a call that waits for a worker: it has a work in the engine, and all frames around
it are for the token of the work. -/
def Places (h : Host) (frames : List Frame) : Stage → Prop
  | .pooled r t => ∃ e w, h.engine? r = some e ∧ w ∈ e.works ∧ w.ticket = t ∧
      ∀ f ∈ frames, f.Holds w.token
  | _ => True

/-- What a call does by itself gets it to a place. -/
structure Brings (h : Host) (t : Turn) : Prop where
  acts : h.Acts t.host
  calls_eq : t.host.calls = h.calls
  places : t.host.Places t.frames t.stage

theorem nothing_engine (e : Engine) (fired : List Token) : Engine.Acts fired e none e :=
  .nothing rfl rfl

/-- Nothing was done to any engine, and no token has fired. -/
theorem acts_of_eq (hfired : h'.fired = h.fired) (hengines : h'.engines = h.engines) :
    h.Acts h' := by
  refine ⟨none, hfired, fun r => ?_⟩
  rw [engine?, engine?, hengines]
  exact rel_refl (fun e => nothing_engine e h.fired) _

/-- What is done to one engine. -/
theorem acts_setEngine (he : h.engine? r = some e) (ha : Engine.Acts h.fired e none e') :
    h.Acts (h.setEngine r e') := by
  refine ⟨none, rfl, fun s => ?_⟩
  rw [engine?_setEngine]
  split
  · next hs =>
    rw [hs, he]
    exact .some ha
  · exact rel_refl (fun e => nothing_engine e h.fired) _

/-- The same is done to all engines. -/
theorem acts_map {f : Engine → Engine} {token? : Option Token}
    (hf : ∀ e, Engine.Acts h.fired e token? (f e)) (hfired : h'.fired = token?.toList ++ h.fired)
    (hengines : h'.engines = h.engines.map fun g => { g with engine := f g.engine }) :
    h.Acts h' := by
  refine ⟨token?, hfired, fun r => ?_⟩
  rw [engine?, engine?, hengines, List.getElem?_map]
  cases h.engines[r]? with
  | none => exact .none
  | some g => exact .some (hf g.engine)

theorem acts_fire (h : Host) (token : Token) : h.Acts (h.fire token) :=
  acts_map (fun _ => .fires token) rfl rfl

theorem acts_wait (h : Host) (time : Nat) : h.Acts (h.wait time) :=
  acts_map (fun e => e.acts_follow (.wait time) rfl) rfl rfl

/-- An engine that is there before something is done is there afterwards. -/
theorem Acts.engine (ha : h.Acts h') (he : h.engine? r = some e) :
    ∃ token? e', h'.engine? r = some e' ∧ Engine.Acts h.fired e token? e' := by
  obtain ⟨token?, -, hengines⟩ := ha
  have hr := hengines r
  rw [he] at hr
  generalize he' : h'.engine? r = e'? at hr
  cases hr with
  | some hacts => exact ⟨token?, _, rfl, hacts⟩

/-- Only the fired tokens and the engines matter before something is done. -/
theorem Acts.congr (ha : mid.Acts h') (hfired : mid.fired = h.fired)
    (hengines : mid.engines = h.engines) : h.Acts h' := by
  obtain ⟨token?, hfired', hacts⟩ := ha
  refine ⟨token?, hfired ▸ hfired', fun r => ?_⟩
  have hsame : mid.engine? r = h.engine? r := by rw [engine?, engine?, hengines]
  rw [← hfired, ← hsame]
  exact hacts r

theorem Brings.congr (hb : mid.Brings t) (hfired : mid.fired = h.fired)
    (hengines : mid.engines = h.engines) (hcalls : mid.calls = h.calls) : h.Brings t :=
  ⟨hb.acts.congr hfired hengines, hb.calls_eq.trans hcalls, hb.places⟩

/-- A call that has an outcome waits nowhere. -/
theorem brings_over {result : Outcome Json} (ha : h.Acts h') (hcalls : h'.calls = h.calls) :
    h.Brings ⟨h', frames, .over result⟩ := ⟨ha, hcalls, trivial⟩

/-! ### What a call does by itself -/

theorem fired_letPass (h : Host) (g : Guarded) (op : EngineOp) :
    (h.letPass g op).2.fired = h.fired ∧ (h.letPass g op).2.now = h.now := by
  unfold letPass
  split
  · unfold check
    split
    · exact ⟨rfl, rfl⟩
    · exact ⟨rfl, rfl⟩
  · exact ⟨rfl, rfl⟩

/-- Where a call is after an engine was asked. -/
theorem places_stageOf {op : EngineOp} {progress : Progress} (he : h.engine? r = some e)
    (hwork : ∀ t, progress = .pooled t → ∃ w ∈ e.works, w.ticket = t ∧ w.token = token)
    (hframes : ∀ t, progress = .pooled t → ∀ f ∈ frames, f.Holds token) :
    h.Places frames (stageOf r op progress) := by
  cases progress with
  | pooled t =>
    obtain ⟨w, hw, hticket, rfl⟩ := hwork t rfl
    exact ⟨e, w, he, hw, hticket, hframes t rfl⟩
  | done result => trivial
  | acting => trivial
  | preparing settings => trivial

/-- An engine that is asked to do a task has a work for it, if the call waits for a worker. -/
theorem brings_askEngine (h : Host) (r : EngineId) (op : EngineOp) (token : Token)
    (frames : List Frame) (hframes : op.isRun = true → ∀ f ∈ frames, f.Holds token) :
    h.Brings (h.askEngine r op token frames) := by
  unfold askEngine
  split
  · exact brings_over (acts_of_eq rfl rfl) rfl
  · next g hg =>
    obtain ⟨hcalls, -, hengines⟩ := goes_letPass h g op
    obtain ⟨hfired, -⟩ := fired_letPass h g op
    split
    · next err mid hpass =>
      rw [hpass] at hcalls hengines hfired
      exact brings_over (acts_of_eq hfired hengines) hcalls
    · next mid hpass =>
      rw [hpass] at hcalls hengines hfired
      have hmid : mid.engines[r]? = some g := hengines ▸ hg
      have he : (mid.note (.asked r op (mid.hasFired token))).engine? r = some g.engine := by
        simp only [engine?, note, hmid, Option.map_some]
      obtain ⟨hacts, hwork⟩ := g.engine.acts_ask mid.fired op token mid.now
      refine Brings.congr ⟨acts_setEngine he hacts, rfl, ?_⟩ hfired hengines hcalls
      refine places_stageOf (e := (g.engine.ask op token (mid.hasFired token) mid.now).2) ?_
        (fun t ht => (hwork t ht).2) fun t ht => ?_
      · rw [engine?_setEngine, if_pos rfl, he, Option.map_some]
      · obtain ⟨task, rfl⟩ := (hwork t ht).1
        exact hframes rfl

theorem brings_dispatch (h : Host) (name : String) (task : Task) (token : Token)
    (frames : List Frame) (hframes : ∀ f ∈ frames, f.Holds token) :
    h.Brings (h.dispatch name task token frames) := by
  unfold dispatch
  split
  · exact brings_over (acts_of_eq rfl rfl) rfl
  · refine brings_askEngine _ _ _ _ _ fun _ => ?_
    split
    · exact List.forall_mem_cons.mpr ⟨trivial, hframes⟩
    · exact hframes

/-- The token of a call through the bridge is made from the caller's, for which its race is. -/
theorem brings_callBridge (h : Host) (name : String) (args : List Json) (token : Token) :
    h.Brings (h.callBridge name args token) := by
  unfold callBridge
  split
  · exact brings_over (acts_of_eq rfl rfl) rfl
  · split
    · exact brings_over (acts_of_eq rfl rfl) rfl
    · have hinner : ∀ f ∈ [Frame.race token], f.Holds (token.child h.scopes) :=
        List.forall_mem_singleton.mpr (Token.child_under _ (Token.under_self token))
      exact (brings_dispatch _ _ _ _ _ hinner).congr rfl rfl rfl
  · exact ⟨acts_of_eq rfl rfl, rfl, trivial⟩

theorem brings_startNext (h : Host) (token : Token) (entries : List (String × RuntimeSettings))
    (frames : List Frame) : h.Brings (h.startNext token entries frames) := by
  unfold startNext
  split
  · exact brings_over (acts_of_eq rfl rfl) rfl
  · split
    · exact brings_over (acts_of_eq rfl rfl) rfl
    · exact brings_askEngine _ _ _ _ _ nofun

theorem brings_stopNext (h : Host) (token : Token) (entries : List (String × EngineId))
    (failures : List (String × HostError)) (frames : List Frame) :
    h.Brings (h.stopNext token entries failures frames) := by
  unfold stopNext
  split
  · exact brings_over (acts_of_eq rfl rfl) rfl
  · exact brings_askEngine _ _ _ _ _ nofun

theorem brings_begin (h : Host) (request : Request) (token : Token) :
    h.Brings (h.begin request token) := by
  cases request with
  | start => exact brings_startNext _ _ _ _
  | stop => exact brings_stopNext _ _ _ _ _
  | dispatch name task => exact brings_dispatch _ _ _ _ _ nofun
  | bridge name args => exact brings_callBridge _ _ _ _
  | engine r op => exact brings_askEngine _ _ _ _ _ fun _ => nofun

theorem brings_pass (h : Host) (token : Token) (f : Frame) (rest : List Frame)
    (result : Outcome Json) : h.Brings (h.pass token f rest result) := by
  cases f with
  | starting name limit? entries =>
    cases result with
    | ok v => exact brings_startNext _ _ _ _
    | error e => exact brings_over (acts_of_eq rfl rfl) rfl
  | stopping name entries failures =>
    cases result with
    | ok v => exact brings_stopNext _ _ _ _ _
    | error e => exact brings_stopNext _ _ _ _ _
  | _ => exact brings_over (acts_of_eq rfl rfl) rfl

/-! ### What happens at a place -/

theorem acts_leave (h : Host) (stage : Stage) :
    h.Acts (h.leave stage) ∧ (h.leave stage).calls = h.calls := by
  unfold leave
  split
  · split
    · next e he => exact ⟨acts_setEngine he (e.acts_follow _ rfl), rfl⟩
    · exact ⟨acts_of_eq rfl rfl, rfl⟩
  · exact ⟨acts_of_eq rfl rfl, rfl⟩

theorem brings_goOn (hg : h.goOn call = some t) : h.Brings t := by
  unfold goOn at hg
  split at hg
  · simp only [learn, Option.bind_eq_bind, Option.bind_eq_some_iff, Option.pure_def,
      Option.some.injEq] at hg
    obtain ⟨⟨result, h'⟩, ⟨e, he, pool, hpool, answer, -, heq⟩, rfl⟩ := hg
    obtain ⟨rfl, rfl⟩ := Prod.mk.inj heq
    exact brings_over (acts_setEngine he (Engine.acts_withPool hpool rfl)) rfl
  · split at hg
    · obtain ⟨e, he, rfl⟩ := Option.map_eq_some_iff.mp hg
      exact brings_over (acts_setEngine he (.nothing rfl rfl)) rfl
    · cases hg
  · cases hg

theorem brings_resume (hr : h.resume call = some t) : h.Brings t := by
  unfold resume at hr
  split at hr
  · split at hr
    · cases hr
    · cases hr
      exact brings_pass _ _ _ _ _
  · split at hr
    · cases hr
      exact brings_over (acts_leave h _).1 (acts_leave h _).2
    · exact brings_goOn hr

theorem brings_timeOut (ht : h.timeOut call = some t) : h.Brings t := by
  unfold timeOut at ht
  split at ht
  · cases ht
  · obtain ⟨⟨limit, frames⟩, -, rfl⟩ := Option.map_eq_some_iff.mp ht
    exact brings_over (acts_leave h _).1 (acts_leave h _).2

theorem brings_returned (hr : h.returned call = some t) : h.Brings t := by
  obtain ⟨f, token, args, -, rfl⟩ := of_returned hr
  split
  · exact brings_over (acts_of_eq rfl rfl) rfl
  · exact ⟨acts_of_eq rfl rfl, rfl, trivial⟩

theorem brings_finished {result : Outcome Json} (hf : h.finished call result = some t) :
    h.Brings t := by
  obtain ⟨-, rfl⟩ := of_finished hf
  exact brings_over (acts_of_eq rfl rfl) rfl

theorem brings_acted {result : Outcome Json} (ha : h.acted call result = some t) :
    h.Brings t := by
  unfold acted at ha
  split at ha
  · cases ha
    exact brings_over (acts_of_eq rfl rfl) rfl
  · cases ha

theorem brings_prepared {report : Outcome StartReport} (hp : h.prepared call report = some t) :
    h.Brings t := by
  unfold prepared at hp
  split at hp
  · obtain ⟨e, he, rfl⟩ := Option.map_eq_some_iff.mp hp
    exact brings_over (acts_setEngine he (e.acts_prepared _ _ _)) rfl
  · cases hp

/-! ### What an event does -/

/-- Where an event gets a call that it is about. -/
def turn? (h : Host) (k : Call) : HostEvent → Option Turn
  | .resume _ => h.resume k
  | .timeOut _ => h.timeOut k
  | .acted _ result => h.acted k result
  | .prepared _ report => h.prepared k report
  | .returned _ => h.returned k
  | .finished _ result => h.finished k result
  | _ => none

/-- What an event does to the calls and the engines of a host. -/
inductive Handles (h : Host) : HostEvent → Host → Prop where
  | ask (request : Request) (token : Token) : Handles h (.ask request token) (h.ask request token)
  /-- A call gets somewhere. -/
  | turn {event : HostEvent} {k : Call} {t : Turn} (hk : h.call? k.id = some k)
      (hself : ∀ c, event = .resume c → c = k.id) (hturn : h.turn? k event = some t)
      (hb : h.Brings t) : Handles h event (settle t k)
  | drop {event : HostEvent} {k : Call} (hevent : event = .drop k.id ∨ event = .panicked k.id)
      (hk : h.call? k.id = some k) : Handles h event (h.drop k)
  | make (e : Engine) (guard? : Option EnforcerId) :
      Handles h (.make e guard?) (h.make e guard?).2
  /-- What has nothing to do with a call. -/
  | aside {event : HostEvent} {h' : Host} (hcalls : h'.calls = h.calls) (ha : h.Acts h') :
      Handles h event h'

/-- The places of all calls, and the works of all engines. -/
structure Linked (h : Host) : Prop where
  engines : ∀ r e, h.engine? r = some e → e.Linked h.fired
  calls : ∀ k ∈ h.calls, h.Places k.frames k.stage

theorem handles_forCall {f : Call → Option Turn} (event : CallId → HostEvent)
    (hevent : ∀ c d, event c = .resume d → c = d) (hturn : ∀ k c, h.turn? k (event c) = f k)
    (hb : ∀ k t, f k = some t → h.Brings t) (hs : h.forCall c f = some h') :
    h.Handles (event c) h' := by
  simp only [forCall, Option.bind_eq_bind, Option.bind_eq_some_iff, Option.pure_def,
    Option.some.injEq] at hs
  obtain ⟨k, hk, t, ht, rfl⟩ := hs
  obtain ⟨-, rfl⟩ := mem_of_call? hk
  exact .turn hk (fun d hd => (hevent _ _ hd).symm) ((hturn k k.id).trans ht) (hb k t ht)

theorem handles_forEngine {f : Engine → Option Engine}
    (hf : ∀ e e', f e = some e' → Engine.Acts h.fired e none e')
    (hs : h.forEngine r f = some h') : h.Handles event h' := by
  simp only [forEngine, Option.bind_eq_bind, Option.bind_eq_some_iff, Option.pure_def,
    Option.some.injEq] at hs
  obtain ⟨e, he, e', he', rfl⟩ := hs
  exact .aside rfl (acts_setEngine he (hf e e' he'))

theorem handles_of_step (hs : h.step event = some h') : h.Handles event h' := by
  cases event with
  | ask request token =>
    cases hs
    exact .ask request token
  | fire token =>
    cases hs
    exact .aside rfl (acts_fire h token)
  | resume c =>
    exact handles_forCall .resume (fun _ _ heq => HostEvent.resume.inj heq) (fun _ _ => rfl)
      (fun _ _ => brings_resume) hs
  | timeOut c =>
    exact handles_forCall .timeOut nofun (fun _ _ => rfl) (fun _ _ => brings_timeOut) hs
  | drop c =>
    obtain ⟨k, hk, rfl⟩ := Option.map_eq_some_iff.mp hs
    obtain ⟨-, rfl⟩ := mem_of_call? hk
    exact .drop (.inl rfl) hk
  | acted c result =>
    exact handles_forCall (.acted · result) nofun (fun _ _ => rfl) (fun _ _ => brings_acted) hs
  | prepared c report =>
    exact handles_forCall (.prepared · report) nofun (fun _ _ => rfl)
      (fun _ _ => brings_prepared) hs
  | returned c =>
    exact handles_forCall .returned nofun (fun _ _ => rfl) (fun _ _ => brings_returned) hs
  | finished c result =>
    exact handles_forCall (.finished · result) nofun (fun _ _ => rfl)
      (fun _ _ => brings_finished) hs
  | panicked c =>
    obtain ⟨k, f, token, args, hk, -, rfl⟩ := of_step_panicked hs
    obtain ⟨-, rfl⟩ := mem_of_call? hk
    exact .drop (.inr rfl) hk
  | pool r pe =>
    simp only [step] at hs
    split at hs
    · next hinner =>
      have htame : pe.isUnruly = false := by cases pe <;> first | rfl | cases hinner
      exact handles_forEngine (fun _ _ => Engine.acts_poolStep htame) hs
    · cases hs
  | workEnds r ticket report =>
    exact handles_forEngine (fun _ _ => Engine.acts_workEnds) hs
  | make e guard? =>
    cases hs
    exact .make e guard?
  | register r =>
    cases hs
    unfold register
    split
    · exact .aside rfl (acts_of_eq rfl rfl)
    · split <;> exact .aside rfl (acts_of_eq rfl rfl)
  | wait time =>
    simp only [step] at hs
    split at hs
    · cases hs
      exact .aside rfl (acts_wait h time)
    · cases hs
  | _ =>
    cases hs
    exact .aside rfl (acts_of_eq rfl rfl)

/-! ### Calls keep their places -/

/-- Whatever is done to the engines, a call that waits keeps its place. -/
theorem Places.acts (hp : h.Places frames stage) (ha : h.Acts h') : h'.Places frames stage := by
  cases stage with
  | pooled r t =>
    obtain ⟨e, w, he, hw, hticket, hframes⟩ := hp
    obtain ⟨token?, e', he', hacts⟩ := ha.engine he
    exact ⟨e', w, he', hacts.works_subset hw, hticket, hframes⟩
  | _ => trivial

/-- A place is a place in the engines. -/
theorem Places.congr (hp : h.Places frames stage) (hengines : ∀ r e, h.engine? r = some e →
    h'.engine? r = some e) : h'.Places frames stage := by
  cases stage with
  | pooled r t =>
    obtain ⟨e, w, he, hw, hticket, hframes⟩ := hp
    exact ⟨e, w, hengines r e he, hw, hticket, hframes⟩
  | _ => trivial

theorem Acts.engines_linked (ha : h.Acts h')
    (hl : ∀ r e, h.engine? r = some e → e.Linked h.fired) :
    ∀ r e, h'.engine? r = some e → e.Linked h'.fired := by
  obtain ⟨token?, hfired, hengines⟩ := ha
  intro r e' he'
  have hr := hengines r
  rw [he'] at hr
  generalize he : h.engine? r = e? at hr
  cases hr with
  | some hacts =>
    rw [hfired]
    exact (hl r _ he).acts hacts

theorem Linked.settle (hl : h.Linked) (hb : h.Brings t) (k : Call) : (settle t k).Linked := by
  refine ⟨hb.acts.engines_linked hl.engines, fun j hj => ?_⟩
  obtain ⟨i, hi, rfl⟩ := List.mem_map.mp hj
  have hplace : ∀ {frames stage}, t.host.Places frames stage →
      (Host.settle t k).Places frames stage := fun hp => hp.congr fun _ _ he => he
  split
  · exact hplace hb.places
  · exact hplace ((hl.calls i (hb.calls_eq ▸ hi)).acts hb.acts)

theorem Linked.aside (hl : h.Linked) (hcalls : h'.calls = h.calls) (ha : h.Acts h') : h'.Linked :=
  ⟨ha.engines_linked hl.engines, fun k hk => (hl.calls k (hcalls ▸ hk)).acts ha⟩

theorem brings_ask (h : Host) (request : Request) (token : Token) :
    h.Brings ({ h with asked := h.asked + 1 }.begin request token) :=
  (brings_begin { h with asked := h.asked + 1 } request token).congr rfl rfl rfl

theorem Linked.ask (hl : h.Linked) (request : Request) (token : Token) :
    (h.ask request token).Linked := by
  have hb := brings_ask h request token
  have hplace : ∀ {frames stage},
      ({ h with asked := h.asked + 1 }.begin request token).host.Places frames stage →
        (h.ask request token).Places frames stage := fun hp => hp.congr fun _ _ he => he
  refine ⟨hb.acts.engines_linked hl.engines, fun k hk => ?_⟩
  rcases List.mem_cons.mp hk with rfl | hk
  · exact hplace hb.places
  · exact hplace ((hl.calls k (hb.calls_eq ▸ hk)).acts hb.acts)

theorem Linked.drop (hl : h.Linked) (k : Call) : (h.drop k).Linked := by
  obtain ⟨ha, hcalls⟩ := acts_leave h k.stage
  have hleft := hl.aside hcalls ha
  exact ⟨hleft.engines, fun j hj =>
    (hleft.calls j (List.mem_of_mem_filter hj)).congr fun _ _ he => he⟩

/-- An engine that is made leaves the others where they are. -/
theorem engine?_make_of_some (he : h.engine? r = some e) (new : Engine)
    (guard? : Option EnforcerId) : (h.make new guard?).2.engine? r = some e := by
  obtain ⟨g, hg, rfl⟩ := Option.map_eq_some_iff.mp he
  have hlt : r < h.engines.length := (List.getElem?_eq_some_iff.mp hg).1
  rw [engine?, make, List.getElem?_append_left hlt, hg, Option.map_some]

/-- An engine that is made is the only new one. -/
theorem engine_of_make {new : Engine} {guard? : Option EnforcerId}
    (he : (h.make new guard?).2.engine? r = some e) : h.engine? r = some e ∨ e = new := by
  obtain ⟨g, hg, rfl⟩ := Option.map_eq_some_iff.mp he
  rw [make, List.getElem?_append] at hg
  split at hg
  · exact .inl (by rw [engine?, hg, Option.map_some])
  · have hnew : g = ⟨new, guard?⟩ := by simpa using List.mem_of_getElem? hg
    exact .inr (by rw [hnew])

theorem Linked.make (hl : h.Linked) (hnew : e.lifecycle = .new e.name) (hworks : e.works = [])
    (guard? : Option EnforcerId) : (h.make e guard?).2.Linked := by
  refine ⟨fun r e' he' => ?_, fun k hk => ?_⟩
  · rcases engine_of_make he' with he | rfl
    · exact hl.engines r e' he
    · exact Engine.linked_new hnew hworks
  · exact (hl.calls k hk).congr fun r e' he' => engine?_make_of_some he' e guard?

theorem linked_step (hl : h.Linked)
    (hmade : ∀ e guard?, event = .make e guard? → e.lifecycle = .new e.name ∧ e.works = [])
    (hs : h.step event = some h') : h'.Linked := by
  cases handles_of_step hs with
  | ask request token => exact hl.ask request token
  | turn _ _ _ hb => exact hl.settle hb _
  | drop => exact hl.drop _
  | make e guard? =>
    obtain ⟨hnew, hworks⟩ := hmade e guard? rfl
    exact hl.make hnew hworks guard?
  | aside hcalls ha => exact hl.aside hcalls ha

theorem linked_new {config : HostConfig} (hnew : new config = .ok h) : h.Linked := by
  obtain rfl := eq_of_new hnew
  exact ⟨fun r e he => by simp [engine?] at he, nofun⟩

/-- Every engine is new when it is made. -/
def MakesNew (es : List HostEvent) : Prop :=
  ∀ e guard?, .make e guard? ∈ es → e.lifecycle = .new e.name ∧ e.works = []

theorem MakesNew.of_cons (hmade : MakesNew (event :: es)) : MakesNew [event] ∧ MakesNew es :=
  ⟨fun e guard? he => hmade e guard? (List.mem_singleton.mp he ▸ List.mem_cons_self),
    fun e guard? he => hmade e guard? (List.mem_cons_of_mem _ he)⟩

theorem MakesNew.ask (hmade : MakesNew es) (request : Request) (token : Token) :
    MakesNew (.ask request token :: es) := fun e guard? he => by
  rcases List.mem_cons.mp he with heq | he
  · cases heq
  · exact hmade e guard? he

theorem linked_run (hl : h.Linked) (hmade : MakesNew es) (hr : h.run es = some h') : h'.Linked :=
  plays.induction (motive := Linked) hl
    (fun _ _ _ he hl hs => linked_step hl (fun e guard? heq => hmade e guard? (heq ▸ he)) hs) hr

/-! ### Tokens stay fired -/

theorem Acts.fired_subset (ha : h.Acts h') : h.fired ⊆ h'.fired := by
  obtain ⟨token?, hfired, -⟩ := ha
  rw [hfired]
  exact List.subset_append_right _ _

theorem Handles.fired_subset (hh : h.Handles event h') : h.fired ⊆ h'.fired := by
  cases hh with
  | ask request token => exact (brings_ask h request token).acts.fired_subset
  | turn _ _ _ hb => exact hb.acts.fired_subset
  | drop => exact (acts_leave h _).1.fired_subset
  | make => exact fun _ hmem => hmem
  | aside _ ha => exact ha.fired_subset

/-- A token that has fired stays so in every run. -/
theorem fired_subset_of_run (hr : h.run es = some h') : h.fired ⊆ h'.fired :=
  plays.induction (motive := fun g => h.fired ⊆ g.fired) (fun _ hmem => hmem)
    (fun _ _ _ _ hsub hs _ hmem => (handles_of_step hs).fired_subset (hsub hmem)) hr

theorem hasFired_of_subset (hsub : h.fired ⊆ h'.fired) (hσ : h'.hasFired σ = false) :
    h.hasFired σ = false := by
  simp only [hasFired, Token.firedBy, List.any_eq_false] at hσ ⊢
  exact fun u hu => hσ u (hsub hu)

/-! ### Pools go on -/

/-- What an event does to an engine that is there. -/
theorem Handles.engine (hh : h.Handles event h') (he : h.engine? r = some e) :
    ∃ token? e', h'.engine? r = some e' ∧ Engine.Acts h.fired e token? e' := by
  cases hh with
  | ask request token => exact (brings_ask h request token).acts.engine he
  | turn _ _ _ hb => exact hb.acts.engine he
  | drop => exact (acts_leave h _).1.engine he
  | make new guard? => exact ⟨none, e, engine?_make_of_some he new guard?, nothing_engine e _⟩
  | aside _ ha => exact ha.engine he

/-- The pool of an engine. -/
def pool? (h : Host) (r : EngineId) : Option Pool := (h.engine? r).bind Engine.pool?

/-- A pool goes on with every event, and a job that has come to its end did so in a step. -/
theorem Handles.pool {p : Pool} (hh : h.Handles event h') (hp : h.pool? r = some p) :
    ∃ q, h'.pool? r = some q ∧ p.LeadsTo q ∧ ∀ t, (p.job? t).isSome → q.job? t = none →
      ∃ pe, pe.isUnruly = false ∧ p.step pe = some q := by
  obtain ⟨e, he, hpool⟩ := Option.bind_eq_some_iff.mp hp
  obtain ⟨token?, e', he', hacts⟩ := hh.engine he
  obtain ⟨q, hq, hleads⟩ := hacts.pool hpool
  exact ⟨q, Option.bind_eq_some_iff.mpr ⟨e', he', hq⟩, hleads⟩

theorem pool_run {p : Pool} (hl : h.Linked) (hmade : MakesNew es) (hp : h.pool? r = some p)
    (hr : h.run es = some h') : ∃ q, h'.pool? r = some q ∧ p.LeadsTo q := by
  refine (plays.induction (motive := fun g => g.Linked ∧ ∃ q, g.pool? r = some q ∧ p.LeadsTo q)
    ⟨hl, p, hp, .refl p⟩ (fun g event g' he hg hs => ?_) hr).2
  obtain ⟨hl, q, hq, hleads⟩ := hg
  obtain ⟨q', hq', hleads', -⟩ := (handles_of_step hs).pool hq
  exact ⟨linked_step hl (fun e guard? heq => hmade e guard? (heq ▸ he)) hs, q', hq',
    hleads.trans hleads'⟩

end Host

end LanguageHost
