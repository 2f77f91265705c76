import LanguageHost.Proofs.Engine.Tokens
import LanguageHost.Proofs.Host.Works

/-!
# What the tokens of works are looked at for

The works of the engines have tokens, and nothing but a token that fires looks at them.  So a host
is seen through a function that does not tell some tokens apart (`Host.blur`), and without its
calls, which are looked at only by the events that are about them.  What a host does can be seen so
as well: two hosts that look alike look alike after each of its functions, as long as whatever fires
takes along the same works.  There is one lemma for each function of a host.
-/

namespace LanguageHost

/-- A guarded engine whose works have other tokens. -/
def Guarded.mapTokens (f : Token → Token) (g : Guarded) : Guarded :=
  { g with engine := g.engine.mapTokens f }

/-- A host without its calls, with other tokens of works. -/
def Host.blur (f : Token → Token) (h : Host) : Host :=
  { h with engines := h.engines.map (Guarded.mapTokens f), calls := [] }

/-- A turn of a host that is seen so. -/
def Turn.blur (f : Token → Token) (t : Turn) : Turn := { t with host := t.host.blur f }

theorem Host.blur_blur {f : Token → Token} (hf : ∀ t, f (f t) = f t) (h : Host) :
    (h.blur f).blur f = h.blur f := by
  have htwice : Guarded.mapTokens f ∘ Guarded.mapTokens f = Guarded.mapTokens f := by
    funext g
    simp only [Function.comp_apply, Guarded.mapTokens, Engine.mapTokens_mapTokens hf]
  simp only [blur, List.map_map, htwice]

theorem Turn.blur_blur {f : Token → Token} (hf : ∀ t, f (f t) = f t) (t : Turn) :
    (t.blur f).blur f = t.blur f :=
  congrArg (fun h => (⟨h, t.frames, t.stage⟩ : Turn)) (Host.blur_blur hf t.host)

theorem Turn.map_blur_blur {f : Token → Token} (hf : ∀ t, f (f t) = f t) (t? : Option Turn) :
    (t?.map (Turn.blur f)).map (Turn.blur f) = t?.map (Turn.blur f) := by
  rw [Option.map_map]
  exact congrArg (fun g => t?.map g) (funext fun t => Turn.blur_blur hf t)

namespace Host

variable {f : Token → Token} {token token' : Token} {r : EngineId} {frames : List Frame}

/-! ### Small changes -/

theorem getElem?_blur (f : Token → Token) (h : Host) (r : EngineId) :
    (h.blur f).engines[r]? = (h.engines[r]?).map (Guarded.mapTokens f) := List.getElem?_map ..

theorem engine?_blur (f : Token → Token) (h : Host) (r : EngineId) :
    (h.blur f).engine? r = (h.engine? r).map (Engine.mapTokens f) := by
  rw [engine?, getElem?_blur, engine?, Option.map_map, Option.map_map]
  rfl

theorem blur_setEngine (f : Token → Token) (h : Host) (r : EngineId) (e : Engine) :
    (h.setEngine r e).blur f = (h.blur f).setEngine r (e.mapTokens f) := by
  have hengines : (h.engines.modify r fun g => { g with engine := e }).map (Guarded.mapTokens f) =
      (h.engines.map (Guarded.mapTokens f)).modify r
        fun g => { g with engine := e.mapTokens f } := by
    refine List.ext_getElem? fun i => ?_
    simp only [List.getElem?_map, List.getElem?_modify]
    cases h.engines[i]? with
    | none => rfl
    | some g => by_cases hi : r = i <;> simp [hi, Guarded.mapTokens]
  exact congrArg (fun engines => ({ h with engines, calls := [] } : Host)) hengines

/-- The same is done to all engines. -/
theorem map_blur (change : Engine → Engine)
    (hchange : ∀ e, change (e.mapTokens f) = (change e).mapTokens f) (h : Host) :
    (h.blur f).engines.map (fun g => { g with engine := change g.engine }) =
      (h.engines.map fun g => { g with engine := change g.engine }).map (Guarded.mapTokens f) := by
  simp only [blur, List.map_map]
  refine List.map_congr_left fun g _ => ?_
  simp only [Function.comp_apply, Guarded.mapTokens, hchange]

theorem wait_blur (f : Token → Token) (h : Host) (time : Nat) :
    (h.blur f).wait time = (h.wait time).blur f := by
  have hengines := map_blur (f := f) (fun e => e.wait time) (fun _ => rfl) h
  exact congrArg (fun engines => ({ h with now := time, engines, calls := [] } : Host)) hengines

theorem fire_blur (hf : ∀ t, (f t).under token = t.under token) (h : Host) :
    (h.blur f).fire token = (h.fire token).blur f := by
  have hengines := map_blur (fun e => e.fire token) (Engine.fire_mapTokens hf) h
  let change (engines : List Guarded) : Host :=
    { h with fired := token :: h.fired, engines, calls := [] }
  exact congrArg change hengines

theorem letPass_blur (f : Token → Token) (h : Host) (g : Guarded) (op : EngineOp) :
    (h.blur f).letPass (g.mapTokens f) op = ((h.letPass g op).1, (h.letPass g op).2.blur f) := by
  cases op with
  | run task =>
    have henforcer : ((g.mapTokens f).guard?.bind fun k => (h.blur f).enforcers[k]?) =
        g.guard?.bind fun k => h.enforcers[k]? := rfl
    simp only [letPass, check, henforcer]
    split
    · rfl
    · rfl
  | start settings => rfl
  | stop => rfl

/-! ### What a call does by itself -/

/-- An engine that is asked with another token does the same, if the works do not tell the tokens
apart and neither has fired without the other. -/
theorem askEngine_blur (hf : ∀ t, f (f t) = f t) (h : Host) (r : EngineId) (op : EngineOp)
    (htoken : f token' = f token) (hfired : h.hasFired token' = h.hasFired token) :
    ((h.blur f).askEngine r op token' frames).blur f =
      (h.askEngine r op token frames).blur f := by
  unfold askEngine
  rw [getElem?_blur]
  cases h.engines[r]? with
  | none => exact congrArg (fun h => (⟨h, frames, .over (.ok .null)⟩ : Turn)) (blur_blur hf h)
  | some g =>
    have hmid : (h.letPass g op).2.hasFired token' = (h.letPass g op).2.hasFired token := by
      rw [hasFired, hasFired, (fired_letPass h g op).1]
      exact hfired
    simp only [Option.map_some, letPass_blur]
    generalize h.letPass g op = passed at hmid
    obtain ⟨result, mid⟩ := passed
    cases result with
    | error err =>
      exact congrArg (fun h => (⟨h, frames, .over (.error err)⟩ : Turn)) (blur_blur hf mid)
    | ok u =>
      have hsame : (mid.blur f).hasFired token' = mid.hasFired token := hmid
      let fired := mid.hasFired token
      have hasked : (g.mapTokens f).engine.ask op token' fired (mid.blur f).now =
          (g.engine.mapTokens f).ask op token' fired mid.now := rfl
      have hnoted : ((mid.blur f).note (.asked r op fired)).blur f =
          (mid.note (.asked r op fired)).blur f := blur_blur hf (mid.note (.asked r op fired))
      obtain ⟨hprogress, hengine⟩ :=
        g.engine.ask_mapTokens_of_eq hf htoken op fired mid.now
      simp only [Turn.blur, blur_setEngine, hsame, hasked, hprogress, hengine, hnoted, fired]

theorem dispatch_blur (hf : ∀ t, f (f t) = f t) (h : Host) (name : String) (task : Task)
    (htoken : f token' = f token) (hfired : h.hasFired token' = h.hasFired token) :
    ((h.blur f).dispatch name task token' frames).blur f =
      (h.dispatch name task token frames).blur f := by
  have hregistry : (h.blur f).registry = h.registry := rfl
  unfold dispatch
  rw [hregistry]
  split
  · exact Turn.blur_blur hf ⟨h, frames, .over (.error (.runtimeNotFound name))⟩
  · exact askEngine_blur hf h _ _ htoken hfired

theorem callBridge_blur (hf : ∀ t, f (f t) = f t) (h : Host) (name : String) (args : List Json)
    (token : Token) :
    ((h.blur f).callBridge name args token).blur f = (h.callBridge name args token).blur f := by
  have hbridge : (h.blur f).bridge = h.bridge := rfl
  have hfired : (h.blur f).hasFired token = h.hasFired token := rfl
  let later : Host := { h with scopes := h.scopes + 1 }
  unfold callBridge
  rw [hbridge, hfired]
  split
  · exact Turn.blur_blur hf ⟨h, [], .over (.error (.functionNotFound name))⟩
  · split
    · exact Turn.blur_blur hf ⟨h, [], .over (.error .operationCancelled)⟩
    · exact dispatch_blur hf later _ _ rfl rfl
  · next g _ => exact Turn.blur_blur hf ⟨later, [], .called g (token.child h.scopes) args⟩

theorem startNext_blur (hf : ∀ t, f (f t) = f t) (h : Host) (token : Token)
    (entries : List (String × RuntimeSettings)) (frames : List Frame) :
    ((h.blur f).startNext token entries frames).blur f =
      (h.startNext token entries frames).blur f := by
  have hregistry : (h.blur f).registry = h.registry := rfl
  unfold startNext
  split
  · exact Turn.blur_blur hf ⟨h, frames, .over (.ok .null)⟩
  · next name settings rest =>
    rw [hregistry]
    split
    · exact Turn.blur_blur hf ⟨h, frames, .over (.error (.runtimeNotRegistered name))⟩
    · exact askEngine_blur hf h _ _ rfl rfl

theorem stopNext_blur (hf : ∀ t, f (f t) = f t) (h : Host) (token : Token)
    (entries : List (String × EngineId)) (failures : List (String × HostError))
    (frames : List Frame) :
    ((h.blur f).stopNext token entries failures frames).blur f =
      (h.stopNext token entries failures frames).blur f := by
  unfold stopNext
  split
  · exact Turn.blur_blur hf ⟨h, frames, .over _⟩
  · exact askEngine_blur hf h _ _ rfl rfl

theorem begin_blur (hf : ∀ t, f (f t) = f t) (h : Host) (request : Request) (token : Token) :
    ((h.blur f).begin request token).blur f = (h.begin request token).blur f := by
  cases request with
  | start => exact startNext_blur hf h token _ []
  | stop => exact stopNext_blur hf h token _ [] []
  | dispatch name task => exact dispatch_blur hf h name task rfl rfl
  | bridge name args => exact callBridge_blur hf h name args token
  | engine r op => exact askEngine_blur hf h r op rfl rfl

theorem pass_blur (hf : ∀ t, f (f t) = f t) (h : Host) (token : Token) (frame : Frame)
    (rest : List Frame) (result : Outcome Json) :
    ((h.blur f).pass token frame rest result).blur f =
      (h.pass token frame rest result).blur f := by
  cases frame with
  | starting name limit? entries =>
    cases result with
    | ok v => exact startNext_blur hf h token entries rest
    | error err => exact Turn.blur_blur hf ⟨h, rest, _⟩
  | stopping name entries failures =>
    cases result with
    | ok v => exact stopNext_blur hf h token entries failures rest
    | error err => exact stopNext_blur hf h token entries _ rest
  | race outer => exact Turn.blur_blur hf (h.pass token (.race outer) rest result)
  | tracked runtime function since =>
    exact Turn.blur_blur hf (h.pass token (.tracked runtime function since) rest result)

theorem leave_blur (f : Token → Token) (h : Host) (stage : Stage) :
    (h.blur f).leave stage = (h.leave stage).blur f := by
  cases stage with
  | pooled r t =>
    simp only [leave, engine?_blur]
    cases h.engine? r with
    | none => rfl
    | some e =>
      exact (blur_setEngine f h r (e.withPool fun p => p.follow (.withdraw t))).symm
  | _ => rfl

theorem learn_blur (f : Token → Token) (h : Host) (r : EngineId) (t : Ticket) :
    (h.blur f).learn r t = (h.learn r t).map fun learnt => (learnt.1, learnt.2.blur f) := by
  unfold learn
  rw [engine?_blur]
  cases h.engine? r with
  | none => rfl
  | some e =>
    have hpool : (e.mapTokens f).pool? = e.pool? := rfl
    simp only [Option.map_some, Option.bind_eq_bind, Option.bind_some, hpool]
    cases e.pool? with
    | none => rfl
    | some pool =>
      simp only [Option.bind_some]
      cases (pool.follow (.learn t)).answer? t with
      | none => rfl
      | some result =>
        let learnt := e.withPool fun _ => pool.follow (.learn t)
        exact congrArg (fun h => some (result, h)) (blur_setEngine f h r learnt).symm

theorem goOn_blur (f : Token → Token) (h : Host) (k : Call) :
    (h.blur f).goOn k = (h.goOn k).map (Turn.blur f) := by
  have hfired : (h.blur f).hasFired = h.hasFired := rfl
  unfold goOn
  split
  · next r t _ =>
    rw [learn_blur]
    cases h.learn r t with
    | none => rfl
    | some learnt => rfl
  · next r settings _ =>
    rw [hfired, engine?_blur]
    split
    · cases h.engine? r with
      | none => rfl
      | some e =>
        exact congrArg (fun h => some (⟨h, k.frames, .over (.error .operationCancelled)⟩ : Turn))
          (blur_setEngine f h r e.abandonStart).symm
    · rfl
  · rfl

theorem resume_blur (hf : ∀ t, f (f t) = f t) (h : Host) (k : Call) :
    ((h.blur f).resume k).map (Turn.blur f) = (h.resume k).map (Turn.blur f) := by
  have hfired : (h.blur f).hasFired = h.hasFired := rfl
  unfold resume
  split
  · split
    · rfl
    · exact congrArg some (pass_blur hf h k.token _ _ _)
  · rw [hfired]
    split
    · rw [leave_blur]
      exact congrArg some (Turn.blur_blur hf ⟨_, _, _⟩)
    · rw [goOn_blur]
      exact Turn.map_blur_blur hf (h.goOn k)

theorem timeOut_blur (f : Token → Token) (h : Host) (k : Call) :
    (h.blur f).timeOut k = (h.timeOut k).map (Turn.blur f) := by
  have hnow : (h.blur f).now = h.now := rfl
  unfold timeOut
  split
  · rfl
  · rw [hnow, leave_blur, Option.map_map]
    rfl

theorem returned_blur (f : Token → Token) (h : Host) (k : Call) :
    (h.blur f).returned k = (h.returned k).map (Turn.blur f) := by
  have hfired : (h.blur f).hasFired = h.hasFired := rfl
  unfold returned
  rw [hfired]
  split
  · split
    · rfl
    · rfl
  · rfl

theorem finished_blur (f : Token → Token) (h : Host) (k : Call) (result : Outcome Json) :
    (h.blur f).finished k result = (h.finished k result).map (Turn.blur f) := by
  unfold finished
  split
  · rfl
  · rfl

theorem acted_blur (f : Token → Token) (h : Host) (k : Call) (result : Outcome Json) :
    (h.blur f).acted k result = (h.acted k result).map (Turn.blur f) := by
  unfold acted
  split
  · rfl
  · rfl

theorem prepared_blur (f : Token → Token) (h : Host) (k : Call) (report : Outcome StartReport) :
    (h.blur f).prepared k report = (h.prepared k report).map (Turn.blur f) := by
  have hnow : (h.blur f).now = h.now := rfl
  unfold prepared
  split
  · next r settings _ =>
    rw [engine?_blur, hnow]
    cases h.engine? r with
    | none => rfl
    | some e =>
      simp only [Option.map_some, Engine.prepared_mapTokens, Turn.blur, blur_setEngine]
  · rfl

/-! ### Events about no call -/

theorem forEngine_blur (h : Host) (r : EngineId) {change : Engine → Option Engine}
    (hchange : ∀ e, change (e.mapTokens f) = (change e).map (Engine.mapTokens f)) :
    (h.blur f).forEngine r change = (h.forEngine r change).map (Host.blur f) := by
  unfold forEngine
  rw [engine?_blur]
  cases h.engine? r with
  | none => rfl
  | some e =>
    simp only [Option.map_some, Option.bind_eq_bind, Option.bind_some, hchange]
    cases change e with
    | none => rfl
    | some e' => exact congrArg some (blur_setEngine f h r e').symm

theorem register_blur (f : Token → Token) (h : Host) (r : EngineId) :
    ((h.blur f).register r).2 = (h.register r).2.blur f := by
  have hregistry : (h.blur f).registry = h.registry := rfl
  unfold register
  rw [engine?_blur, hregistry]
  cases h.engine? r with
  | none => rfl
  | some e =>
    have hname : (e.mapTokens f).name = e.name := rfl
    simp only [Option.map_some, hname]
    split
    · rfl
    · rfl

theorem make_blur (hf : ∀ t, f (f t) = f t) (h : Host) (e : Engine) (guard? : Option EnforcerId) :
    ((h.blur f).make e guard?).2.blur f = (h.make e guard?).2.blur f := by
  let g : Guarded := ⟨e, guard?⟩
  have hengines : ((h.blur f).engines ++ [g]).map (Guarded.mapTokens f) =
      (h.engines ++ [g]).map (Guarded.mapTokens f) := by
    rw [List.map_append, List.map_append]
    exact congrArg (· ++ _) (congrArg Host.engines (blur_blur hf h))
  exact congrArg (fun engines => ({ h with engines, calls := [] } : Host)) hengines

/-- An event that is about no call does the same, if the works do not tell the token apart that it
fires. -/
theorem step_blur (hf : ∀ t, f (f t) = f t) (h : Host) {event : HostEvent}
    (hevent : event.isOfCall = false)
    (hfires : ∀ token, event = .fire token → ∀ t, (f t).under token = t.under token) :
    ((h.blur f).step event).map (Host.blur f) = (h.step event).map (Host.blur f) := by
  have htwice : ∀ changed : Option Host,
      (changed.map (Host.blur f)).map (Host.blur f) = changed.map (Host.blur f) := fun changed => by
    rw [Option.map_map]
    exact congrArg (fun g => changed.map g) (funext fun g => blur_blur hf g)
  cases event with
  | fire token =>
    have hfire : (h.blur f).fire token = (h.fire token).blur f := fire_blur (hfires token rfl) h
    exact congrArg some ((congrArg (Host.blur f) hfire).trans (blur_blur hf _))
  | pool r pe =>
    simp only [step]
    split
    · rw [forEngine_blur h r fun e => Engine.poolStep_mapTokens f e pe]
      exact htwice _
    · rfl
  | workEnds r t report =>
    simp only [step]
    rw [forEngine_blur h r fun e => Engine.workEnds_mapTokens f e t report]
    exact htwice _
  | make e guard? => exact congrArg some (make_blur hf h e guard?)
  | register r =>
    simp only [step, register_blur]
    exact htwice (some _)
  | wait time =>
    have hnow : (h.blur f).now = h.now := rfl
    simp only [step, hnow]
    split
    · rw [wait_blur]
      exact htwice (some _)
    · rfl
  | makeEnforcer policy => exact htwice (h.step (.makeEnforcer policy))
  | enforce g active => exact htwice (h.step (.enforce g active))
  | update g policy => exact htwice (h.step (.update g policy))
  | bridgeRegister name a => exact htwice (h.step (.bridgeRegister name a))
  | bridgeUnregister name => exact htwice (h.step (.bridgeUnregister name))
  | profile enabled => exact htwice (h.step (.profile enabled))
  | resetProfiler => exact htwice (h.step .resetProfiler)
  | _ => cases hevent

end Host

end LanguageHost
