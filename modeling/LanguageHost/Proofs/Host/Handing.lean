import LanguageHost.Proofs.Host.Tracked
import LanguageHost.Proofs.Runs

/-!
# Tasks that are handed to engines

A host hands a task to an engine when a call asks for it directly, under the name of the engine, or
through a function of the bridge that forwards to it.  `Host.handed?` tells which task an event
hands to which engine.  Whatever a call does by itself either is the asking of that engine or hands
nothing on: `Host.Leads`, with one lemma for each function of a host.
-/

namespace LanguageHost

/-- Whether an event is about a call. -/
def HostEvent.isOfCall : HostEvent → Bool
  | .ask .. | .resume _ | .timeOut _ | .drop _ | .acted .. | .prepared .. | .returned _
  | .finished .. | .panicked _ => true
  | _ => false

/-- Whether an engine is asked to do a task. -/
def EngineOp.isRun : EngineOp → Bool
  | .run _ => true
  | _ => false

/-- On which way a task gets to an engine. -/
inductive Route where
  | direct
  /-- The engine is looked up under its name. -/
  | named (name : String)
  /-- A function of the bridge forwards to the engine of a name. -/
  | bridged (name : String)
  deriving DecidableEq

/-- The name under which the engine was looked up, if it was. -/
def Route.name? : Route → Option String
  | direct => none
  | named name | bridged name => some name

/-- A task that is handed to an engine for a call. -/
structure Handing where
  call : CallId
  route : Route
  engine : EngineId
  task : Task

/-- The engine and the task of a request that was noted. -/
def HostNote.task? : HostNote → Option (EngineId × Task)
  | .asked r (.run task) _ => some (r, task)
  | _ => none

/-- Whether a frame is that of a call which the profiler times. -/
def Frame.isTracked : Frame → Bool
  | .tracked .. => true
  | _ => false

/-- Whether every outcome goes through a frame as it is, and nothing else comes of it. -/
def Frame.handsOn : Frame → Bool
  | .race _ => true
  | _ => false

namespace Stage

/-- Whether a stage is over. -/
def isOver : Stage → Bool
  | .over _ => true
  | _ => false

theorem isOver_of_ne {stage : Stage} (hnot : ∀ result, stage ≠ .over result) :
    stage.isOver = false := by
  unfold isOver
  split
  · next result => exact absurd rfl (hnot result)
  · rfl

/-- Whether an application function was called at a stage and has not come back. -/
def isCalled : Stage → Bool
  | .called .. => true
  | _ => false

end Stage

/-- The frames of a call after a task was handed on for it, told by those before it. -/
def Handing.Frames (x : Handing) (before after : List Frame) : Prop :=
  match x.route with
  | .direct => after = before
  | .named name => ∃ since, after = .tracked name x.task.function since :: before
  | .bridged name =>
    ∃ since token, after = .tracked name x.task.function since :: .race token :: before

namespace Host

variable {h h' mid : Host} {r : EngineId} {t : Turn} {c : CallId} {k : Call} {x : Handing}
variable {x? : Option Handing} {event : HostEvent} {frames : List Frame} {token : Token}

theorem plays : Plays step run := ⟨fun _ => rfl, fun _ _ _ => rfl⟩

/-- The tasks that engines were asked to do, the latest first. -/
def tasks (h : Host) : List (EngineId × Task) := h.notes.filterMap HostNote.task?

/-! ### What is handed on -/

/-- What is handed on when the engine of a name is to do a task. -/
def dispatchHands? (h : Host) (c : CallId) (route : Route) (name : String) (task : Task) :
    Option Handing :=
  (h.registry.get? name).map fun r => ⟨c, route, r, task⟩

/-- What is handed on when a function of the bridge is called. -/
def bridgeHands? (h : Host) (c : CallId) (name : String) (args : List Json) (token : Token) :
    Option Handing :=
  match h.bridge.get? name with
  | some (.exposed runtime function) =>
    if h.hasFired token then none
    else h.dispatchHands? c (.bridged runtime) runtime (.call function args)
  | _ => none

/-- What is handed on for a request. -/
def requestHands? (h : Host) (c : CallId) (request : Request) (token : Token) : Option Handing :=
  match request with
  | .dispatch name task => h.dispatchHands? c (.named name) name task
  | .bridge name args => h.bridgeHands? c name args token
  | .engine r (.run task) => (h.engines[r]?).map fun _ => ⟨c, .direct, r, task⟩
  | _ => none

/-- The task that an event hands to an engine. -/
def handed? (h : Host) : HostEvent → Option Handing
  | .ask request token => h.requestHands? h.asked request token
  | _ => none

theorem call_of_dispatchHands? {route : Route} {name : String} {task : Task}
    (hx : h.dispatchHands? c route name task = some x) : x.call = c ∧ x.route = route := by
  obtain ⟨r, -, rfl⟩ := Option.map_eq_some_iff.mp hx
  exact ⟨rfl, rfl⟩

theorem call_of_bridgeHands? {name : String} {args : List Json}
    (hx : h.bridgeHands? c name args token = some x) :
    x.call = c ∧ ∃ runtime, x.route = .bridged runtime := by
  unfold bridgeHands? at hx
  split at hx
  · next runtime function _ =>
    split at hx
    · cases hx
    · obtain ⟨hcall, hroute⟩ := call_of_dispatchHands? hx
      exact ⟨hcall, runtime, hroute⟩
  · cases hx

theorem call_of_requestHands? {request : Request}
    (hx : h.requestHands? c request token = some x) : x.call = c := by
  unfold requestHands? at hx
  split at hx
  · exact (call_of_dispatchHands? hx).1
  · exact (call_of_bridgeHands? hx).1
  · obtain ⟨g, -, rfl⟩ := Option.map_eq_some_iff.mp hx
    rfl
  · cases hx

/-! ### What a call does by itself -/

/-- No engine is asked to do a task, and the profiler and the enforcers are left alone. -/
structure Quiet (h h' : Host) : Prop where
  tasks_eq : h'.tasks = h.tasks
  profiler_eq : h'.profiler = h.profiler
  enforcers_eq : h'.enforcers = h.enforcers

/-- Nothing but the number of scopes has changed. -/
def Same (h mid : Host) : Prop := ∃ scopes, mid = { h with scopes }

/-- A call gets from some frames to where it is in a turn: it asks the engine that a task is handed
to, or nothing is handed on and the call goes on inside of its frames. -/
inductive Leads (h : Host) (frames : List Frame) : Option Handing → Turn → Prop where
  | hands {mid : Host} {token : Token} {inner : List Frame} (x : Handing) (hsame : h.Same mid)
    (hframes : h.profiler.enabled = true → x.Frames frames inner) :
    Leads h frames (some x) (mid.askEngine x.engine (.run x.task) token inner)
  | goes {t : Turn} (inner : List Frame) (hquiet : h.Quiet t.host)
    (hframes : t.frames = inner ++ frames) (huntracked : ∀ f ∈ inner, f.isTracked = false) :
    Leads h frames none t

/-- The call stays inside of its frames, and nothing is handed on. -/
theorem leads_self (hquiet : h.Quiet t.host) (hframes : t.frames = frames) :
    h.Leads frames none t :=
  .goes [] hquiet hframes nofun

/-- What is handed on is what an engine is asked then. -/
theorem Leads.eq_askEngine (ht : h.Leads frames (some x) t) :
    ∃ mid token inner, h.Same mid ∧ (h.profiler.enabled = true → x.Frames frames inner) ∧
      t = mid.askEngine x.engine (.run x.task) token inner := by
  cases ht with
  | hands x hsame hframes => exact ⟨_, _, _, hsame, hframes, rfl⟩

/-- Where nothing is handed on, no engine is asked to do a task. -/
theorem Leads.quiet (ht : h.Leads frames none t) : h.Quiet t.host := by
  cases ht with
  | goes inner hquiet => exact hquiet

theorem quiet_record (h : Host) (events : List PolicyEvent) : h.Quiet (h.record events) := by
  have hnone : (events.map HostNote.policy).reverse.filterMap HostNote.task? = [] := by
    refine List.filterMap_eq_nil_iff.mpr fun n hn => ?_
    obtain ⟨e, -, rfl⟩ := List.mem_map.mp (List.mem_reverse.mp hn)
    rfl
  refine ⟨?_, rfl, rfl⟩
  rw [tasks, record, List.filterMap_append, hnone]
  rfl

theorem quiet_letPass (h : Host) (g : Guarded) (op : EngineOp) :
    h.Quiet (h.letPass g op).2 := by
  unfold letPass
  split
  · unfold check
    split
    · exact ⟨rfl, rfl, rfl⟩
    · exact quiet_record h _
  · exact ⟨rfl, rfl, rfl⟩

theorem isCalled_stageOf (r : EngineId) (op : EngineOp) (p : Progress) :
    (stageOf r op p).isCalled = false := by
  cases p <;> rfl

/-- An engine that is asked leaves the frames as they are, and it is no application function that
was called. -/
theorem askEngine_frames (h : Host) (r : EngineId) (op : EngineOp) (token : Token)
    (frames : List Frame) :
    (h.askEngine r op token frames).frames = frames ∧
      (h.askEngine r op token frames).stage.isCalled = false ∧
      (h.askEngine r op token frames).host.profiler = h.profiler ∧
      (h.askEngine r op token frames).host.enforcers = h.enforcers := by
  unfold askEngine
  split
  · exact ⟨rfl, rfl, rfl, rfl⟩
  · next g hg =>
    have hquiet := quiet_letPass h g op
    split
    · next err mid hpass =>
      rw [hpass] at hquiet
      exact ⟨rfl, rfl, hquiet.profiler_eq, hquiet.enforcers_eq⟩
    · next mid hpass =>
      rw [hpass] at hquiet
      exact ⟨rfl, isCalled_stageOf _ _ _, hquiet.profiler_eq, hquiet.enforcers_eq⟩

/-- Whatever a call does by itself, the profiler and the enforcers are left alone. -/
theorem Leads.settings_eq (ht : h.Leads frames x? t) :
    t.host.profiler = h.profiler ∧ t.host.enforcers = h.enforcers := by
  cases ht with
  | goes inner hquiet => exact ⟨hquiet.profiler_eq, hquiet.enforcers_eq⟩
  | hands x hsame =>
    obtain ⟨scopes, rfl⟩ := hsame
    exact (askEngine_frames _ _ _ _ _).2.2

/-- An engine that is asked for something else than a task is handed none. -/
theorem tasks_askEngine_of_not_run {op : EngineOp} (hop : op.isRun = false) (h : Host)
    (r : EngineId) (token : Token) (frames : List Frame) :
    (h.askEngine r op token frames).host.tasks = h.tasks := by
  unfold askEngine
  split
  · rfl
  · next g hg =>
    have hquiet := quiet_letPass h g op
    split
    · next err mid hpass =>
      rw [hpass] at hquiet
      exact hquiet.tasks_eq
    · next mid hpass =>
      rw [hpass] at hquiet
      have hnote : (HostNote.asked r op (mid.hasFired token)).task? = none := by
        cases op with
        | run task => cases hop
        | _ => rfl
      rw [← hquiet.tasks_eq]
      exact List.filterMap_cons_none hnote

/-- Asking an engine for something else than a task, inside of another frame. -/
theorem leads_askEngine (op : EngineOp) (hop : op.isRun = false) (h : Host) (r : EngineId)
    (token : Token) (inner : List Frame) (hinner : ∀ f ∈ inner, f.isTracked = false) :
    h.Leads frames none (h.askEngine r op token (inner ++ frames)) := by
  obtain ⟨hframes, -, hprofiler, henforcers⟩ := askEngine_frames h r op token (inner ++ frames)
  have htasks := tasks_askEngine_of_not_run hop h r token (inner ++ frames)
  exact .goes inner ⟨htasks, hprofiler, henforcers⟩ hframes hinner

theorem leads_dispatch (hsame : h.Same mid) {route : Route} {name : String} {task : Task}
    (inner : List Frame) (hinner : ∀ f ∈ inner, f.isTracked = false)
    (hroute : ∀ r since, Handing.Frames ⟨c, route, r, task⟩ frames
      (.tracked name task.function since :: (inner ++ frames))) :
    h.Leads frames (h.dispatchHands? c route name task)
      (mid.dispatch name task token (inner ++ frames)) := by
  obtain ⟨scopes, rfl⟩ := hsame
  unfold dispatchHands? dispatch
  cases hname : h.registry.get? name with
  | none => exact .goes inner ⟨rfl, rfl, rfl⟩ rfl hinner
  | some r =>
    refine .hands ⟨c, route, r, task⟩ ⟨scopes, rfl⟩ fun henabled => ?_
    rw [if_pos henabled]
    exact hroute r _

theorem leads_callBridge (h : Host) (c : CallId) (name : String) (args : List Json)
    (token : Token) :
    h.Leads [] (h.bridgeHands? c name args token) (h.callBridge name args token) := by
  unfold bridgeHands? callBridge
  cases h.bridge.get? name with
  | none => exact leads_self ⟨rfl, rfl, rfl⟩ rfl
  | some f =>
    cases f with
    | exposed runtime function =>
      by_cases hfired : h.hasFired token = true
      · simp only [if_pos hfired]
        exact leads_self ⟨rfl, rfl, rfl⟩ rfl
      · simp only [if_neg hfired]
        exact leads_dispatch ⟨h.scopes + 1, rfl⟩ [.race token] (by simp [Frame.isTracked])
          fun r since => ⟨since, token, rfl⟩
    | app f => exact leads_self ⟨rfl, rfl, rfl⟩ rfl

theorem leads_startNext (h : Host) (token : Token) (entries : List (String × RuntimeSettings))
    (frames : List Frame) : h.Leads frames none (h.startNext token entries frames) := by
  unfold startNext
  split
  · exact leads_self ⟨rfl, rfl, rfl⟩ rfl
  · next name settings rest =>
    split
    · exact leads_self ⟨rfl, rfl, rfl⟩ rfl
    · next r hr =>
      exact leads_askEngine (.start settings) rfl h r token [.starting name _ rest]
        (by simp [Frame.isTracked])

theorem leads_stopNext (h : Host) (token : Token) (entries : List (String × EngineId))
    (failures : List (String × HostError)) (frames : List Frame) :
    h.Leads frames none (h.stopNext token entries failures frames) := by
  unfold stopNext
  split
  · exact leads_self ⟨rfl, rfl, rfl⟩ rfl
  · next name r rest =>
    exact leads_askEngine .stop rfl h r token [.stopping name rest failures]
      (by simp [Frame.isTracked])

theorem leads_begin (h : Host) (c : CallId) (request : Request) (token : Token) :
    h.Leads [] (h.requestHands? c request token) (h.begin request token) := by
  cases request with
  | start => exact leads_startNext _ _ _ _
  | stop => exact leads_stopNext _ _ _ _ _
  | dispatch name task =>
    exact leads_dispatch ⟨h.scopes, rfl⟩ [] nofun fun r since => ⟨since, rfl⟩
  | bridge name args => exact leads_callBridge _ _ _ _ _
  | engine r op =>
    cases op with
    | run task =>
      cases hr : h.engines[r]? with
      | none =>
        have hhands : h.requestHands? c (.engine r (.run task)) token = none := by
          simp only [requestHands?, hr, Option.map_none]
        have hturn : h.begin (.engine r (.run task)) token = ⟨h, [], .over (.ok .null)⟩ := by
          simp only [begin, askEngine, hr]
        rw [hhands, hturn]
        exact leads_self ⟨rfl, rfl, rfl⟩ rfl
      | some g =>
        have hhands : h.requestHands? c (.engine r (.run task)) token =
            some ⟨c, .direct, r, task⟩ := by
          simp only [requestHands?, hr, Option.map_some]
        rw [hhands]
        exact .hands ⟨c, .direct, r, task⟩ ⟨h.scopes, rfl⟩ fun _ => rfl
    | start settings => exact leads_askEngine (.start settings) rfl h r token [] nofun
    | stop => exact leads_askEngine .stop rfl h r token [] nofun

/-- An outcome that goes through a frame hands nothing on; only the profiler takes note of it. -/
theorem leads_pass {f : Frame} (hf : f.isTracked = false) (h : Host) (token : Token)
    (rest : List Frame) (result : Outcome Json) :
    h.Leads rest none (h.pass token f rest result) := by
  cases f with
  | race _ => exact leads_self ⟨rfl, rfl, rfl⟩ rfl
  | tracked runtime function since => cases hf
  | starting name limit? entries =>
    cases result with
    | ok v => exact leads_startNext _ _ _ _
    | error e => exact leads_self ⟨rfl, rfl, rfl⟩ rfl
  | stopping name entries failures =>
    cases result with
    | ok v => exact leads_stopNext _ _ _ _ _
    | error e => exact leads_stopNext _ _ _ _ _

end Host

end LanguageHost
