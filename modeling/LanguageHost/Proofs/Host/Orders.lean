import LanguageHost.Proofs.Host.Edits
import LanguageHost.Proofs.Host.Cancelled

/-!
# What engines are told

Besides tasks, an engine is asked to start and to stop: by a start or a stop of all engines, which
asks one engine after the other, and by a request to the engine itself.  `Host.order?` tells which
order an event gives.

`Host.Tells` says what is done to all engines when one of them is told something (`Engine.Edit`);
there is one lemma for each function of a host, and `Host.obeys_of_step` puts them together for
events.  So the orders that were noted are those of the log (`Host.told_of_run`), an engine stays
what it is, and the registry of a host only grows and knows every engine by the engine's own name
(`Host.named_run`).
-/

namespace LanguageHost

/-- What was told to an engine, and how far the engine got with it at once. -/
structure Order where
  call : CallId
  engine : EngineId
  op : EngineOp
  progress : Progress
  /-- When it was told. -/
  time : Nat

/-- The engine and what it was told, where that is not a task. -/
def HostNote.order? : HostNote → Option (EngineId × EngineOp)
  | .asked _ (.run _) _ => none
  | .asked r op _ => some (r, op)
  | _ => none

/-- What an order tells an engine and how far the engine got with it, if it is for that engine. -/
def Order.to? (o? : Option Order) (r : EngineId) : Option (EngineOp × Progress) :=
  o?.bind fun o => if o.engine = r then some (o.op, o.progress) else none

/-- The call that an event is about. -/
def HostEvent.call? : HostEvent → Option CallId
  | .resume c | .timeOut c | .drop c | .acted c _ | .prepared c _ | .returned c | .finished c _
  | .panicked c => some c
  | _ => none

namespace Host

variable {h h' mid : Host} {r : EngineId} {e e' : Engine} {t : Turn} {c : CallId} {k : Call}
variable {o o' : Order} {o? : Option Order} {event : HostEvent} {es : List HostEvent}
variable {token : Token} {frames : List Frame}

/-! ### Which orders are given -/

/-- The engines that were told something and what they were told, the latest first. -/
def told (h : Host) : List (EngineId × EngineOp) := h.notes.filterMap HostNote.order?

/-- What an engine is told for a call, if it is there. -/
def orderTo? (h : Host) (c : CallId) (r : EngineId) (op : EngineOp) (token : Token) :
    Option Order :=
  (h.engine? r).map fun e => ⟨c, r, op, (e.ask op token (h.hasFired token) h.now).1, h.now⟩

/-- The start of the first of the engines that are left to start. -/
def startOrder? (h : Host) (c : CallId) (token : Token) :
    List (String × RuntimeSettings) → Option Order
  | [] => none
  | (name, settings) :: _ =>
    (h.registry.get? name).bind fun r => h.orderTo? c r (.start settings) token

/-- The stop of the first of the engines that are left to stop. -/
def stopOrder? (h : Host) (c : CallId) (token : Token) : List (String × EngineId) → Option Order
  | [] => none
  | (_, r) :: _ => h.orderTo? c r .stop token

/-- What is told to an engine for a request. -/
def requestOrder? (h : Host) (c : CallId) (request : Request) (token : Token) : Option Order :=
  match request with
  | .start => h.startOrder? c token h.config.enabledRuntimes
  | .stop => h.stopOrder? c token h.registry.entries
  | .engine r op => if op.isRun then none else h.orderTo? c r op token
  | _ => none

/-- What is told to an engine when an outcome goes through a frame. -/
def passOrder? (h : Host) (c : CallId) (token : Token) (f : Frame) (result : Outcome Json) :
    Option Order :=
  match f with
  | .starting _ _ entries =>
    match result with
    | .ok _ => h.startOrder? c token entries
    | .error _ => none
  | .stopping _ entries _ => h.stopOrder? c token entries
  | _ => none

/-- What an event tells an engine, other than a task. -/
def order? (h : Host) : HostEvent → Option Order
  | .ask request token => h.requestOrder? h.asked request token
  | .resume c => (h.call? c).bind fun k =>
    match k.stage, k.frames with
    | .over result, f :: _ => h.passOrder? k.id k.token f result
    | _, _ => none
  | _ => none

/-- The orders that a run gives, the first one first. -/
def orders (h : Host) (es : List HostEvent) : List Order := logged step order? h es

/-- An order for a call is given to an engine that is there, with this progress. -/
structure Ordered (h : Host) (c : CallId) (o : Order) : Prop where
  call_eq : o.call = c
  not_run : o.op.isRun = false
  time_eq : o.time = h.now
  engine : ∃ e token, h.engine? o.engine = some e ∧
    o.progress = (e.ask o.op token (h.hasFired token) h.now).1

theorem ordered_of_orderTo? {op : EngineOp} (hop : op.isRun = false)
    (ho : h.orderTo? c r op token = some o) : h.Ordered c o := by
  obtain ⟨e, he, rfl⟩ := Option.map_eq_some_iff.mp ho
  exact ⟨rfl, hop, rfl, e, token, he, rfl⟩

theorem ordered_of_startOrder? {entries : List (String × RuntimeSettings)}
    (ho : h.startOrder? c token entries = some o) : h.Ordered c o := by
  cases entries with
  | nil => cases ho
  | cons entry rest =>
    obtain ⟨r, -, hr⟩ := Option.bind_eq_some_iff.mp ho
    exact ordered_of_orderTo? rfl hr

theorem ordered_of_stopOrder? {entries : List (String × EngineId)}
    (ho : h.stopOrder? c token entries = some o) : h.Ordered c o := by
  cases entries with
  | nil => cases ho
  | cons entry rest => exact ordered_of_orderTo? rfl ho

theorem ordered_of_requestOrder? {request : Request}
    (ho : h.requestOrder? c request token = some o) : h.Ordered c o := by
  cases request with
  | start => exact ordered_of_startOrder? ho
  | stop => exact ordered_of_stopOrder? ho
  | engine r op =>
    cases hop : op.isRun with
    | true => simp [requestOrder?, hop] at ho
    | false =>
      simp only [requestOrder?, hop] at ho
      exact ordered_of_orderTo? hop ho
  | _ => cases ho

theorem ordered_of_passOrder? {f : Frame} {result : Outcome Json}
    (ho : h.passOrder? c token f result = some o) : h.Ordered c o := by
  cases f with
  | starting name limit? entries =>
    cases result with
    | ok v => exact ordered_of_startOrder? ho
    | error err => cases ho
  | stopping name entries failures => exact ordered_of_stopOrder? ho
  | _ => cases ho

/-- An order is given for a new call, or for the call that the event is about. -/
theorem ordered_of_order? (ho : h.order? event = some o) :
    h.Ordered ((event.call?).getD h.asked) o := by
  cases event with
  | ask request token => exact ordered_of_requestOrder? ho
  | resume d =>
    obtain ⟨k, hk, hrest⟩ := Option.bind_eq_some_iff.mp ho
    obtain ⟨-, rfl⟩ := mem_of_call? hk
    split at hrest
    · exact ordered_of_passOrder? hrest
    · cases hrest
  | _ => cases ho

/-! ### What a call does by itself -/

/-- The engines were used, and this order was given to the one that it is for; nobody was registered
or configured. -/
structure Tells (h : Host) (o? : Option Order) (h' : Host) : Prop where
  registry_eq : h'.registry = h.registry
  config_eq : h'.config = h.config
  told_eq : h'.told = (o?.map fun o => (o.engine, o.op)).toList ++ h.told
  engines : ∀ r, Option.Rel (fun e e' => Engine.Edit (0 < h.preparing r) e (Order.to? o? r) e')
    (h.engine? r) (h'.engine? r)

/-- What a call does by itself gives an order, and the call comes to prepare an engine only by
telling it so. -/
structure Gives (h : Host) (o? : Option Order) (t : Turn) : Prop where
  tells : h.Tells o? t.host
  prepares : ∀ r, t.stage.prepares r = true →
    ∃ o, o? = some o ∧ o.engine = r ∧ o.progress.isPreparing = true

theorem preparing_congr (hcalls : h'.calls = h.calls) (r : EngineId) :
    h'.preparing r = h.preparing r := by
  rw [preparing, preparing, hcalls]

/-- Nothing was done to any engine. -/
theorem tells_of_eq (hregistry : h'.registry = h.registry) (hconfig : h'.config = h.config)
    (htold : h'.told = h.told) (hengines : h'.engines = h.engines) : h.Tells none h' := by
  refine ⟨hregistry, hconfig, htold, fun r => ?_⟩
  rw [engine?, engine?, hengines]
  exact rel_refl (fun _ => .same) _

/-- What is done to one engine that is told nothing. -/
theorem tells_setEngine (he : h.engine? r = some e)
    (hedit : Engine.Edit (0 < h.preparing r) e none e') : h.Tells none (h.setEngine r e') := by
  refine ⟨rfl, rfl, rfl, fun s => ?_⟩
  rw [engine?_setEngine]
  split
  · next hs =>
    subst hs
    rw [he]
    exact .some hedit
  · exact rel_refl (fun _ => .same) _

/-- The same is done to all engines. -/
theorem tells_map {f : Engine → Engine} (hf : ∀ r e, Engine.Edit (0 < h.preparing r) e none (f e))
    (hregistry : h'.registry = h.registry) (hconfig : h'.config = h.config)
    (htold : h'.told = h.told)
    (hengines : h'.engines = h.engines.map fun g => { g with engine := f g.engine }) :
    h.Tells none h' := by
  refine ⟨hregistry, hconfig, htold, fun r => ?_⟩
  rw [engine?, engine?, hengines, List.getElem?_map]
  cases h.engines[r]? with
  | none => exact .none
  | some g => exact .some (hf r g.engine)

theorem tells_fire (h : Host) (token : Token) : h.Tells none (h.fire token) :=
  tells_map (fun _ _ => .fires token) rfl rfl rfl rfl

theorem tells_wait (h : Host) (time : Nat) : h.Tells none (h.wait time) :=
  tells_map (fun _ _ => .follows (.wait time) rfl) rfl rfl rfl rfl

/-- Only the engines, what they were told, the registry, the configuration and the calls matter
before something is done. -/
theorem Tells.congr (ht : mid.Tells o? h') (hregistry : mid.registry = h.registry)
    (hconfig : mid.config = h.config) (htold : mid.told = h.told)
    (hengines : mid.engines = h.engines) (hcalls : mid.calls = h.calls) : h.Tells o? h' := by
  refine ⟨ht.registry_eq.trans hregistry, ht.config_eq.trans hconfig, ?_, fun r => ?_⟩
  · rw [ht.told_eq, htold]
  · have hr := ht.engines r
    have hsame : mid.engine? r = h.engine? r := by rw [engine?, engine?, hengines]
    rw [hsame, preparing_congr hcalls] at hr
    exact hr

/-- A call that prepares no engine. -/
theorem gives_of_tells (ht : h.Tells o? t.host) (hstage : ∀ r, t.stage.prepares r = false) :
    h.Gives o? t := by
  refine ⟨ht, fun r hr => ?_⟩
  rw [hstage r] at hr
  cases hr

theorem Gives.congr (ht : mid.Gives o? t) (hregistry : mid.registry = h.registry)
    (hconfig : mid.config = h.config) (htold : mid.told = h.told)
    (hengines : mid.engines = h.engines) (hcalls : mid.calls = h.calls) : h.Gives o? t :=
  ⟨ht.tells.congr hregistry hconfig htold hengines hcalls, ht.prepares⟩

theorem told_record (h : Host) (events : List PolicyEvent) : (h.record events).told = h.told := by
  have hnone : (events.map HostNote.policy).reverse.filterMap HostNote.order? = [] := by
    refine List.filterMap_eq_nil_iff.mpr fun n hn => ?_
    obtain ⟨e, -, rfl⟩ := List.mem_map.mp (List.mem_reverse.mp hn)
    rfl
  rw [told, record, List.filterMap_append, hnone]
  rfl

theorem letPass_leaves (h : Host) (g : Guarded) (op : EngineOp) :
    (h.letPass g op).2.registry = h.registry ∧ (h.letPass g op).2.config = h.config ∧
      (h.letPass g op).2.told = h.told := by
  unfold letPass
  split
  · unfold check
    split
    · exact ⟨rfl, rfl, rfl⟩
    · exact ⟨rfl, rfl, told_record h _⟩
  · exact ⟨rfl, rfl, rfl⟩

/-- Only tasks are checked. -/
theorem letPass_of_not_run {op : EngineOp} (hop : op.isRun = false) (h : Host) (g : Guarded) :
    h.letPass g op = (.ok (), h) := by
  cases op with
  | run task => cases hop
  | start settings => rfl
  | stop => rfl

theorem order?_asked {op : EngineOp} (hop : op.isRun = false) (r : EngineId) (fired : Bool) :
    (HostNote.asked r op fired).order? = some (r, op) := by
  cases op with
  | run task => cases hop
  | start settings => rfl
  | stop => rfl

/-- An engine that is asked for something else than a task is told so, and does it. -/
theorem askEngine_of_not_run {op : EngineOp} (hop : op.isRun = false) (he : h.engine? r = some e)
    (token : Token) (frames : List Frame) :
    h.askEngine r op token frames =
      ⟨(h.note (.asked r op (h.hasFired token))).setEngine r
          (e.ask op token (h.hasFired token) h.now).2,
        frames, stageOf r op (e.ask op token (h.hasFired token) h.now).1⟩ := by
  obtain ⟨g, hg, rfl⟩ := Option.map_eq_some_iff.mp he
  unfold askEngine
  rw [hg]
  dsimp only
  rw [letPass_of_not_run hop]

theorem prepares_stageOf_iff {op : EngineOp} {progress : Progress} {s : EngineId} :
    (stageOf r op progress).prepares s = true ↔ r = s ∧ progress.isPreparing = true := by
  have hstage := congrFun (prepares_stageOf r op progress) s
  rw [hstage, Bool.and_eq_true, beq_iff_eq]
  exact And.comm

/-- An engine is told what it is asked, unless that is a task. -/
theorem gives_askEngine {op : EngineOp} (hop : op.isRun = false) (h : Host) (c : CallId)
    (r : EngineId) (token : Token) (frames : List Frame) :
    h.Gives (h.orderTo? c r op token) (h.askEngine r op token frames) := by
  cases he : h.engine? r with
  | none =>
    have hnone : h.engines[r]? = none := Option.map_eq_none_iff.mp he
    rw [orderTo?, he, askEngine, hnone]
    exact gives_of_tells (tells_of_eq rfl rfl rfl rfl) fun _ => rfl
  | some e =>
    rw [askEngine_of_not_run hop he, orderTo?, he]
    refine ⟨⟨rfl, rfl, ?_, fun s => ?_⟩, fun s hs => ?_⟩
    · exact List.filterMap_cons_some (order?_asked hop r _)
    · rw [engine?_setEngine]
      have hsame : (h.note (.asked r op (h.hasFired token))).engine? s = h.engine? s := rfl
      rw [hsame]
      by_cases hsr : s = r
      · subst hsr
        rw [if_pos rfl, he, Option.map_some, Option.map_some, Order.to?, Option.bind_some,
          if_pos rfl]
        exact .some (.told op token _ _ hop)
      · rw [if_neg hsr, Option.map_some, Order.to?, Option.bind_some, if_neg (Ne.symm hsr)]
        exact rel_refl (fun _ => .same) _
    · obtain ⟨rfl, hprogress⟩ := prepares_stageOf_iff.mp hs
      exact ⟨_, rfl, rfl, hprogress⟩

/-- An engine that is asked to do a task is told nothing. -/
theorem gives_askEngine_run (h : Host) (r : EngineId) (task : Task) (token : Token)
    (frames : List Frame) : h.Gives none (h.askEngine r (.run task) token frames) := by
  unfold askEngine
  split
  · exact gives_of_tells (tells_of_eq rfl rfl rfl rfl) fun _ => rfl
  · next g hg =>
    obtain ⟨hcalls, -, hengines⟩ := goes_letPass h g (.run task)
    obtain ⟨hregistry, hconfig, htold⟩ := letPass_leaves h g (.run task)
    split
    · next err mid hpass =>
      rw [hpass] at hregistry hconfig htold hengines
      exact gives_of_tells (tells_of_eq hregistry hconfig htold hengines) fun _ => rfl
    · next mid hpass =>
      rw [hpass] at hregistry hconfig htold hengines hcalls
      have hmid : mid.engines[r]? = some g := hengines ▸ hg
      have he : (mid.note (.asked r (.run task) (mid.hasFired token))).engine? r =
          some g.engine := by simp only [engine?, note, hmid, Option.map_some]
      refine ⟨(tells_setEngine he (.runs task token _ _)).congr hregistry hconfig htold hengines
        hcalls, fun s hs => ?_⟩
      obtain ⟨-, hprogress⟩ := prepares_stageOf_iff.mp hs
      have hnot : (g.engine.ask (.run task) token (mid.hasFired token) mid.now).1.isPreparing =
          false := by
        unfold Engine.ask
        split
        · rfl
        · exact Engine.isPreparing_run _ _ _ _
      rw [hnot] at hprogress
      cases hprogress

theorem gives_dispatch (h : Host) (name : String) (task : Task) (token : Token)
    (frames : List Frame) : h.Gives none (h.dispatch name task token frames) := by
  unfold dispatch
  split
  · exact gives_of_tells (tells_of_eq rfl rfl rfl rfl) fun _ => rfl
  · exact gives_askEngine_run _ _ _ _ _

theorem gives_callBridge (h : Host) (name : String) (args : List Json) (token : Token) :
    h.Gives none (h.callBridge name args token) := by
  unfold callBridge
  split
  · exact gives_of_tells (tells_of_eq rfl rfl rfl rfl) fun _ => rfl
  · split
    · exact gives_of_tells (tells_of_eq rfl rfl rfl rfl) fun _ => rfl
    · exact (gives_dispatch _ _ _ _ _).congr rfl rfl rfl rfl rfl
  · exact gives_of_tells (tells_of_eq rfl rfl rfl rfl) fun _ => rfl

theorem gives_startNext (h : Host) (c : CallId) (token : Token)
    (entries : List (String × RuntimeSettings)) (frames : List Frame) :
    h.Gives (h.startOrder? c token entries) (h.startNext token entries frames) := by
  cases entries with
  | nil => exact gives_of_tells (tells_of_eq rfl rfl rfl rfl) fun _ => rfl
  | cons entry rest =>
    obtain ⟨name, settings⟩ := entry
    simp only [startOrder?, startNext]
    cases h.registry.get? name with
    | none => exact gives_of_tells (tells_of_eq rfl rfl rfl rfl) fun _ => rfl
    | some r => exact gives_askEngine rfl h c r token _

theorem gives_stopNext (h : Host) (c : CallId) (token : Token)
    (entries : List (String × EngineId)) (failures : List (String × HostError))
    (frames : List Frame) :
    h.Gives (h.stopOrder? c token entries) (h.stopNext token entries failures frames) := by
  cases entries with
  | nil => exact gives_of_tells (tells_of_eq rfl rfl rfl rfl) fun _ => rfl
  | cons entry rest =>
    have hask : ∀ frames, h.Gives (h.orderTo? c entry.2 .stop token)
        (h.askEngine entry.2 .stop token frames) := fun frames =>
      gives_askEngine rfl h c entry.2 token frames
    exact hask _

/-- A stop goes through the engines of the registry in the order of their names. -/
theorem begin_stop (h : Host) (token : Token) :
    h.begin .stop token = h.stopNext token h.registry.entries [] [] := by
  rw [begin, adopted, Dict.sort_entries]

theorem gives_begin (h : Host) (c : CallId) (request : Request) (token : Token) :
    h.Gives (h.requestOrder? c request token) (h.begin request token) := by
  cases request with
  | start => exact gives_startNext h c token _ []
  | stop =>
    rw [begin_stop]
    exact gives_stopNext h c token _ [] []
  | dispatch name task => exact gives_dispatch h name task token []
  | bridge name args => exact gives_callBridge h name args token
  | engine r op =>
    cases op with
    | run task => exact gives_askEngine_run h r task token []
    | start settings => exact gives_askEngine rfl h c r token []
    | stop => exact gives_askEngine rfl h c r token []

theorem gives_pass (h : Host) (c : CallId) (token : Token) (f : Frame) (rest : List Frame)
    (result : Outcome Json) :
    h.Gives (h.passOrder? c token f result) (h.pass token f rest result) := by
  cases f with
  | starting name limit? entries =>
    cases result with
    | ok v => exact gives_startNext h c token entries rest
    | error e => exact gives_of_tells (tells_of_eq rfl rfl rfl rfl) fun _ => rfl
  | stopping name entries failures =>
    cases result with
    | ok v => exact gives_stopNext h c token entries failures rest
    | error e => exact gives_stopNext h c token entries _ rest
  | _ => exact gives_of_tells (tells_of_eq rfl rfl rfl rfl) fun _ => rfl

/-! ### What happens at a stage -/

theorem tells_leave (h : Host) (stage : Stage) : h.Tells none (h.leave stage) := by
  unfold leave
  split
  · split
    · next e he => exact tells_setEngine he (.follows (.withdraw _) rfl)
    · exact tells_of_eq rfl rfl rfl rfl
  · exact tells_of_eq rfl rfl rfl rfl

theorem gives_goOn (hk : k ∈ h.calls) (hg : h.goOn k = some t) : h.Gives none t := by
  unfold goOn at hg
  split at hg
  · simp only [learn, Option.bind_eq_bind, Option.bind_eq_some_iff, Option.pure_def,
      Option.some.injEq] at hg
    obtain ⟨⟨result, h'⟩, ⟨e, he, pool, hpool, answer, -, heq⟩, rfl⟩ := hg
    obtain ⟨rfl, rfl⟩ := Prod.mk.inj heq
    exact gives_of_tells (tells_setEngine he (Engine.edit_withPool hpool rfl)) fun _ => rfl
  · next r settings hstage =>
    split at hg
    · obtain ⟨e, he, rfl⟩ := Option.map_eq_some_iff.mp hg
      have hpos : 0 < h.preparing r := preparing_pos hk (by simp [hstage, Stage.prepares])
      exact gives_of_tells (tells_setEngine he (.abandons hpos)) fun _ => rfl
    · cases hg
  · cases hg

theorem gives_resume (hk : h.call? k.id = some k) (hr : h.resume k = some t) :
    h.Gives (h.order? (.resume k.id)) t := by
  have hmem := (mem_of_call? hk).1
  simp only [order?, hk, Option.bind_some]
  unfold resume at hr
  split at hr
  · next result hstage =>
    split at hr
    · cases hr
    · next f rest hframes =>
      cases hr
      rw [hstage, hframes]
      exact gives_pass h k.id k.token f rest result
  · next hnot =>
    have hnone : (match k.stage, k.frames with
        | .over result, f :: _ => h.passOrder? k.id k.token f result
        | _, _ => none) = none := by
      split
      · next result _ _ hstage _ => exact absurd hstage (hnot result)
      · rfl
    rw [hnone]
    split at hr
    · cases hr
      exact gives_of_tells (tells_leave h _) fun _ => rfl
    · exact gives_goOn hmem hr

theorem gives_timeOut (ht : h.timeOut k = some t) : h.Gives none t := by
  unfold timeOut at ht
  split at ht
  · cases ht
  · obtain ⟨⟨limit, frames⟩, -, rfl⟩ := Option.map_eq_some_iff.mp ht
    exact gives_of_tells (tells_leave h _) fun _ => rfl

theorem gives_returned (hr : h.returned k = some t) : h.Gives none t := by
  obtain ⟨f, token, args, -, rfl⟩ := of_returned hr
  split <;> exact gives_of_tells (tells_of_eq rfl rfl rfl rfl) fun _ => rfl

theorem gives_finished {result : Outcome Json} (hf : h.finished k result = some t) :
    h.Gives none t := by
  obtain ⟨-, rfl⟩ := of_finished hf
  exact gives_of_tells (tells_of_eq rfl rfl rfl rfl) fun _ => rfl

theorem gives_acted {result : Outcome Json} (ha : h.acted k result = some t) :
    h.Gives none t := by
  unfold acted at ha
  split at ha
  · cases ha
    exact gives_of_tells (tells_of_eq rfl rfl rfl rfl) fun _ => rfl
  · cases ha

theorem gives_prepared {report : Outcome StartReport} (hk : k ∈ h.calls)
    (hp : h.prepared k report = some t) : h.Gives none t := by
  unfold prepared at hp
  split at hp
  · next r settings hstage =>
    obtain ⟨e, he, rfl⟩ := Option.map_eq_some_iff.mp hp
    have hpos : 0 < h.preparing r := preparing_pos hk (by simp [hstage, Stage.prepares])
    exact gives_of_tells (tells_setEngine he (.prepared hpos settings report h.now)) fun _ => rfl
  · cases hp

/-! ### Events -/

/-- What an event does to the engines: it gives an order or none, it makes an engine, or it puts one
into the registry. -/
inductive Obeys (h : Host) : HostEvent → Host → Prop where
  | tells {event : HostEvent} {h' : Host} (htells : h.Tells (h.order? event) h')
      (hcalls : ∀ k ∈ h'.calls, ∀ r, k.stage.prepares r = true →
        (∃ j ∈ h.calls, j.stage.prepares r = true) ∨
          ∃ o, h.order? event = some o ∧ o.engine = r ∧ o.progress.isPreparing = true) :
      Obeys h event h'
  | make (e : Engine) (guard? : Option EnforcerId) :
      Obeys h (.make e guard?) (h.make e guard?).2
  | register (r : EngineId) : Obeys h (.register r) (h.register r).2

/-- What has nothing to do with a call. -/
theorem obeys_of_tells (horder : h.order? event = none) (ht : h.Tells none h')
    (hcalls : h'.calls = h.calls) : h.Obeys event h' := by
  refine .tells (horder ▸ ht) fun k hk r hr => .inl ⟨k, hcalls ▸ hk, hr⟩

theorem obeys_forCall {f : Call → Option Turn} (event : CallId → HostEvent)
    (hf : ∀ k t, h.call? k.id = some k → f k = some t →
      h.Gives (h.order? (event k.id)) t ∧ t.host.calls = h.calls)
    (hs : h.forCall c f = some h') : h.Obeys (event c) h' := by
  simp only [forCall, Option.bind_eq_bind, Option.bind_eq_some_iff, Option.pure_def,
    Option.some.injEq] at hs
  obtain ⟨k, hk, t, hturn, rfl⟩ := hs
  obtain ⟨-, rfl⟩ := mem_of_call? hk
  obtain ⟨hgives, hcalls⟩ := hf k t hk hturn
  refine .tells ⟨hgives.tells.registry_eq, hgives.tells.config_eq, hgives.tells.told_eq,
    hgives.tells.engines⟩ fun j hj r hr => ?_
  obtain ⟨i, hi, rfl⟩ := List.mem_map.mp hj
  split at hr
  · exact .inr (hgives.prepares r hr)
  · exact .inl ⟨i, hcalls ▸ hi, hr⟩

theorem obeys_forEngine {f : Engine → Option Engine} (horder : h.order? event = none)
    (hf : ∀ e e', f e = some e' → Engine.Edit (0 < h.preparing r) e none e')
    (hs : h.forEngine r f = some h') : h.Obeys event h' := by
  simp only [forEngine, Option.bind_eq_bind, Option.bind_eq_some_iff, Option.pure_def,
    Option.some.injEq] at hs
  obtain ⟨e, he, e', he', rfl⟩ := hs
  exact obeys_of_tells horder (tells_setEngine he (hf e e' he')) rfl

theorem obeys_ask (h : Host) (request : Request) (token : Token) :
    h.Obeys (.ask request token) (h.ask request token) := by
  let later : Host := { h with asked := h.asked + 1 }
  have hgives : later.Gives (later.requestOrder? h.asked request token)
      (later.begin request token) := gives_begin later h.asked request token
  have hcalls : (later.begin request token).host.calls = h.calls :=
    (reaches_begin later request token).calls_eq
  refine .tells ⟨hgives.tells.registry_eq, hgives.tells.config_eq, hgives.tells.told_eq,
    hgives.tells.engines⟩ fun k hk r hr => ?_
  rcases List.mem_cons.mp hk with rfl | hk
  · exact .inr (hgives.prepares r hr)
  · exact .inl ⟨k, hcalls ▸ hk, hr⟩

theorem obeys_drop (horder : h.order? event = none) (k : Call) : h.Obeys event (h.drop k) := by
  have ht := tells_leave h k.stage
  have hcalls : (h.leave k.stage).calls = h.calls := (acts_leave h k.stage).2
  refine .tells ?_ fun j hj r hr => .inl ⟨j, hcalls ▸ List.mem_of_mem_filter hj, hr⟩
  rw [horder]
  exact ⟨ht.registry_eq, ht.config_eq, ht.told_eq, ht.engines⟩

theorem obeys_of_step (hs : h.step event = some h') : h.Obeys event h' := by
  cases event with
  | ask request token =>
    cases hs
    exact obeys_ask h request token
  | fire token =>
    cases hs
    exact obeys_of_tells rfl (tells_fire h token) rfl
  | resume c =>
    exact obeys_forCall .resume
      (fun k t hk ht => ⟨gives_resume hk ht, (moves_resume ht).calls_eq⟩) hs
  | timeOut c =>
    exact obeys_forCall .timeOut
      (fun k t hk ht => ⟨gives_timeOut ht, (moves_timeOut ht).calls_eq⟩) hs
  | drop c =>
    obtain ⟨k, -, rfl⟩ := Option.map_eq_some_iff.mp hs
    exact obeys_drop rfl k
  | acted c result =>
    exact obeys_forCall (.acted · result)
      (fun k t hk ht => ⟨gives_acted ht, (moves_acted ht).calls_eq⟩) hs
  | prepared c report =>
    exact obeys_forCall (.prepared · report)
      (fun k t hk ht => ⟨gives_prepared (mem_of_call? hk).1 ht, (moves_prepared ht).calls_eq⟩) hs
  | returned c =>
    exact obeys_forCall .returned
      (fun k t hk ht => ⟨gives_returned ht, (moves_returned ht).calls_eq⟩) hs
  | finished c result =>
    exact obeys_forCall (.finished · result)
      (fun k t hk ht => ⟨gives_finished ht, (moves_finished ht).calls_eq⟩) hs
  | panicked c =>
    obtain ⟨k, f, token, args, -, -, rfl⟩ := of_step_panicked hs
    exact obeys_drop rfl k
  | pool r pe =>
    simp only [step] at hs
    split at hs
    · next hinner =>
      have hwithin : pe.isWithin = true := by cases pe <;> first | rfl | cases hinner
      exact obeys_forEngine rfl (fun _ _ => Engine.edit_poolStep hwithin) hs
    · cases hs
  | workEnds r ticket report => exact obeys_forEngine rfl (fun _ _ => Engine.edit_workEnds) hs
  | make e guard? =>
    cases hs
    exact .make e guard?
  | register r =>
    cases hs
    exact .register r
  | wait time =>
    simp only [step] at hs
    split at hs
    · cases hs
      exact obeys_of_tells rfl (tells_wait h time) rfl
    · cases hs
  | _ =>
    cases hs
    exact obeys_of_tells rfl (tells_of_eq rfl rfl rfl rfl) rfl

/-- The orders that were noted in a run are those of its log. -/
theorem told_of_run (hr : h.run es = some h') :
    h'.told = ((h.orders es).map fun o => (o.engine, o.op)).reverse ++ h.told := by
  refine plays.history (motive := fun es h' =>
    h'.told = ((h.orders es).map fun o => (o.engine, o.op)).reverse ++ h.told) rfl ?_ hr
  intro es mid event next hrun ih hs
  have horders : h.orders (es ++ [event]) = h.orders es ++ (mid.order? event).toList :=
    plays.logged_concat hrun event
  have hquiet : mid.order? event = none → next.told = mid.told →
      next.told = ((h.orders (es ++ [event])).map fun o => (o.engine, o.op)).reverse ++ h.told := by
    intro hnone hsame
    rw [hsame, ih, horders, hnone, Option.toList_none, List.append_nil]
  cases obeys_of_step hs with
  | tells htells =>
    rw [htells.told_eq, ih, horders]
    cases mid.order? event with
    | none => simp
    | some o => simp
  | make e guard? => exact hquiet rfl rfl
  | register r =>
    refine hquiet rfl ?_
    unfold register
    split
    · rfl
    · split <;> rfl

/-! ### What is known of the engines and of the registry -/

/-- An engine that is there stays there, and stays what it is. -/
theorem Obeys.engine (ho : h.Obeys event h') (he : h.engine? r = some e) :
    ∃ e', h'.engine? r = some e' ∧ Engine.Edit (0 < h.preparing r) e
      (Order.to? (h.order? event) r) e' := by
  cases ho with
  | tells htells =>
    have hr := htells.engines r
    rw [he] at hr
    generalize he' : h'.engine? r = e'? at hr
    cases hr with
    | some hedit => exact ⟨_, rfl, hedit⟩
  | make new guard? => exact ⟨e, engine?_make_of_some he new guard?, .same⟩
  | register s =>
    have hsame : (h.register s).2.engine? r = h.engine? r := by
      unfold Host.register
      split
      · rfl
      · split <;> rfl
    exact ⟨e, hsame.trans he, .same⟩

/-- The engine that an order is for does what it is told. -/
theorem engine_of_order (hs : h.step event = some h') (ho : h.order? event = some o) :
    ∃ e token fired now, h.engine? o.engine = some e ∧
      o.progress = (e.ask o.op token fired now).1 ∧
      h'.engine? o.engine = some (e.ask o.op token fired now).2 := by
  obtain ⟨e, -, he, -⟩ := (ordered_of_order? ho).engine
  obtain ⟨e', he', hedit⟩ := (obeys_of_step hs).engine he
  rw [ho, Order.to?, Option.bind_some, if_pos rfl] at hedit
  generalize htold : (o.op, o.progress) = told at hedit
  cases hedit with
  | told op token fired now hop =>
    obtain ⟨rfl, hprogress⟩ := Prod.mk.inj htold
    exact ⟨e, token, fired, now, he, hprogress, he'⟩

theorem remains_step (hs : h.step event = some h') (he : h.engine? r = some e) :
    ∃ e', h'.engine? r = some e' ∧ e.Remains e' := by
  obtain ⟨e', he', hedit⟩ := (obeys_of_step hs).engine he
  exact ⟨e', he', hedit.remains⟩

theorem remains_run (he : h.engine? r = some e) (hr : h.run es = some h') :
    ∃ e', h'.engine? r = some e' ∧ e.Remains e' := by
  refine plays.induction (motive := fun g => ∃ e', g.engine? r = some e' ∧ e.Remains e')
    ⟨e, he, .refl e⟩ (fun mid event next _ hmid hs => ?_) hr
  obtain ⟨e', he', hremains⟩ := hmid
  obtain ⟨e'', he'', hnext⟩ := remains_step hs he'
  exact ⟨e'', he'', hremains.trans hnext⟩

/-- An engine that is registered stays registered. -/
theorem registry_step {name : String} (hs : h.step event = some h')
    (hname : h.registry.get? name = some r) : h'.registry.get? name = some r := by
  cases obeys_of_step hs with
  | tells htells =>
    rw [htells.registry_eq]
    exact hname
  | make => exact hname
  | register s =>
    unfold register
    split
    · exact hname
    · next e _ =>
      split
      · exact hname
      · next hfree =>
        rw [Dict.get?_insert, if_neg]
        · exact hname
        · rintro rfl
          cases hfree.symm.trans hname

theorem registry_run {name : String} (hname : h.registry.get? name = some r)
    (hr : h.run es = some h') : h'.registry.get? name = some r :=
  plays.induction (motive := fun g => g.registry.get? name = some r) hname
    (fun _ _ _ _ hmid hs => registry_step hs hmid) hr

/-- Every engine is registered under its own name. -/
def Named (h : Host) : Prop :=
  ∀ name r, h.registry.get? name = some r → ∃ e, h.engine? r = some e ∧ e.name = name

theorem named_step (hn : h.Named) (hs : h.step event = some h') : h'.Named := by
  have hkept : ∀ name r, h.registry.get? name = some r →
      ∃ e, h'.engine? r = some e ∧ e.name = name := by
    intro name r hname
    obtain ⟨e, he, rfl⟩ := hn name r hname
    obtain ⟨e', he', hremains⟩ := remains_step hs he
    exact ⟨e', he', hremains.name_eq⟩
  intro name r hname
  cases obeys_of_step hs with
  | tells htells =>
    rw [htells.registry_eq] at hname
    exact hkept name r hname
  | make => exact hkept name r hname
  | register s =>
    unfold register at hname
    split at hname
    · exact hkept name r hname
    · next e he =>
      split at hname
      · exact hkept name r hname
      · rw [Dict.get?_insert] at hname
        split at hname
        · next heq =>
          obtain rfl : s = r := Option.some.inj hname
          obtain ⟨e', he', hremains⟩ := remains_step hs he
          exact ⟨e', he', hremains.name_eq.trans heq.symm⟩
        · exact hkept name r hname

theorem named_new {config : HostConfig} (hnew : new config = .ok h) : h.Named := by
  obtain rfl := eq_of_new hnew
  exact nofun

theorem named_run (hn : h.Named) (hr : h.run es = some h') : h'.Named :=
  plays.induction (motive := Named) hn (fun _ _ _ _ hn hs => named_step hn hs) hr

/-- No engine is registered under two names. -/
theorem Named.inj {name name' : String} (hn : h.Named) (hname : h.registry.get? name = some r)
    (hname' : h.registry.get? name' = some r) : name = name' := by
  obtain ⟨e, he, rfl⟩ := hn name r hname
  obtain ⟨e', he', rfl⟩ := hn name' r hname'
  rw [Option.some.inj (he.symm.trans he')]

end Host

end LanguageHost
