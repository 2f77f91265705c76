import LanguageHost.Proofs.Host.Verdicts

/-!
# A guard that lets everything pass

A host can be looked at as if one of its engines were not guarded (`Host.unguard`).  Such a host
differs from the guarded one by the guard and by audits that were noted (`Host.Alike`).  It does the
same by every event, as long as no task is handed to that engine that its enforcer does not let pass
(`alike_step`), hence also in every run of such events (`alike_run`).
-/

namespace LanguageHost

/-- An engine without its guard. -/
def Guarded.bare (g : Guarded) : Guarded := { g with guard? := none }

/-- Whether an audit was noted. -/
def HostNote.isAudit : HostNote → Bool
  | .policy event => event.isAudit
  | _ => false

/-- The host with an engine that is not guarded. -/
def Host.unguard (h : Host) (r : EngineId) : Host :=
  { h with engines := h.engines.modify r .bare }

/-- Two hosts are the same but for the guard of an engine, which the second does not have, and for
audits that were noted. -/
structure Host.Alike (r : EngineId) (h h' : Host) : Prop where
  made : r < h.engines.length
  same : ∃ notes, notes.filter (!·.isAudit) = h.notes.filter (!·.isAudit) ∧
    h' = { h.unguard r with notes }

/-- Two calls are at the same place, in hosts that are alike. -/
structure Turn.Alike (r : EngineId) (t t' : Turn) : Prop where
  host_alike : t.host.Alike r t'.host
  frames_eq : t'.frames = t.frames
  stage_eq : t'.stage = t.stage

namespace Host

variable {h h' mid : Host} {r s : EngineId} {g : Guarded} {op : EngineOp}
variable {event : HostEvent} {es : List HostEvent} {token : Token}

/-- Whatever is handed to an engine passes. -/
def Permitted (r : EngineId) (h : Host) (x? : Option Handing) : Prop :=
  ∀ x, x? = some x → x.engine = r → h.permits r x.task = true

/-- Whatever the events of a run hand to an engine passes. -/
def Unhindered (r : EngineId) (h : Host) (es : List HostEvent) : Prop :=
  ∀ before event after mid, es = before ++ event :: after → h.run before = some mid →
    mid.Permitted r (mid.handed? event)

/-! ### Small changes -/

theorem alike_unguard (hr : r < h.engines.length) : h.Alike r (h.unguard r) :=
  ⟨hr, h.notes, rfl, rfl⟩

theorem unguard_getElem? (h : Host) (r s : EngineId) :
    (h.unguard r).engines[s]? = (h.engines[s]?).map fun g => if r = s then g.bare else g :=
  List.getElem?_modify ..

/-- Guards have no part in what engines are. -/
theorem engine?_unguard (h : Host) (r s : EngineId) : (h.unguard r).engine? s = h.engine? s := by
  rw [engine?, unguard_getElem?, Option.map_map]
  refine congrArg (fun f => (h.engines[s]?).map f) (funext fun g => ?_)
  rw [Function.comp_apply]
  split <;> rfl

theorem unguard_setEngine (h : Host) (r s : EngineId) (e : Engine) :
    (h.unguard r).setEngine s e = (h.setEngine s e).unguard r := by
  have hcomm : (h.engines.modify r Guarded.bare).modify s (fun g => { g with engine := e }) =
      (h.engines.modify s fun g => { g with engine := e }).modify r Guarded.bare := by
    refine List.ext_getElem? fun i => ?_
    simp only [List.getElem?_modify]
    cases h.engines[i]? with
    | none => rfl
    | some g =>
      by_cases hr : r = i <;> by_cases hs : s = i <;> simp [hr, hs, Guarded.bare]
  exact congrArg (fun engines => ({ h with engines } : Host)) hcomm

theorem map_modify_bare (engines : List Guarded) (r : EngineId) (f : Engine → Engine) :
    (engines.modify r .bare).map (fun g => { g with engine := f g.engine }) =
      (engines.map fun g => { g with engine := f g.engine }).modify r .bare := by
  refine List.ext_getElem? fun i => ?_
  simp only [List.getElem?_modify, List.getElem?_map]
  cases engines[i]? with
  | none => rfl
  | some g => by_cases hr : r = i <;> simp [hr, Guarded.bare]

namespace Alike

theorem registry_eq (ha : h.Alike r h') : h'.registry = h.registry := by
  obtain ⟨-, notes, -, rfl⟩ := ha
  rfl

theorem now_eq (ha : h.Alike r h') : h'.now = h.now := by
  obtain ⟨-, notes, -, rfl⟩ := ha
  rfl

theorem scopes_eq (ha : h.Alike r h') : h'.scopes = h.scopes := by
  obtain ⟨-, notes, -, rfl⟩ := ha
  rfl

theorem hasFired_eq (ha : h.Alike r h') : h'.hasFired = h.hasFired := by
  obtain ⟨-, notes, -, rfl⟩ := ha
  rfl

theorem engine?_eq (ha : h.Alike r h') (s : EngineId) : h'.engine? s = h.engine? s := by
  obtain ⟨-, notes, -, rfl⟩ := ha
  exact engine?_unguard h r s

theorem getElem?_eq (ha : h.Alike r h') (s : EngineId) :
    h'.engines[s]? = (h.engines[s]?).map fun g => if r = s then g.bare else g := by
  obtain ⟨-, notes, -, rfl⟩ := ha
  exact unguard_getElem? h r s

theorem setEngine (ha : h.Alike r h') (s : EngineId) (e : Engine) :
    (h.setEngine s e).Alike r (h'.setEngine s e) := by
  obtain ⟨hr, notes, hnotes, rfl⟩ := ha
  refine ⟨?_, notes, hnotes, ?_⟩
  · rw [Host.setEngine, List.length_modify]
    exact hr
  · rw [← unguard_setEngine]
    rfl

theorem note (ha : h.Alike r h') (n : HostNote) : (h.note n).Alike r (h'.note n) := by
  obtain ⟨hr, notes, hnotes, rfl⟩ := ha
  refine ⟨hr, n :: notes, ?_, rfl⟩
  rw [show (h.note n).notes = n :: h.notes from rfl, List.filter_cons, List.filter_cons, hnotes]

theorem record (ha : h.Alike r h') (events : List PolicyEvent) :
    (h.record events).Alike r (h'.record events) := by
  obtain ⟨hr, notes, hnotes, rfl⟩ := ha
  refine ⟨hr, (events.map HostNote.policy).reverse ++ notes, ?_, rfl⟩
  rw [show (h.record events).notes = (events.map HostNote.policy).reverse ++ h.notes from rfl,
    List.filter_append, List.filter_append, hnotes]

/-- Audits make no difference. -/
theorem record_audits (ha : h.Alike r h') {events : List PolicyEvent}
    (haudits : ∀ event ∈ events, event.isAudit = true) : (h.record events).Alike r h' := by
  obtain ⟨hr, notes, hnotes, rfl⟩ := ha
  have hmetrics : (h.record events).metrics = h.metrics := count_of_audits h.metrics haudits
  have hnone : (events.map HostNote.policy).reverse.filter (!·.isAudit) = [] := by
    refine List.filter_eq_nil_iff.mpr fun n hn => ?_
    obtain ⟨event, he, rfl⟩ := List.mem_map.mp (List.mem_reverse.mp hn)
    simp [HostNote.isAudit, haudits event he]
  refine ⟨hr, notes, ?_, ?_⟩
  · rw [show (h.record events).notes = (events.map HostNote.policy).reverse ++ h.notes from rfl,
      List.filter_append, hnone, hnotes]
    rfl
  · simp only [unguard, hmetrics]
    rfl

theorem fire (ha : h.Alike r h') (token : Token) : (h.fire token).Alike r (h'.fire token) := by
  obtain ⟨hr, notes, hnotes, rfl⟩ := ha
  refine ⟨?_, notes, hnotes, ?_⟩
  · rw [Host.fire, List.length_map]
    exact hr
  · exact congrArg (fun engines => ({ h with fired := token :: h.fired, engines, notes } : Host))
      (map_modify_bare h.engines r fun e => e.fire token)

theorem wait (ha : h.Alike r h') (time : Nat) : (h.wait time).Alike r (h'.wait time) := by
  obtain ⟨hr, notes, hnotes, rfl⟩ := ha
  refine ⟨?_, notes, hnotes, ?_⟩
  · rw [Host.wait, List.length_map]
    exact hr
  · exact congrArg (fun engines => ({ h with now := time, engines, notes } : Host))
      (map_modify_bare h.engines r fun e => e.wait time)

theorem leave (ha : h.Alike r h') (stage : Stage) : (h.leave stage).Alike r (h'.leave stage) := by
  unfold Host.leave
  cases stage with
  | pooled s ticket =>
    simp only [ha.engine?_eq s]
    cases h.engine? s with
    | none => exact ha
    | some e => exact ha.setEngine s _
  | _ => exact ha

/-- An enforcer that lets everything pass decides as if it were not there. -/
theorem letPass (ha : h.Alike r h') (hg : h.engines[s]? = some g)
    (hp : ∀ task, op = .run task → s = r → h.permits r task = true) :
    (h'.letPass (if r = s then g.bare else g) op).1 = (h.letPass g op).1 ∧
      (h.letPass g op).2.Alike r (h'.letPass (if r = s then g.bare else g) op).2 := by
  cases op with
  | run task =>
    simp only [Host.letPass]
    by_cases hs : r = s
    · subst hs
      obtain ⟨events, hcheck, haudits⟩ := check_of_permits hg (hp task rfl rfl)
      rw [if_pos rfl, hcheck]
      exact ⟨rfl, ha.record_audits haudits⟩
    · have henforcers : h'.enforcers = h.enforcers := by
        obtain ⟨-, notes, -, rfl⟩ := ha
        rfl
      rw [if_neg hs]
      unfold check
      rw [henforcers]
      cases g.guard?.bind fun k => h.enforcers[k]? with
      | none => exact ⟨rfl, ha⟩
      | some enforcer => exact ⟨rfl, ha.record _⟩
  | _ => exact ⟨rfl, ha⟩

end Alike

/-! ### What a call does by itself -/

theorem alike_over (ha : h.Alike r h') (frames : List Frame) (stage : Stage) :
    Turn.Alike r ⟨h, frames, stage⟩ ⟨h', frames, stage⟩ := ⟨ha, rfl, rfl⟩

theorem alike_askEngine (ha : h.Alike r h') (token : Token) (frames : List Frame)
    (hp : ∀ task, op = .run task → s = r → h.permits r task = true) :
    (h.askEngine s op token frames).Alike r (h'.askEngine s op token frames) := by
  unfold askEngine
  rw [ha.getElem?_eq s]
  cases hg : h.engines[s]? with
  | none => exact alike_over ha _ _
  | some g =>
    have hengine : (if r = s then g.bare else g).engine = g.engine := by split <;> rfl
    obtain ⟨hresult, hmid⟩ := ha.letPass hg hp
    simp only [Option.map_some]
    generalize h.letPass g op = passed at hresult hmid ⊢
    generalize h'.letPass (if r = s then g.bare else g) op = passed' at hresult hmid ⊢
    obtain ⟨result, mid⟩ := passed
    obtain ⟨result', mid'⟩ := passed'
    obtain rfl : result' = result := hresult
    cases result' with
    | error err => exact alike_over hmid _ _
    | ok u =>
      have hmid : mid.Alike r mid' := hmid
      simp only [hengine, hmid.hasFired_eq, hmid.now_eq]
      exact ⟨(hmid.note _).setEngine s _, rfl, rfl⟩

theorem alike_dispatch (ha : h.Alike r h') {c : CallId} {route : Route} {name : String}
    {task : Task} (frames : List Frame)
    (hp : h.Permitted r (h.dispatchHands? c route name task)) :
    (h.dispatch name task token frames).Alike r (h'.dispatch name task token frames) := by
  have hprofiler : h'.profiler = h.profiler := by
    obtain ⟨-, notes, -, rfl⟩ := ha
    rfl
  unfold dispatch
  rw [ha.registry_eq, hprofiler, ha.now_eq]
  cases hname : h.registry.get? name with
  | none => exact alike_over ha _ _
  | some s =>
    refine alike_askEngine ha token _ fun task' htask hs => ?_
    cases htask
    refine hp ⟨c, route, s, task⟩ ?_ hs
    rw [dispatchHands?, hname]
    rfl

theorem alike_callBridge (ha : h.Alike r h') {c : CallId} {name : String} {args : List Json}
    (hp : h.Permitted r (h.bridgeHands? c name args token)) :
    (h.callBridge name args token).Alike r (h'.callBridge name args token) := by
  obtain ⟨hbridge, hinner⟩ : h'.bridge.get? name = h.bridge.get? name ∧
      Host.Alike r { h with scopes := h.scopes + 1 } { h' with scopes := h.scopes + 1 } := by
    obtain ⟨hr, notes, hnotes, rfl⟩ := ha
    exact ⟨rfl, hr, notes, hnotes, rfl⟩
  unfold callBridge
  rw [hbridge, ha.hasFired_eq, ha.scopes_eq]
  unfold bridgeHands? at hp
  cases hname : h.bridge.get? name with
  | none => exact alike_over ha _ _
  | some f =>
    rw [hname] at hp
    cases f with
    | exposed runtime function =>
      by_cases hfired : h.hasFired token = true
      · simp only [if_pos hfired]
        exact alike_over ha _ _
      · simp only [if_neg hfired] at hp ⊢
        exact alike_dispatch hinner _ hp
    | app f => exact ⟨hinner, rfl, rfl⟩

theorem alike_startNext (ha : h.Alike r h') (token : Token)
    (entries : List (String × RuntimeSettings)) (frames : List Frame) :
    (h.startNext token entries frames).Alike r (h'.startNext token entries frames) := by
  cases entries with
  | nil => exact alike_over ha _ _
  | cons entry rest =>
    obtain ⟨name, settings⟩ := entry
    unfold startNext
    dsimp only
    rw [ha.registry_eq, ha.now_eq]
    cases h.registry.get? name with
    | none => exact alike_over ha _ _
    | some s => exact alike_askEngine ha token _ nofun

theorem alike_stopNext (ha : h.Alike r h') (token : Token) (entries : List (String × EngineId))
    (failures : List (String × HostError)) (frames : List Frame) :
    (h.stopNext token entries failures frames).Alike r
      (h'.stopNext token entries failures frames) := by
  cases entries with
  | nil => exact alike_over ha _ _
  | cons entry rest =>
    have hask : ∀ frames, (h.askEngine entry.2 .stop token frames).Alike r
        (h'.askEngine entry.2 .stop token frames) :=
      fun frames => alike_askEngine ha token frames nofun
    exact hask _

theorem alike_begin (ha : h.Alike r h') {c : CallId} {request : Request}
    (hp : h.Permitted r (h.requestHands? c request token)) :
    (h.begin request token).Alike r (h'.begin request token) := by
  cases request with
  | start =>
    have hconfig : h'.config = h.config := by
      obtain ⟨-, notes, -, rfl⟩ := ha
      rfl
    rw [begin, begin, hconfig]
    exact alike_startNext ha token _ []
  | stop =>
    rw [begin, begin, adopted, adopted, ha.registry_eq]
    exact alike_stopNext ha token _ [] []
  | dispatch name task => exact alike_dispatch ha [] hp
  | bridge name args => exact alike_callBridge ha hp
  | engine s op =>
    refine alike_askEngine ha token [] fun task hop hs => ?_
    subst hop
    cases hg : h.engines[s]? with
    | none => simp [permits, ← hs, hg]
    | some g =>
      refine hp ⟨c, .direct, s, task⟩ ?_ hs
      rw [requestHands?, hg]
      rfl

theorem alike_pass (ha : h.Alike r h') (token : Token) (f : Frame) (rest : List Frame)
    (result : Outcome Json) :
    (h.pass token f rest result).Alike r (h'.pass token f rest result) := by
  cases f with
  | race inner => exact alike_over ha _ _
  | tracked runtime function since =>
    obtain ⟨hr, notes, hnotes, rfl⟩ := ha
    exact ⟨⟨hr, notes, hnotes, rfl⟩, rfl, rfl⟩
  | starting name limit? entries =>
    cases result with
    | ok v => exact alike_startNext ha token entries rest
    | error e => exact alike_over ha _ _
  | stopping name entries failures =>
    cases result with
    | ok v => exact alike_stopNext ha token entries failures rest
    | error e => exact alike_stopNext ha token entries _ rest

/-! ### Events -/

/-- What is related goes on to what is related. -/
theorem rel_bind {α β γ δ : Type} {R : α → β → Prop} {S : γ → δ → Prop} {a : Option α}
    {b : Option β} {f : α → Option γ} {f' : β → Option δ} (hab : Option.Rel R a b)
    (hf : ∀ x y, a = some x → R x y → Option.Rel S (f x) (f' y)) :
    Option.Rel S (a.bind f) (b.bind f') := by
  cases hab with
  | none => exact .none
  | some hxy => exact hf _ _ rfl hxy

theorem Alike.learn (ha : h.Alike r h') (s : EngineId) (ticket : Ticket) :
    Option.Rel (fun x y => y.1 = x.1 ∧ Alike r x.2 y.2) (h.learn s ticket) (h'.learn s ticket) := by
  unfold Host.learn
  rw [ha.engine?_eq s]
  cases h.engine? s with
  | none => exact .none
  | some e =>
    simp only [Option.bind_eq_bind, Option.bind_some]
    cases e.pool? with
    | none => exact .none
    | some pool =>
      simp only [Option.bind_some]
      cases (pool.follow (.learn ticket)).answer? ticket with
      | none => exact .none
      | some answer => exact .some ⟨rfl, ha.setEngine s _⟩

theorem alike_goOn (ha : h.Alike r h') (k : Call) :
    Option.Rel (Turn.Alike r) (h.goOn k) (h'.goOn k) := by
  unfold goOn
  split
  · next s ticket _ =>
    refine rel_bind (ha.learn s ticket) fun x y _ hsame => ?_
    obtain ⟨hresult, hmid⟩ := hsame
    exact .some ⟨hmid, rfl, congrArg Stage.over hresult⟩
  · next s settings _ =>
    rw [ha.hasFired_eq, ha.engine?_eq s]
    split
    · cases h.engine? s with
      | none => exact .none
      | some e => exact .some (alike_over (ha.setEngine s _) _ _)
    · exact .none
  · exact .none

theorem alike_resume (ha : h.Alike r h') (k : Call) :
    Option.Rel (Turn.Alike r) (h.resume k) (h'.resume k) := by
  unfold resume
  rw [ha.hasFired_eq]
  split
  · split
    · exact .none
    · exact .some (alike_pass ha _ _ _ _)
  · split
    · exact .some (alike_over (ha.leave _) _ _)
    · exact alike_goOn ha k

theorem alike_timeOut (ha : h.Alike r h') (k : Call) :
    Option.Rel (Turn.Alike r) (h.timeOut k) (h'.timeOut k) := by
  unfold timeOut
  rw [ha.now_eq]
  split
  · exact .none
  · cases cutStart h.now k.frames with
    | none => exact .none
    | some found => exact .some (alike_over (ha.leave _) _ _)

theorem alike_returned (ha : h.Alike r h') (k : Call) :
    Option.Rel (Turn.Alike r) (h.returned k) (h'.returned k) := by
  unfold returned
  rw [ha.hasFired_eq]
  split
  · split
    · exact .some (alike_over ha _ _)
    · exact .some ⟨ha, rfl, rfl⟩
  · exact .none

theorem alike_finished (ha : h.Alike r h') (k : Call) (result : Outcome Json) :
    Option.Rel (Turn.Alike r) (h.finished k result) (h'.finished k result) := by
  unfold finished
  split
  · exact .some (alike_over ha _ _)
  · exact .none

theorem alike_acted (ha : h.Alike r h') (k : Call) (result : Outcome Json) :
    Option.Rel (Turn.Alike r) (h.acted k result) (h'.acted k result) := by
  unfold acted
  split
  · exact .some (alike_over ha _ _)
  · exact .none

theorem alike_prepared (ha : h.Alike r h') (k : Call) (report : Outcome StartReport) :
    Option.Rel (Turn.Alike r) (h.prepared k report) (h'.prepared k report) := by
  unfold prepared
  split
  · next s settings _ =>
    rw [ha.engine?_eq s, ha.now_eq]
    cases h.engine? s with
    | none => exact .none
    | some e => exact .some (alike_over (ha.setEngine s _) _ _)
  · exact .none

theorem alike_forCall (ha : h.Alike r h') {c : CallId} {f f' : Call → Option Turn}
    (hf : ∀ k, h.call? c = some k → Option.Rel (Turn.Alike r) (f k) (f' k)) :
    Option.Rel (Alike r) (h.forCall c f) (h'.forCall c f') := by
  have hcalls : h'.call? c = h.call? c := by
    obtain ⟨-, notes, -, rfl⟩ := ha
    rfl
  unfold forCall
  rw [hcalls]
  cases hk : h.call? c with
  | none => exact .none
  | some k =>
    simp only [Option.bind_eq_bind, Option.bind_some]
    refine rel_bind (hf k hk) fun t t' _ hsame => ?_
    obtain ⟨⟨hr, notes, hnotes, hhost⟩, hframes, hstage⟩ := hsame
    refine .some ⟨hr, notes, hnotes, ?_⟩
    rw [settle, hframes, hstage, hhost]
    rfl

theorem alike_forEngine (ha : h.Alike r h') (s : EngineId) (f : Engine → Option Engine) :
    Option.Rel (Alike r) (h.forEngine s f) (h'.forEngine s f) := by
  unfold forEngine
  rw [ha.engine?_eq s]
  cases h.engine? s with
  | none => exact .none
  | some e =>
    simp only [Option.bind_eq_bind, Option.bind_some]
    cases f e with
    | none => exact .none
    | some e' => exact .some (ha.setEngine s e')

theorem alike_ask (ha : h.Alike r h') {request : Request}
    (hp : h.Permitted r (h.requestHands? h.asked request token)) :
    (h.ask request token).Alike r (h'.ask request token) := by
  have hasked : Host.Alike r { h with asked := h.asked + 1 }
      { h' with asked := h'.asked + 1 } ∧ h'.asked = h.asked := by
    obtain ⟨hr, notes, hnotes, rfl⟩ := ha
    exact ⟨⟨hr, notes, hnotes, rfl⟩, rfl⟩
  obtain ⟨⟨hr, notes, hnotes, hhost⟩, hframes, hstage⟩ := alike_begin hasked.1 hp
  refine ⟨hr, notes, hnotes, ?_⟩
  dsimp only [ask]
  rw [hframes, hstage, hhost, hasked.2]
  rfl

theorem alike_drop (ha : h.Alike r h') (k : Call) : (h.drop k).Alike r (h'.drop k) := by
  obtain ⟨hr, notes, hnotes, hsame⟩ := ha.leave k.stage
  refine ⟨hr, notes, hnotes, ?_⟩
  rw [drop, hsame]
  rfl

theorem alike_panicked (ha : h.Alike r h') (k : Call) :
    Option.Rel (Alike r) (h.panicked k) (h'.panicked k) := by
  unfold panicked
  split
  · exact .some (alike_drop ha k)
  · exact .some (alike_drop ha k)
  · exact .none

theorem alike_make (ha : h.Alike r h') (e : Engine) (guard? : Option EnforcerId) :
    (h.make e guard?).2.Alike r (h'.make e guard?).2 := by
  obtain ⟨hr, notes, hnotes, rfl⟩ := ha
  have happend : h.engines.modify r Guarded.bare ++ [Guarded.mk e guard?] =
      (h.engines ++ [Guarded.mk e guard?]).modify r Guarded.bare := by
    refine List.ext_getElem? fun i => ?_
    simp only [List.getElem?_modify, List.getElem?_append, List.length_modify]
    by_cases hi : i < h.engines.length
    · simp only [if_pos hi]
    · have hne : r ≠ i := fun he => hi (he ▸ hr)
      simp only [if_neg hi, if_neg hne, Option.map_eq_map, Option.map_id']
  refine ⟨?_, notes, hnotes, congrArg (fun engines => ({ h with engines, notes } : Host)) happend⟩
  exact Nat.lt_of_lt_of_le hr (by simp [make])

theorem alike_register (ha : h.Alike r h') (s : EngineId) :
    (h.register s).2.Alike r (h'.register s).2 := by
  unfold register
  rw [ha.engine?_eq s, ha.registry_eq]
  cases h.engine? s with
  | none => exact ha
  | some e =>
    dsimp only
    cases h.registry.get? e.name with
    | some other => exact ha
    | none =>
      obtain ⟨hr, notes, hnotes, rfl⟩ := ha
      exact ⟨hr, notes, hnotes, rfl⟩

/-- Hosts that are alike do the same by an event, if it hands nothing to the engine that the guard
would not let pass. -/
theorem alike_step (ha : h.Alike r h') (hp : h.Permitted r (h.handed? event)) :
    Option.Rel (Alike r) (h.step event) (h'.step event) := by
  have hcall (c : CallId) : h'.call? c = h.call? c := by
    obtain ⟨-, notes, -, rfl⟩ := ha
    rfl
  cases event with
  | ask request token => exact .some (alike_ask ha hp)
  | fire token => exact .some (ha.fire token)
  | resume c => exact alike_forCall ha fun k _ => alike_resume ha k
  | timeOut c => exact alike_forCall ha fun k _ => alike_timeOut ha k
  | drop c =>
    dsimp only [step]
    rw [hcall]
    cases h.call? c with
    | none => exact .none
    | some k => exact .some (alike_drop ha k)
  | acted c result => exact alike_forCall ha fun k _ => alike_acted ha k result
  | prepared c report => exact alike_forCall ha fun k _ => alike_prepared ha k report
  | returned c => exact alike_forCall ha fun k _ => alike_returned ha k
  | finished c result => exact alike_forCall ha fun k _ => alike_finished ha k result
  | panicked c =>
    dsimp only [step]
    rw [hcall]
    cases h.call? c with
    | none => exact .none
    | some k => exact alike_panicked ha k
  | pool s e =>
    dsimp only [step]
    split
    · exact alike_forEngine ha s _
    · exact .none
  | workEnds s ticket report => exact alike_forEngine ha s _
  | make e guard? => exact .some (alike_make ha e guard?)
  | register s => exact .some (alike_register ha s)
  | wait time =>
    dsimp only [step]
    rw [ha.now_eq]
    split
    · exact .some (ha.wait time)
    · exact .none
  | _ =>
    obtain ⟨hr, notes, hnotes, rfl⟩ := ha
    exact .some ⟨hr, notes, hnotes, rfl⟩

theorem Unhindered.of_cons (hu : h.Unhindered r (event :: es)) (hs : h.step event = some mid) :
    mid.Unhindered r es := by
  rintro before event' after last rfl hrun
  exact hu (event :: before) event' after last rfl (plays.cons_eq_some.mpr ⟨mid, hs, hrun⟩)

/-- Hosts that are alike do the same in a run, if nothing is handed to the engine that the guard
would not let pass. -/
theorem alike_run (ha : h.Alike r h') (hu : h.Unhindered r es) :
    Option.Rel (Alike r) (h.run es) (h'.run es) := by
  induction es generalizing h h' with
  | nil => exact .some ha
  | cons event es ih =>
    refine rel_bind (alike_step ha (hu [] event es h rfl rfl)) fun next next' hs hnext => ?_
    exact ih hnext (hu.of_cons hs)

/-! ### Guarded engines -/

/-- An engine is guarded.  A task that is handed to it gets there exactly if its enforcer was last
told not to enforce anything, or the policy that was last given to the enforcer allows the call:
then the engine is asked to do this very task and decides where the call is.  Otherwise the call
fails as denied by that policy, the denial is counted, and nothing happens to any engine.  No other
event gets a task to the engine.  Whatever else happens is as it would be without the guard: starts
and stops of the engine, the end of what was let pass, its name and its version.  So a run in which
nothing is denied is the same as without the guard, but for audits that are noted. -/
theorem guarded_run {config : HostConfig} {h₀ : Host} {i : EnforcerId} {policy : Policy}
    {active : Bool} (hnew : Host.new config = .ok h₀) (hrun : h₀.run es = some h)
    (hg : h.engines[r]? = some g) (hguard : g.guard? = some i)
    (hpolicy : (logged step (given? i) h₀ es).getLast? = some policy)
    (hactive : (logged step (told? i) h₀ es).getLast? = some active) :
    (∀ event h' x, h.step event = some h' → h.handed? event = some x → x.engine = r →
      (active = false ∨ policy.allow (g.operation x.task) = true →
        h'.tasks = (r, x.task) :: h.tasks ∧ h'.metrics = h.metrics ∧ ∃ token call,
          h'.engines = h.engines.modify r (fun g' =>
            { g' with engine := (g.engine.ask (.run x.task) token (h.hasFired token) h.now).2 }) ∧
          h'.call? x.call = some call ∧
          call.stage = stageOf r (.run x.task)
            (g.engine.ask (.run x.task) token (h.hasFired token) h.now).1) ∧
      (active = true ∧ policy.allow (g.operation x.task) = false →
        h'.tasks = h.tasks ∧ h'.engines = h.engines ∧
          h'.metrics = h.metrics.add (.denials g.engine.name) 1 ∧ ∃ call,
          h'.call? x.call = some call ∧
          call.stage =
            .over (.error (.policyDenied (g.operation x.task).render policy.name)))) ∧
    (∀ event h', h.step event = some h' → (∀ x, h.handed? event = some x → x.engine ≠ r) →
      (h'.tasks.filter fun asked => asked.1 = r) = h.tasks.filter fun asked => asked.1 = r) ∧
    (∀ event, h.Permitted r (h.handed? event) →
      Option.Rel (Alike r) (h.step event) ((h.unguard r).step event)) ∧
    (∀ op token, op.isRun = false → Option.Rel (Alike r)
      (h.step (.ask (.engine r op) token)) ((h.unguard r).step (.ask (.engine r op) token))) ∧
    (h.unguard r).engine? r = h.engine? r ∧
    ∀ es', h.Unhindered r es' → Option.Rel (Alike r) (h.run es') ((h.unguard r).run es') := by
  have hmade : r < h.engines.length := (List.getElem?_eq_some_iff.mp hg).1
  have halike : h.Alike r (h.unguard r) := alike_unguard hmade
  have henforcer : h.enforcer? g = some ⟨policy, active⟩ := by
    rw [enforcer?, hguard]
    exact enforcer_of_new hnew hrun hpolicy hactive
  have hpermits : ∀ task, h.permits r task = (!active || policy.allow (g.operation task)) :=
    fun task => by simp [permits, hg, henforcer, Enforcer.lets]
  refine ⟨?_, fun event h' => tasks_step_of_not_to, fun event hp => alike_step halike hp, ?_,
    engine?_unguard h r r, fun es' hu => alike_run halike hu⟩
  · rintro event h' x hs hx rfl
    refine ⟨fun hlets => ?_, fun hnot => ?_⟩
    · have hp : h.permits x.engine x.task = true := by
        simpa [hpermits] using hlets
      exact step_of_permitted hs hx hg hp
    · have hp : h.permits x.engine x.task = false := by
        simpa [hpermits] using hnot
      obtain ⟨htasks, hengines, hmetrics, enforcer, call, henforcer', hcall, hstage⟩ :=
        step_of_denied hs hx hg hp
      obtain rfl := Option.some.inj (henforcer.symm.trans henforcer')
      exact ⟨htasks, hengines, hmetrics, call, hcall, hstage⟩
  · intro op token hop
    refine alike_step halike fun x hx => ?_
    cases op with
    | run task => cases hop
    | _ => cases hx

/-- An engine whose enforcer is given a policy that denies all calls. -/
theorem guarded_run_after_update :
    ∃ h₀ h h' call, Host.new default = .ok h₀ ∧
      h₀.run [.makeEnforcer (.new "open"), .make (.foreign "rust" "1") (some 0),
        .update 0 ((Policy.new "strict").addRule (.new .runtimeCall .deny 1))] = some h ∧
      h.step (.ask (.engine 0 (.run (.call "add" []))) (.root 0)) = some h' ∧
      h'.tasks = [] ∧ h'.engines = h.engines ∧
      h'.metrics = h.metrics.add (.denials "rust") 1 ∧ h'.call? 0 = some call ∧
      call.stage = .over (.error (.policyDenied "runtime_call add (rust)" "strict")) := by
  let es : List HostEvent := [.makeEnforcer (.new "open"), .make (.foreign "rust" "1") (some 0),
    .update 0 ((Policy.new "strict").addRule (.new .runtimeCall .deny 1))]
  obtain ⟨h₀, h, h', x, hnew, hrun, hs, hx, hengine, hcall, hnone, hg, hgiven, htold, hdenied,
      hrender⟩ :
      ∃ h₀ h h' x, Host.new default = .ok h₀ ∧ h₀.run es = some h ∧
        h.step (.ask (.engine 0 (.run (.call "add" []))) (.root 0)) = some h' ∧
        h.handed? (.ask (.engine 0 (.run (.call "add" []))) (.root 0)) = some x ∧
        x.engine = 0 ∧ x.call = 0 ∧ h.tasks = [] ∧
        h.engines[0]? = some ⟨.foreign "rust" "1", some 0⟩ ∧
        (logged step (given? 0) h₀ es).getLast? =
          some ((Policy.new "strict").addRule (.new .runtimeCall .deny 1)) ∧
        (logged step (told? 0) h₀ es).getLast? = some true ∧
        ((Policy.new "strict").addRule (.new .runtimeCall .deny 1)).allow
          (Guarded.operation ⟨.foreign "rust" "1", some 0⟩ x.task) = false ∧
        (Guarded.operation ⟨.foreign "rust" "1", some 0⟩ x.task).render =
          "runtime_call add (rust)" :=
    ⟨_, _, _, _, rfl, rfl, rfl, rfl, rfl, rfl, rfl, rfl, rfl, rfl, rfl, rfl⟩
  obtain ⟨htasks, -⟩ := guarded_run hnew hrun hg rfl hgiven htold
  obtain ⟨-, hnot⟩ := htasks _ h' x hs hx hengine
  obtain ⟨htasks, hengines, hmetrics, call, hfound, hstage⟩ := hnot ⟨rfl, hdenied⟩
  rw [hcall] at hfound
  rw [hrender] at hstage
  exact ⟨h₀, h, h', call, hnew, hrun, hs, htasks.trans hnone, hengines, hmetrics, hfound, hstage⟩

end Host

end LanguageHost
