import LanguageHost.Host.Step
import LanguageHost.Proofs.Engine.Reached

/-!
# The starts of the engines of a host

What a host does to its engines.  Most of what happens leaves the starts alone that are under way
(`Host.Goes`).  A call may begin the start of an engine, and then it is at the stage of preparing
it; when it leaves that stage the start has come to its end, or it was dropped (`Host.Becomes`).
What a call does by itself gets it from a stage that prepares nothing to the stage where it is then
(`Host.Reaches`), and what happens at a stage gets it from that stage to another (`Host.Moves`).
-/

namespace LanguageHost

/-- Whether an engine is being prepared at a stage. -/
def Stage.prepares (r : EngineId) : Stage → Bool
  | .preparing s _ => s == r
  | _ => false

namespace Host

variable {h h' mid : Host} {r s : EngineId} {e e' : Engine} {was is : EngineId → Bool}
variable {drops : Bool} {t : Turn} {call : Call} {stage : Stage}

/-- How many calls prepare an engine. -/
def preparing (h : Host) (r : EngineId) : Nat := h.calls.countP fun k => k.stage.prepares r

theorem engine?_setEngine (h : Host) (r s : EngineId) (e : Engine) :
    (h.setEngine r e).engine? s = if s = r then (h.engine? s).map fun _ => e else h.engine? s := by
  simp only [engine?, setEngine, List.getElem?_modify, Option.map_eq_map, Option.map_map]
  by_cases hs : s = r
  · subst hs
    simp only [if_true]
    rfl
  · simp only [if_neg hs, if_neg (Ne.symm hs)]
    rfl

/-! ### Starts are left alone -/

/-- The engines are used, the starts that are under way and the calls are left as they are. -/
structure Goes (h h' : Host) : Prop where
  calls_eq : h'.calls = h.calls
  asked_eq : h'.asked = h.asked
  engines : ∀ r, Option.Rel Engine.Goes (h.engine? r) (h'.engine? r)

theorem rel_refl {R : Engine → Engine → Prop} (hR : ∀ e, R e e) (e? : Option Engine) :
    Option.Rel R e? e? := by
  cases e? with
  | none => exact .none
  | some e => exact .some (hR e)

theorem rel_imp {R S : Engine → Engine → Prop} {a b : Option Engine} (h : Option.Rel R a b)
    (himp : ∀ e e', R e e' → S e e') : Option.Rel S a b := by
  cases h with
  | none => exact .none
  | some hab => exact .some (himp _ _ hab)

/-- What is done to an engine first and what is done to it then. -/
theorem rel_comp {R S T : Engine → Engine → Prop} {a b d : Option Engine} (h : Option.Rel R a b)
    (h' : Option.Rel S b d) (himp : ∀ e e' e'', R e e' → S e' e'' → T e e'') :
    Option.Rel T a d := by
  cases h with
  | none =>
    cases h' with
    | none => exact .none
  | some hab =>
    cases h' with
    | some hbd => exact .some (himp _ _ _ hab hbd)

/-- Nothing was done to any engine. -/
theorem goes_of_eq (hcalls : h'.calls = h.calls) (hasked : h'.asked = h.asked)
    (hengines : h'.engines = h.engines) : h.Goes h' := by
  refine ⟨hcalls, hasked, fun r => ?_⟩
  rw [engine?, engine?, hengines]
  exact rel_refl Engine.Goes.refl _

theorem Goes.refl (h : Host) : h.Goes h := goes_of_eq rfl rfl rfl

theorem goes_setEngine (he : h.engine? r = some e) (hg : e.Goes e') :
    h.Goes (h.setEngine r e') := by
  refine ⟨rfl, rfl, fun s => ?_⟩
  rw [engine?_setEngine]
  split
  · next hs =>
    rw [hs, he]
    exact .some hg
  · exact rel_refl Engine.Goes.refl _

/-- The same is done to all engines. -/
theorem goes_map {f : Engine → Engine} (hf : ∀ e : Engine, e.Goes (f e))
    (hcalls : h'.calls = h.calls) (hasked : h'.asked = h.asked)
    (hengines : h'.engines = h.engines.map fun g => { g with engine := f g.engine }) :
    h.Goes h' := by
  refine ⟨hcalls, hasked, fun r => ?_⟩
  rw [engine?, engine?, hengines, List.getElem?_map]
  cases h.engines[r]? with
  | none => exact .none
  | some g => exact .some (hf g.engine)

theorem goes_fire (h : Host) (token : Token) : h.Goes (h.fire token) :=
  goes_map (fun e => Engine.goes_fire e token) rfl rfl rfl

theorem goes_wait (h : Host) (time : Nat) : h.Goes (h.wait time) :=
  goes_map (fun e => Engine.goes_wait e time) rfl rfl rfl

theorem goes_letPass (h : Host) (g : Guarded) (op : EngineOp) :
    (h.letPass g op).2.calls = h.calls ∧ (h.letPass g op).2.asked = h.asked ∧
      (h.letPass g op).2.engines = h.engines := by
  unfold letPass
  split
  · unfold check
    split
    · exact ⟨rfl, rfl, rfl⟩
    · exact ⟨rfl, rfl, rfl⟩
  · exact ⟨rfl, rfl, rfl⟩

theorem goes_learn {ticket : Ticket} {result : Outcome Json}
    (hl : h.learn r ticket = some (result, h')) : h.Goes h' := by
  simp only [learn, Option.bind_eq_bind, Option.bind_eq_some_iff, Option.pure_def,
    Option.some.injEq, Prod.mk.injEq] at hl
  obtain ⟨e, he, pool, hpool, answer, -, -, rfl⟩ := hl
  exact goes_setEngine he (Engine.goes_withPool hpool rfl)

theorem goes_forEngine {f : Engine → Option Engine}
    (hf : ∀ e e', f e = some e' → e.Goes e') (hs : h.forEngine r f = some h') : h.Goes h' := by
  simp only [forEngine, Option.bind_eq_bind, Option.bind_eq_some_iff, Option.pure_def,
    Option.some.injEq] at hs
  obtain ⟨e, he, e', he', rfl⟩ := hs
  exact goes_setEngine he (hf e e' he')

/-! ### Starts begin and end -/

/-- The engines are used; for each it is said whether its start was under way, whether it is
afterwards, and whether it is dropped if it was. -/
structure Becomes (was is : EngineId → Bool) (drops : Bool) (h h' : Host) : Prop where
  calls_eq : h'.calls = h.calls
  asked_eq : h'.asked = h.asked
  engines : ∀ r, Option.Rel (Engine.Shifts (was r) (is r) (drops && was r)) (h.engine? r)
    (h'.engine? r)
  absent : ∀ r, h.engine? r = none → is r = false

/-- An engine that is there afterwards was there before. -/
theorem Becomes.engine_before (hb : Becomes was is drops h h') (he' : h'.engine? r = some e') :
    ∃ e, h.engine? r = some e ∧ Engine.Shifts (was r) (is r) (drops && was r) e e' := by
  have hr := hb.engines r
  rw [he'] at hr
  cases he : h.engine? r with
  | none =>
    rw [he] at hr
    cases hr
  | some e =>
    rw [he] at hr
    cases hr with
    | some hshift => exact ⟨e, rfl, hshift⟩

theorem Becomes.no_engine_before (hb : Becomes was is drops h h') (hnone : h'.engine? r = none) :
    h.engine? r = none := by
  have hr := hb.engines r
  rw [hnone] at hr
  cases he : h.engine? r with
  | none => rfl
  | some e =>
    rw [he] at hr
    cases hr

theorem Goes.becomes (hg : h.Goes h') : Becomes (fun _ => false) (fun _ => false) drops h h' := by
  refine ⟨hg.calls_eq, hg.asked_eq, fun r => rel_imp (hg.engines r) fun e e' hgoes => ?_,
    fun _ _ => rfl⟩
  rw [Bool.and_false]
  exact hgoes.shifts

/-- A call gets from a stage that prepares no engine to where it is in a turn. -/
def Reaches (h : Host) (t : Turn) : Prop :=
  Becomes (fun _ => false) (fun r => t.stage.prepares r) false h t.host

theorem Goes.reaches (hg : h.Goes t.host) (hstage : ∀ r, t.stage.prepares r = false) :
    h.Reaches t := by
  rw [Reaches, funext hstage]
  exact hg.becomes

/-- What was done before, as long as the starts were left alone, does not matter. -/
theorem Goes.trans_reaches (hg : h.Goes mid) (ht : mid.Reaches t) : h.Reaches t := by
  refine ⟨ht.calls_eq.trans hg.calls_eq, ht.asked_eq.trans hg.asked_eq, fun r => ?_, fun r hr => ?_⟩
  · exact rel_comp (hg.engines r) (ht.engines r) fun e e' e'' hgoes => hgoes.trans_shifts
  · have hfirst := hg.engines r
    rw [hr] at hfirst
    refine ht.absent r ?_
    generalize mid.engine? r = b at hfirst
    cases hfirst
    rfl

/-- One engine shifts, and nothing is done to the others. -/
theorem becomes_setEngine {w i : Bool} (he : h.engine? r = some e)
    (hs : Engine.Shifts w i (drops && w) e e') :
    Becomes (fun s => w && r == s) (fun s => i && r == s) drops h (h.setEngine r e') := by
  refine ⟨rfl, rfl, fun s => ?_, fun s hnone => ?_⟩
  · rw [engine?_setEngine]
    by_cases hsr : s = r
    · subst hsr
      rw [if_pos rfl, he]
      simpa using Option.Rel.some (r := Engine.Shifts w i (drops && w)) hs
    · rw [if_neg hsr]
      have hne : (r == s) = false := by simpa using Ne.symm hsr
      rw [hne]
      simp only [Bool.and_false]
      exact rel_refl (fun e => (Engine.Goes.refl e).shifts) _
  · have hne : r ≠ s := by
      rintro rfl
      cases he.symm.trans hnone
    simp [hne]

/-! ### What a call does by itself -/

theorem prepares_stageOf (r : EngineId) (op : EngineOp) (p : Progress) :
    (fun s => (stageOf r op p).prepares s) = fun s => p.isPreparing && r == s := by
  funext s
  cases p with
  | preparing settings => exact (Bool.true_and _).symm
  | _ => exact (Bool.false_and _).symm

/-- An engine that is asked may begin a start, and then the call prepares it. -/
theorem reaches_askEngine (h : Host) (r : EngineId) (op : EngineOp) (token : Token)
    (frames : List Frame) : h.Reaches (h.askEngine r op token frames) := by
  unfold askEngine
  split
  · exact (Goes.refl h).reaches fun _ => rfl
  · next g hg =>
    obtain ⟨hcalls, hasked, hengines⟩ := goes_letPass h g op
    split
    · next err mid hpass =>
      rw [hpass] at hcalls hasked hengines
      exact (goes_of_eq hcalls hasked hengines).reaches fun _ => rfl
    · next mid hpass =>
      rw [hpass] at hcalls hasked hengines
      have hnoted : h.Goes (mid.note (.asked r op (mid.hasFired token))) :=
        goes_of_eq hcalls hasked hengines
      refine hnoted.trans_reaches ?_
      have he : (mid.note (.asked r op (mid.hasFired token))).engine? r = some g.engine := by
        have hmid : mid.engines[r]? = some g := hengines ▸ hg
        simp only [engine?, note, hmid, Option.map_some]
      simp only [Reaches, prepares_stageOf]
      exact becomes_setEngine (w := false) he
        (Engine.shifts_ask g.engine op token (mid.hasFired token) mid.now)

theorem reaches_dispatch (h : Host) (name : String) (task : Task) (token : Token)
    (frames : List Frame) : h.Reaches (h.dispatch name task token frames) := by
  unfold dispatch
  split
  · exact (Goes.refl h).reaches fun _ => rfl
  · exact reaches_askEngine _ _ _ _ _

theorem reaches_callBridge (h : Host) (name : String) (args : List Json) (token : Token) :
    h.Reaches (h.callBridge name args token) := by
  have hscope : h.Goes { h with scopes := h.scopes + 1 } := goes_of_eq rfl rfl rfl
  unfold callBridge
  split
  · exact (Goes.refl h).reaches fun _ => rfl
  · split
    · exact (Goes.refl h).reaches fun _ => rfl
    · exact hscope.trans_reaches (reaches_dispatch _ _ _ _ _)
  · exact hscope.reaches fun _ => rfl

theorem reaches_startNext (h : Host) (token : Token) (entries : List (String × RuntimeSettings))
    (frames : List Frame) : h.Reaches (h.startNext token entries frames) := by
  unfold startNext
  split
  · exact (Goes.refl h).reaches fun _ => rfl
  · split
    · exact (Goes.refl h).reaches fun _ => rfl
    · exact reaches_askEngine _ _ _ _ _

theorem reaches_stopNext (h : Host) (token : Token) (entries : List (String × EngineId))
    (failures : List (String × HostError)) (frames : List Frame) :
    h.Reaches (h.stopNext token entries failures frames) := by
  unfold stopNext
  split
  · exact (Goes.refl h).reaches fun _ => rfl
  · exact reaches_askEngine _ _ _ _ _

theorem reaches_begin (h : Host) (request : Request) (token : Token) :
    h.Reaches (h.begin request token) := by
  cases request with
  | start => exact reaches_startNext _ _ _ _
  | stop => exact reaches_stopNext _ _ _ _ _
  | dispatch name task => exact reaches_dispatch _ _ _ _ _
  | bridge name args => exact reaches_callBridge _ _ _ _
  | engine r op => exact reaches_askEngine _ _ _ _ _

theorem reaches_pass (h : Host) (token : Token) (f : Frame) (rest : List Frame)
    (result : Outcome Json) : h.Reaches (h.pass token f rest result) := by
  cases f with
  | race _ => exact Goes.reaches (Goes.refl h) fun _ => rfl
  | tracked runtime function since => exact Goes.reaches (goes_of_eq rfl rfl rfl) fun _ => rfl
  | starting name limit? entries =>
    cases result with
    | ok v => exact reaches_startNext _ _ _ _
    | error e => exact Goes.reaches (Goes.refl h) fun _ => rfl
  | stopping name entries failures =>
    cases result with
    | ok v => exact reaches_stopNext _ _ _ _ _
    | error e => exact reaches_stopNext _ _ _ _ _

/-! ### What happens at a stage -/

/-- A call gets from a stage to where it is in a turn, and it may drop a start. -/
def Moves (h : Host) (stage : Stage) (t : Turn) (drops : Bool) : Prop :=
  Becomes (fun r => stage.prepares r) (fun r => t.stage.prepares r) drops h t.host

theorem Reaches.moves (ht : h.Reaches t) (hstage : ∀ r, stage.prepares r = false) :
    h.Moves stage t drops := by
  rw [Moves, funext hstage]
  refine ⟨ht.calls_eq, ht.asked_eq, fun r => ?_, ht.absent⟩
  rw [Bool.and_false]
  exact ht.engines r

theorem Goes.moves (hg : h.Goes t.host) (hstage : ∀ r, stage.prepares r = false)
    (hover : ∀ r, t.stage.prepares r = false) : h.Moves stage t drops :=
  (hg.reaches hover).moves hstage

/-- Going away from a stage drops the start that is under way there, if there is one. -/
theorem becomes_leave (h : Host) (stage : Stage) :
    Becomes (fun r => stage.prepares r) (fun _ => false) true h (h.leave stage) := by
  cases stage with
  | preparing s settings =>
    refine ⟨rfl, rfl, fun r => rel_refl (fun e => ?_) _, fun _ _ => rfl⟩
    cases hs : (Stage.preparing s settings).prepares r with
    | false => exact (Engine.Goes.refl e).shifts
    | true => exact Engine.shifts_of_drop e
  | pooled r t =>
    refine Goes.becomes ?_
    simp only [leave]
    split
    · next e he => exact goes_setEngine he (Engine.goes_follow rfl e)
    · exact Goes.refl h
  | _ => exact Goes.becomes (Goes.refl h)

/-- A start ends where the call prepares an engine. -/
theorem moves_setEngine {settings : RuntimeSettings} {frames : List Frame} {result : Outcome Json}
    (he : h.engine? r = some e) (hs : Engine.Shifts true false false e e') :
    h.Moves (.preparing r settings) ⟨h.setEngine r e', frames, .over result⟩ false := by
  have hb : Becomes (fun s => true && r == s) (fun s => false && r == s) false h
      (h.setEngine r e') := becomes_setEngine he hs
  exact hb

theorem moves_goOn (hg : h.goOn call = some t) : h.Moves call.stage t false := by
  unfold goOn at hg
  split at hg
  · next r ticket hstage =>
    simp only [Option.bind_eq_bind, Option.bind_eq_some_iff, Option.pure_def, Option.some.injEq]
      at hg
    obtain ⟨⟨result, h'⟩, hl, rfl⟩ := hg
    rw [hstage]
    exact (goes_learn hl).moves (fun _ => rfl) fun _ => rfl
  · next r settings hstage =>
    split at hg
    · obtain ⟨e, he, rfl⟩ := Option.map_eq_some_iff.mp hg
      rw [hstage]
      exact moves_setEngine he (Engine.shifts_abandonStart e)
    · cases hg
  · cases hg

/-- A start that is under way goes on, or it is dropped because a race around it is over. -/
theorem moves_resume (hr : h.resume call = some t) :
    h.Moves call.stage t (cutRace h.hasFired call.frames).isSome := by
  unfold resume at hr
  split at hr
  · next result hstage =>
    split at hr
    · cases hr
    · next f rest hframes =>
      cases hr
      rw [hstage]
      exact (reaches_pass h call.token f rest result).moves fun _ => rfl
  · split at hr
    · next outer hcut =>
      cases hr
      rw [hcut]
      exact becomes_leave h call.stage
    · next hcut =>
      rw [hcut]
      exact moves_goOn hr

theorem moves_timeOut (ht : h.timeOut call = some t) : h.Moves call.stage t true := by
  unfold timeOut at ht
  split at ht
  · cases ht
  · obtain ⟨⟨limit, frames⟩, -, rfl⟩ := Option.map_eq_some_iff.mp ht
    exact becomes_leave h call.stage

theorem moves_returned (hr : h.returned call = some t) : h.Moves call.stage t false := by
  obtain ⟨f, token, args, hstage, rfl⟩ := of_returned hr
  rw [hstage]
  split <;> exact (Goes.refl h).moves (fun _ => rfl) fun _ => rfl

theorem moves_finished {result : Outcome Json} (hf : h.finished call result = some t) :
    h.Moves call.stage t false := by
  obtain ⟨⟨f, token, args, hstage⟩, rfl⟩ := of_finished hf
  rw [hstage]
  exact (Goes.refl h).moves (fun _ => rfl) fun _ => rfl

theorem moves_acted {result : Outcome Json} (ha : h.acted call result = some t) :
    h.Moves call.stage t false := by
  unfold acted at ha
  split at ha
  · next r op hstage =>
    cases ha
    rw [hstage]
    exact (Goes.refl h).moves (fun _ => rfl) fun _ => rfl
  · cases ha

theorem moves_prepared {report : Outcome StartReport} (hp : h.prepared call report = some t) :
    h.Moves call.stage t false := by
  unfold prepared at hp
  split at hp
  · next r settings hstage =>
    obtain ⟨e, he, rfl⟩ := Option.map_eq_some_iff.mp hp
    rw [hstage]
    exact moves_setEngine he (Engine.shifts_prepared e settings report h.now)
  · cases hp

end Host

end LanguageHost
