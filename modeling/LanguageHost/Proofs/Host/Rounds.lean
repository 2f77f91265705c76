import LanguageHost.Proofs.Host.Replies

/-!
# Asking one engine after the other

A start and a stop of all engines ask one engine after the other.  Around the request to an engine
stands a frame that remembers which ones are left, and an outcome that goes through that frame leads
to the answer, or to the next engine with fewer left (`Host.goesRound_pass`).  So such a call comes
to its end, whatever the engines answer: `Host.finishes_of_round`.
-/

namespace LanguageHost

namespace Frame

/-- Whether a frame goes on with the engines that are left. -/
def isRound : Frame → Bool
  | .starting .. | .stopping .. => true
  | _ => false

/-- How many engines are left. -/
def left : Frame → Nat
  | .starting _ _ entries => entries.length
  | .stopping _ entries _ => entries.length
  | _ => 0

end Frame

namespace Engine

/-- A start is over at once, or it waits for a foreign engine, or for an interpreter that is being
prepared. -/
theorem progress_start (e : Engine) (settings : RuntimeSettings) (token : Token) (fired : Bool)
    (now : Nat) : (∃ result, (e.ask (.start settings) token fired now).1 = .done result) ∨
      (e.ask (.start settings) token fired now).1 = .acting ∨
        (e.ask (.start settings) token fired now).1 = .preparing settings := by
  unfold ask
  split
  · exact .inr (.inl rfl)
  · rcases e.begin_cases settings fired now with ⟨result, e', hdone, -⟩ | ⟨hbegun, -, -⟩
    · exact .inl ⟨result, congrArg Prod.fst hdone⟩
    · exact .inr (.inr (congrArg Prod.fst hbegun))

/-- A stop is over at once, or it waits for a foreign engine. -/
theorem progress_stop (e : Engine) (token : Token) (fired : Bool) (now : Nat) :
    (e.ask .stop token fired now).1 = .done (.ok .null) ∨
      (e.ask .stop token fired now).1 = .acting := by
  unfold ask
  split
  · exact .inr rfl
  · exact .inl rfl

end Engine

namespace Host

variable {h h' g : Host} {r : EngineId} {e : Engine} {k : Call} {token : Token} {f : Frame}
variable {op : EngineOp} {frames : List Frame} {stage : Stage} {result : Outcome Json}

/-- A call has an outcome, or it waits for an engine that is there. -/
def Awaits (h : Host) (stage : Stage) : Prop :=
  (∃ result, stage = .over result) ∨
    stage.awaitsEngine = true ∧ ∀ r, stage.prepares r = true → ∃ e, h.engine? r = some e

theorem awaits_askEngine (hop : op.isRun = false) (h : Host) (r : EngineId) (token : Token)
    (frames : List Frame) :
    (h.askEngine r op token frames).host.Awaits (h.askEngine r op token frames).stage := by
  cases he : h.engine? r with
  | none =>
    have hnone : h.engines[r]? = none := Option.map_eq_none_iff.mp he
    simp only [askEngine, hnone]
    exact .inl ⟨_, rfl⟩
  | some e =>
    rw [askEngine_of_not_run hop he]
    generalize hprogress : e.ask op token (h.hasFired token) h.now = p
    obtain ⟨progress, e'⟩ := p
    cases progress with
    | done result => exact .inl ⟨result, rfl⟩
    | acting => exact .inr ⟨rfl, fun _ hs => by cases hs⟩
    | preparing settings =>
      refine .inr ⟨rfl, fun s hs => ?_⟩
      have hstage : (stageOf r op (.preparing settings)).prepares s = true := hs
      obtain ⟨rfl, -⟩ := prepares_stageOf_iff.mp hstage
      refine ⟨e', ?_⟩
      have hnoted : (h.note (.asked r op (h.hasFired token))).engine? r = some e := he
      rw [engine?_setEngine, if_pos rfl, hnoted, Option.map_some]
    | pooled ticket =>
      have hpooled := congrArg Prod.fst hprogress
      cases op with
      | run task => cases hop
      | start settings =>
        rcases e.progress_start settings token (h.hasFired token) h.now with
          ⟨result, hdone⟩ | hacting | hpreparing
        · cases hdone.symm.trans hpooled
        · cases hacting.symm.trans hpooled
        · cases hpreparing.symm.trans hpooled
      | stop =>
        rcases e.progress_stop token (h.hasFired token) h.now with hdone | hacting
        · cases hdone.symm.trans hpooled
        · cases hacting.symm.trans hpooled

/-- A call has its answer, or it goes on with an engine of which fewer than so many are left. -/
def GoesRound (n : Nat) (t : Turn) : Prop :=
  (t.frames = [] ∧ ∃ result, t.stage = .over result) ∨
    ∃ f, t.frames = [f] ∧ f.isRound = true ∧ f.left < n ∧ t.host.Awaits t.stage

theorem goesRound_askEngine {n : Nat} (hop : op.isRun = false) (hf : f.isRound = true)
    (hleft : f.left < n) (h : Host) (r : EngineId) (token : Token) :
    GoesRound n (h.askEngine r op token [f]) :=
  .inr ⟨f, (askEngine_frames h r op token [f]).1, hf, hleft, awaits_askEngine hop h r token [f]⟩

/-- An outcome goes through the frame of a call that asks one engine after the other. -/
theorem goesRound_pass (h : Host) (token : Token) (hf : f.isRound = true)
    (result : Outcome Json) : GoesRound f.left (h.pass token f [] result) := by
  have hstop : ∀ entries failures,
      GoesRound entries.length (h.stopNext token entries failures []) := by
    intro entries failures
    cases entries with
    | nil => exact .inl ⟨rfl, _, rfl⟩
    | cons entry rest => exact goesRound_askEngine rfl rfl (Nat.lt_succ_self _) h entry.2 token
  cases f with
  | starting name limit? entries =>
    cases result with
    | error err => exact .inl ⟨rfl, _, rfl⟩
    | ok v =>
      simp only [pass]
      cases entries with
      | nil => exact .inl ⟨rfl, _, rfl⟩
      | cons entry rest =>
        simp only [startNext]
        split
        · exact .inl ⟨rfl, _, rfl⟩
        · exact goesRound_askEngine rfl rfl (Nat.lt_succ_self _) h _ token
  | stopping name entries failures =>
    cases result with
    | ok v => exact hstop entries failures
    | error err => exact hstop entries _
  | _ => cases hf

/-- Whatever the engines answer, a call that asks one after the other comes to its end. -/
theorem finishes_of_round (answers : EngineId → Outcome StartReport) {h : Host} {k : Call}
    {f : Frame} (hk : h.call? k.id = some k) (hframes : k.frames = [f]) (hf : f.isRound = true)
    (hawaits : h.Awaits k.stage) :
    ∃ own g answer, (∀ event ∈ own, GoesBy answers k.id event) ∧ h.run own = some g ∧
      g.answer? k.id = some answer := by
  -- What is played after the next event is played after it.
  have hlater : ∀ event mid own {g answer}, GoesBy answers k.id event → h.step event = some mid →
      (∀ event ∈ own, GoesBy answers k.id event) → mid.run own = some g →
      g.answer? k.id = some answer → ∃ own g answer, (∀ event ∈ own, GoesBy answers k.id event) ∧
        h.run own = some g ∧ g.answer? k.id = some answer := by
    intro event mid own g answer hevent hs hown hrun hanswer
    exact ⟨event :: own, g, answer, List.forall_mem_cons.mpr ⟨hevent, hown⟩,
      plays.cons_eq_some.mpr ⟨mid, hs, hrun⟩, hanswer⟩
  rcases hawaits with ⟨result, hstage⟩ | ⟨hwaits, hengine⟩
  · let t : Turn := h.pass k.token f [] result
    have ht : h.resume k = some t := by simp only [resume, hstage, hframes, t]
    have hs : h.step (.resume k.id) = some (settle t k) := step_resume hk ht
    let k' : Call := { k with frames := t.frames, stage := t.stage, since := t.host.now }
    have hk' : (settle t k).call? k'.id = some k' := call?_settle hk (moves_resume ht).calls_eq
    rcases goesRound_pass h k.token hf result with ⟨hnil, result', hover⟩ |
      ⟨f', hf', hround, hless, hawaits'⟩
    · exact hlater _ _ [] .resume hs (List.forall_mem_nil _) rfl (answer?_of_call? hk' hnil hover)
    · obtain ⟨own, g, answer, hown, hrun, hanswer⟩ :=
        finishes_of_round (k := k') answers hk' hf' hround hawaits'
      exact hlater _ _ own .resume hs hown hrun hanswer
  · obtain ⟨event, mid, result, hevent, hs, hk'⟩ := goes_of_awaits answers hk hwaits hengine
    let j : Call := { k with stage := .over result, since := h.now }
    obtain ⟨own, g, answer, hown, hrun, hanswer⟩ :=
      finishes_of_round (k := j) answers hk' hframes hf (.inl ⟨result, rfl⟩)
    exact hlater _ _ own hevent hs hown hrun hanswer
-- An outcome leaves fewer engines; a reply leaves as many and has the call wait no more.
termination_by (f.left, k.stage.awaitsEngine.toNat)
decreasing_by
  · exact .left _ _ hless
  · rw [hwaits]
    exact .right _ Nat.zero_lt_one

end Host

end LanguageHost
