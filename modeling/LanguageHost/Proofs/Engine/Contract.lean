import LanguageHost.Proofs.Engine.Reached
import LanguageHost.Proofs.Pool.Closed

/-!
# What an engine promises

An engine is started once at most, does its tasks after that and before it is stopped, and refuses
everything else (`EngineUsers.Contract`).  The first stop closes its pool: operations that are under
way come to their own end, and callers that wait for a worker are turned away.

This holds where no stop comes while a start is under way (`EngineUsers.Apart`); how an engine is
made, and what becomes of its starts, does not matter.
-/

namespace LanguageHost

/-- Whether a start has succeeded with an event. -/
def EngineEvent.opens : EngineEvent → Bool
  | .settle _ (.ok _) _ => true
  | _ => false

/-- How many starts have succeeded. -/
def openings (es : List EngineEvent) : Nat := es.countP EngineEvent.opens

namespace Engine

variable {e : Engine} {settings : RuntimeSettings} {token : Token} {fired : Bool} {now : Nat}
variable {task : Task} {err : HostError} {s : Started} {item : WorkItem}

/-- An engine that is not foreign does what it is asked for by itself. -/
theorem ask_of_not_foreign (h : ∀ version, e.kind ≠ .foreign version) (token : Token)
    (fired : Bool) (now : Nat) :
    (∀ settings, e.ask (.start settings) token fired now = e.begin settings fired now) ∧
      (∀ task, e.ask (.run task) token fired now = e.run task token fired) ∧
      e.ask .stop token fired now = (.done (.ok .null), e.stop) := by
  unfold ask
  split
  · next version hkind => exact absurd hkind (h version)
  · exact ⟨fun _ => rfl, fun _ => rfl, rfl⟩

theorem begin_of_error (h : e.lifecycle.claim = (.error err, e.lifecycle)) :
    e.begin settings fired now = (.done (.error err), e) := by
  rw [begin, h]

theorem run_of_error (h : e.lifecycle.running = .error err) :
    e.run task token fired = (.done (.error err), e) := by
  rw [run, h]

theorem run_of_itemOf_error (h : e.lifecycle.running = .ok s)
    (hitem : e.itemOf s task = .error err) :
    e.run task token fired = (.done (.error err), e) := by
  rw [run, h]
  simp only [hitem]

theorem run_of_itemOf_ok (h : e.lifecycle.running = .ok s) (hitem : e.itemOf s task = .ok item) :
    e.run task token fired = e.enqueue s item token fired := by
  rw [run, h]
  simp only [hitem]

end Engine

namespace EngineUsers

variable {u u' v : EngineUsers} {e : EngineEvent} {es es' : List EngineEvent} {engine : Engine}
variable {p : Pool}

/-! ### What a history tells of an engine -/

/-- No stop comes while a start is under way. -/
def Apart (u : EngineUsers) : List EngineEvent → Prop
  | [] => True
  | e :: es => (e = .stop → u.starting = false) ∧ ∀ v, u.step e = some v → v.Apart es

/-- A start that succeeds finds no state published, and publishes one. -/
theorem started_step (h : u.Sound) (ho : u.Occurs e u') :
    u'.engine.lifecycle.started?.isSome.toNat =
      u.engine.lifecycle.started?.isSome.toNat + openings [e] := by
  cases ho with
  | published hs =>
    have hnone := (h.claims.starting_alone hs).2
    rw [Lifecycle.publish_of_none hnone, hnone]
    rfl
  | @ran _ _ fired _ _ =>
    exact congrArg Bool.toNat
      (Engine.isSome_started_withPool u.engine fun p => p.follow (.askRun fired))
  | stopped => exact congrArg Bool.toNat (Engine.isSome_started_withPool _ _)
  | pool => exact congrArg Bool.toNat (Engine.isSome_started_withPool _ _)
  | _ => rfl

/-- What becomes of a start that somebody asks for: it is refused, it is over at once, or it has
the claim and is under way. -/
inductive Begins (u : EngineUsers) (settings : RuntimeSettings) (now : Nat) :
    Progress × Engine → Prop where
  | refused (reason : String) :
      u.Begins settings now (.done (.error (.invalidState reason)), u.engine)
  | cancelled {u' : EngineUsers}
      (h : u.run [.claim, .settle settings (.error .operationCancelled) now] = some u') :
      u.Begins settings now (.done (.error .operationCancelled), u'.engine)
  | opened {report : StartReport} {u' : EngineUsers}
      (h : u.run [.claim, .settle settings (.ok report) now] = some u') :
      u.Begins settings now (.done (.ok .null), u'.engine)
  | preparing {u' : EngineUsers} (h : u.step .claim = some u') (hs : u'.starting = true) :
      u.Begins settings now (.preparing settings, u'.engine)

theorem begins (u : EngineUsers) (settings : RuntimeSettings) (fired : Bool) (now : Nat) :
    u.Begins settings now (u.engine.begin settings fired now) := by
  cases hopen : u.engine.lifecycle.stopped with
  | true =>
    rw [Engine.begin_of_error (Lifecycle.claim_of_stopped hopen)]
    exact .refused _
  | false =>
    cases hfree : u.engine.lifecycle.claimed with
    | true =>
      rw [Engine.begin_of_error (Lifecycle.claim_of_claimed hopen hfree)]
      exact .refused _
    | false =>
      have hclaim := Lifecycle.claim_of_free hopen hfree
      have hstep : u.step .claim =
          some { u with engine := u.engine.withClaim, starting := true } := by
        simp only [step, hclaim]
        rfl
      have hsettle : ∀ report, u.run [.claim, .settle settings report now] =
          some { u with
            engine := (u.engine.withClaim.prepared settings report now).2, starting := false } :=
        fun report => run_cons_eq_some.mpr ⟨_, hstep, rfl⟩
      unfold Engine.begin
      rw [hclaim]
      simp only
      split
      · next version table _ =>
        split
        · exact .cancelled (hsettle (.error .operationCancelled))
        · exact .opened (hsettle (.ok ⟨version, ""⟩))
      · exact .preparing hstep rfl

/-- How an engine that is not foreign stands after a history. -/
structure Stands (e₀ : Engine) (es : List EngineEvent) (e : Engine) : Prop where
  not_foreign : ∀ version, e.kind ≠ .foreign version
  name_eq : e.lifecycle.name = e₀.name
  stopped : .stop ∈ es → e.lifecycle.stopped = true
  not_stopped : .stop ∉ es → e.lifecycle.stopped = false
  unopened : openings es = 0 → e.lifecycle.started? = none
  opened : openings es = 1 → e.lifecycle.claimed = true ∧ ∃ s, e.lifecycle.started? = some s

namespace Stands

variable {e₀ e : Engine} {settings : RuntimeSettings} {task : Task} {token : Token} {fired : Bool}
variable {now : Nat}

theorem shutDownError_eq (h : Stands e₀ es e) :
    e.lifecycle.shutDownError = .invalidState (e₀.name ++ " runtime is shut down") := by
  rw [Lifecycle.shutDownError, h.name_eq]

end Stands

end EngineUsers

end LanguageHost
