import LanguageHost.Proofs.Engine.Contract
import LanguageHost.Proofs.Host.Handing

/-!
# What an event does to an engine

An event does one thing to an engine, if it does anything: the engine is told something or does a
task, a token fires or something happens in its pool, or a start that is under way comes to its end
(`Engine.Edit`).  Whatever it is, the engine stays what it is (`Engine.Remains`).
-/

namespace LanguageHost

namespace Engine

variable {e e' e'' : Engine} {starting : Prop} {told? : Option (EngineOp × Progress)}
variable {p : Pool} {pe : PoolEvent}

/-- What an event may do to an engine, with what it was told.  A start comes to its end only where
one is under way. -/
inductive Edit (starting : Prop) (e : Engine) : Option (EngineOp × Progress) → Engine → Prop where
  | same : Edit starting e none e
  | told (op : EngineOp) (token : Token) (fired : Bool) (now : Nat) (hop : op.isRun = false) :
      Edit starting e (some (op, (e.ask op token fired now).1)) (e.ask op token fired now).2
  | runs (task : Task) (token : Token) (fired : Bool) (now : Nat) :
      Edit starting e none (e.ask (.run task) token fired now).2
  | fires (token : Token) : Edit starting e none (e.fire token)
  | follows (pe : PoolEvent) (hpe : pe.isWithin = true) :
      Edit starting e none (e.withPool fun p => p.follow pe)
  | prepared (hstarting : starting) (settings : RuntimeSettings) (report : Outcome StartReport)
      (now : Nat) : Edit starting e none (e.prepared settings report now).2
  | abandons (hstarting : starting) : Edit starting e none e.abandonStart

/-- Something happens in the pool, which is known to be possible. -/
theorem edit_withPool (hp : e.pool? = some p) (hpe : pe.isWithin = true) :
    Edit starting e none (e.withPool fun _ => p.follow pe) := by
  have hsame : (e.withPool fun _ => p.follow pe) = e.withPool fun q => q.follow pe :=
    withPool_congr hp rfl
  rw [hsame]
  exact .follows pe hpe

theorem edit_poolStep (hpe : pe.isWithin = true) (h : e.poolStep pe = some e') :
    Edit starting e none e' := by
  obtain ⟨pool, hpool, rfl⟩ := Option.map_eq_some_iff.mp h
  obtain ⟨p, hp, hstep⟩ := Option.bind_eq_some_iff.mp hpool
  have hfollow : pool = p.follow pe := by rw [Pool.follow, hstep, Option.getD_some]
  rw [hfollow]
  exact edit_withPool hp hpe

theorem edit_workEnds {t : Ticket} {report : WorkReport} (h : e.workEnds t report = some e') :
    Edit starting e none e' := by
  simp only [workEnds, Option.bind_eq_bind, Option.bind_eq_some_iff] at h
  obtain ⟨pool, -, work, -, result, -, hstep⟩ := h
  exact edit_poolStep rfl hstep

/-- An engine stays what it is, and once it was stopped it is stopped for good. -/
structure Remains (e e' : Engine) : Prop where
  name_eq : e'.name = e.name
  kind_eq : e'.kind = e.kind
  label_eq : e'.lifecycle.name = e.lifecycle.name
  stopped : e.lifecycle.stopped = true → e'.lifecycle.stopped = true

theorem Remains.refl (e : Engine) : e.Remains e := ⟨rfl, rfl, rfl, id⟩

theorem Remains.trans (h : e.Remains e') (h' : e'.Remains e'') : e.Remains e'' where
  name_eq := h'.name_eq.trans h.name_eq
  kind_eq := h'.kind_eq.trans h.kind_eq
  label_eq := h'.label_eq.trans h.label_eq
  stopped := fun hs => h'.stopped (h.stopped hs)

/-- An engine stays what it is, and nobody has stopped it. -/
structure Keeps (e e' : Engine) : Prop where
  name_eq : e'.name = e.name
  kind_eq : e'.kind = e.kind
  label_eq : e'.lifecycle.name = e.lifecycle.name
  stopped_eq : e'.lifecycle.stopped = e.lifecycle.stopped

theorem Keeps.refl (e : Engine) : e.Keeps e := ⟨rfl, rfl, rfl, rfl⟩

theorem Keeps.trans (h : e.Keeps e') (h' : e'.Keeps e'') : e.Keeps e'' where
  name_eq := h'.name_eq.trans h.name_eq
  kind_eq := h'.kind_eq.trans h.kind_eq
  label_eq := h'.label_eq.trans h.label_eq
  stopped_eq := h'.stopped_eq.trans h.stopped_eq

theorem Keeps.remains (h : e.Keeps e') : e.Remains e' :=
  ⟨h.name_eq, h.kind_eq, h.label_eq, fun hs => h.stopped_eq.trans hs⟩

theorem keeps_withPool (e : Engine) (f : Pool → Pool) : e.Keeps (e.withPool f) :=
  ⟨rfl, rfl, rfl, rfl⟩

theorem keeps_fire (e : Engine) (token : Token) : e.Keeps (e.fire token) := by
  have hall : ∀ (works : List Work) (e : Engine),
      e.Keeps (works.foldl (fun e w => e.withPool fun p => p.follow (.fire w.ticket)) e) := by
    intro works
    induction works with
    | nil => exact Keeps.refl
    | cons w works ih => exact fun e => (e.keeps_withPool _).trans (ih _)
  exact hall _ e

theorem keeps_prepared (e : Engine) (settings : RuntimeSettings) (report : Outcome StartReport)
    (now : Nat) : e.Keeps (e.prepared settings report now).2 := by
  cases report with
  | error err => exact ⟨rfl, rfl, rfl, rfl⟩
  | ok report =>
    simp only [prepared, Lifecycle.publish]
    split
    · exact ⟨rfl, rfl, rfl, rfl⟩
    · exact ⟨rfl, rfl, rfl, rfl⟩

theorem keeps_begin (e : Engine) (settings : RuntimeSettings) (fired : Bool) (now : Nat) :
    e.Keeps (e.begin settings fired now).2 := by
  rcases e.lifecycle.claim_cases with ⟨hclaim, -, -⟩ | ⟨err, hclaim⟩
  · unfold begin
    rw [hclaim]
    dsimp only
    split
    · next version table _ =>
      split
      · exact ⟨rfl, rfl, rfl, rfl⟩
      · have hopened := e.withClaim.keeps_prepared settings (.ok ⟨version, ""⟩) now
        exact ⟨hopened.name_eq, hopened.kind_eq, hopened.label_eq, hopened.stopped_eq⟩
    · exact ⟨rfl, rfl, rfl, rfl⟩
  · rw [begin_of_error hclaim]
    exact Keeps.refl e

theorem keeps_run (e : Engine) (task : Task) (token : Token) (fired : Bool) :
    e.Keeps (e.run task token fired).2 := by
  rcases e.run_cases task token fired with hsame | ⟨-, works, hrun⟩
  · rw [hsame]
    exact Keeps.refl e
  · rw [hrun]
    exact ⟨rfl, rfl, rfl, rfl⟩

theorem remains_stop (e : Engine) : e.Remains e.stop := by
  cases hstopped : e.lifecycle.stopped with
  | true =>
    rw [stop_of_stopped hstopped]
    exact Remains.refl e
  | false =>
    rw [stop_of_not_stopped hstopped]
    exact ⟨rfl, rfl, rfl, fun _ => rfl⟩

theorem stopped_stop (e : Engine) : e.stop.lifecycle.stopped = true := by
  cases hstopped : e.lifecycle.stopped with
  | true => rw [stop_of_stopped hstopped, hstopped]
  | false =>
    rw [stop_of_not_stopped hstopped]
    rfl

/-- Only an engine that is told to stop is stopped. -/
theorem keeps_or_stops (e : Engine) (op : EngineOp) (token : Token) (fired : Bool) (now : Nat) :
    e.Keeps (e.ask op token fired now).2 ∨
      op = .stop ∧ (e.ask op token fired now).2 = e.stop := by
  unfold ask
  split
  · exact .inl (Keeps.refl e)
  · split
    · exact .inl (e.keeps_begin _ fired now)
    · exact .inl (e.keeps_run _ token fired)
    · exact .inr ⟨rfl, rfl⟩

theorem Edit.keeps_or_stops (h : Edit starting e told? e') :
    e.Keeps e' ∨ (∃ progress, told? = some (.stop, progress)) ∧ e' = e.stop := by
  cases h with
  | same => exact .inl (Keeps.refl e)
  | told op token fired now =>
    rcases e.keeps_or_stops op token fired now with hkeeps | ⟨rfl, hstop⟩
    · exact .inl hkeeps
    · exact .inr ⟨⟨_, rfl⟩, hstop⟩
  | runs task token fired now =>
    rcases e.keeps_or_stops (.run task) token fired now with hkeeps | ⟨hop, -⟩
    · exact .inl hkeeps
    · cases hop
  | fires token => exact .inl (e.keeps_fire token)
  | follows pe => exact .inl (e.keeps_withPool _)
  | prepared _ settings report now => exact .inl (e.keeps_prepared settings report now)
  | abandons => exact .inl ⟨rfl, rfl, rfl, rfl⟩

theorem Edit.remains (h : Edit starting e told? e') : e.Remains e' := by
  rcases h.keeps_or_stops with hkeeps | ⟨-, rfl⟩
  · exact hkeeps.remains
  · exact e.remains_stop

end Engine

end LanguageHost
