import LanguageHost.Proofs.Engine.Starts

/-!
# What is done to an engine

Whoever has an engine does one thing after another to it: asks it for something, tells it what has
happened in its pool, ends a start.  Each of these is a run of `EngineUsers`, so an engine that was
reached by its users from the beginning (`EngineUsers.Reached`) is reached by them afterwards.  What
matters about it is what becomes of the start that is under way: `Engine.Goes` leaves it as it is,
and `Engine.Shifts` says whether there was one before, whether there is one after, and whether one
was dropped.
-/

namespace LanguageHost

namespace EngineUsers

variable {u u' : EngineUsers} {e e' : Engine} {event : EngineEvent}
variable {starting starting' lost lost' : Bool}

/-- The users of a new engine have got it into this state. -/
def Reached (e : Engine) (starting lost : Bool) : Prop :=
  ∃ e₀ es, e₀.lifecycle = .new e₀.name ∧ (new e₀).run es = some ⟨e, starting, lost⟩

theorem reached_new (h : e.lifecycle = .new e.name) : Reached e false false := ⟨e, [], h, rfl⟩

theorem Reached.step (h : Reached e starting lost) (event : EngineEvent)
    (hs : EngineUsers.step ⟨e, starting, lost⟩ event = some ⟨e', starting', lost'⟩) :
    Reached e' starting' lost' := by
  obtain ⟨e₀, es, hnew, hrun⟩ := h
  refine ⟨e₀, es ++ [event], hnew, run_append_eq_some.mpr ⟨_, hrun, ?_⟩⟩
  exact run_cons_eq_some.mpr ⟨_, hs, rfl⟩

theorem Reached.sound (h : Reached e starting lost) : Sound ⟨e, starting, lost⟩ := by
  obtain ⟨e₀, es, hnew, hrun⟩ := h
  exact sound_run (sound_new hnew) hrun

/-- An engine and its lifecycle keep their names. -/
theorem names_step (ho : u.Occurs event u') :
    u'.engine.name = u.engine.name ∧
      u'.engine.lifecycle.name = u.engine.lifecycle.name := by
  cases ho with
  | published =>
    refine ⟨rfl, ?_⟩
    unfold Lifecycle.publish
    split <;> rfl
  | _ => exact ⟨rfl, rfl⟩

/-- The lifecycle of an engine has the name of the engine. -/
theorem Reached.name_eq (h : Reached e starting lost) : e.lifecycle.name = e.name := by
  obtain ⟨e₀, es, hnew, hrun⟩ := h
  have hfirst : (new e₀).engine.lifecycle.name = (new e₀).engine.name := by
    rw [new, hnew]
    rfl
  refine run_induction (motive := fun v => v.engine.lifecycle.name = v.engine.name) hfirst
    (fun v event w _ hv ho => ?_) hrun
  obtain ⟨hname, hlifecycle⟩ := names_step ho
  rw [hname, hlifecycle]
  exact hv

end EngineUsers

/-- Whether the start of an engine is under way after it was asked for something. -/
def Progress.isPreparing : Progress → Bool
  | .preparing _ => true
  | _ => false

namespace Engine

variable {e e' e'' : Engine} {p : Pool} {pe : PoolEvent} {f g : Pool → Pool} {token : Token}
variable {settings : RuntimeSettings} {fired was is drops : Bool} {now : Nat} {t : Ticket}

/-! ### Starts are left alone -/

/-- An engine is used, and the start that is under way is left as it is. -/
def Goes (e e' : Engine) : Prop :=
  ∀ starting lost, EngineUsers.Reached e starting lost → EngineUsers.Reached e' starting lost

theorem Goes.refl (e : Engine) : e.Goes e := fun _ _ h => h

theorem Goes.trans (h : e.Goes e') (h' : e'.Goes e'') : e.Goes e'' :=
  fun starting lost hr => h' starting lost (h starting lost hr)

theorem goes_run (e : Engine) (task : Task) (token : Token) (fired : Bool) :
    e.Goes (e.run task token fired).2 := fun _ _ h =>
  h.step (.run task token fired) rfl

theorem goes_stop (e : Engine) : e.Goes e.stop := fun _ _ h => h.step .stop rfl

/-- Something happens in the pool, if it is possible. -/
theorem goes_follow (hpe : pe.isWithin = true) (e : Engine) :
    e.Goes (e.withPool fun p => p.follow pe) := fun starting lost h => by
  refine h.step (.pool pe) ?_
  rw [EngineUsers.step, if_pos hpe]

/-- What is done to the pool of an engine matters only for the pool that it has. -/
theorem withPool_congr (hp : e.pool? = some p) (hf : f p = g p) : e.withPool f = e.withPool g := by
  obtain ⟨s, hs, rfl⟩ := Option.map_eq_some_iff.mp hp
  simp only [withPool, hs, Option.map_some, hf]

/-- Something happens in the pool, which is known to be possible. -/
theorem goes_withPool (hp : e.pool? = some p) (hpe : pe.isWithin = true) :
    e.Goes (e.withPool fun _ => p.follow pe) := by
  have hsame : (e.withPool fun _ => p.follow pe) = e.withPool fun q => q.follow pe :=
    withPool_congr hp rfl
  rw [hsame]
  exact goes_follow hpe e

theorem goes_poolStep (hpe : pe.isWithin = true) (h : e.poolStep pe = some e') : e.Goes e' := by
  obtain ⟨pool, hpool, rfl⟩ := Option.map_eq_some_iff.mp h
  obtain ⟨p, hp, hstep⟩ := Option.bind_eq_some_iff.mp hpool
  have hfollow : pool = p.follow pe := by rw [Pool.follow, hstep, Option.getD_some]
  rw [hfollow]
  exact goes_withPool hp hpe

theorem goes_workEnds {report : WorkReport} (h : e.workEnds t report = some e') : e.Goes e' := by
  simp only [workEnds, Option.bind_eq_bind, Option.bind_eq_some_iff] at h
  obtain ⟨pool, -, work, -, result, -, hstep⟩ := h
  exact goes_poolStep rfl hstep

theorem goes_fire (e : Engine) (token : Token) : e.Goes (e.fire token) := by
  have hall : ∀ (works : List Work) (e : Engine),
      e.Goes (works.foldl (fun e w => e.withPool fun p => p.follow (.fire w.ticket)) e) := by
    intro works
    induction works with
    | nil => exact Goes.refl
    | cons w works ih => exact fun e => (goes_follow rfl e).trans (ih _)
  exact hall _ e

theorem goes_wait (e : Engine) (time : Nat) : e.Goes (e.wait time) := goes_follow rfl e

/-! ### Starts -/

/-- An engine is used, and for the start that is under way it is said whether there was one before,
whether there is one after, and whether one was dropped. -/
def Shifts (was is drops : Bool) (e e' : Engine) : Prop :=
  ∀ starting lost, EngineUsers.Reached e starting lost → (was = true → starting = true) →
    ∃ starting', EngineUsers.Reached e' starting' (lost || drops) ∧
      starting'.toNat + was.toNat = starting.toNat + is.toNat

theorem Goes.shifts (h : e.Goes e') : Shifts false false false e e' := fun starting lost hr _ =>
  ⟨starting, by rw [Bool.or_false]; exact h starting lost hr, rfl⟩

theorem Goes.trans_shifts (h : e.Goes e') (h' : Shifts was is drops e' e'') :
    Shifts was is drops e e'' := fun starting lost hr => h' starting lost (h starting lost hr)

/-- A start that comes to its end is not under way any more. -/
theorem shifts_prepared (e : Engine) (settings : RuntimeSettings) (report : Outcome StartReport)
    (now : Nat) : Shifts true false false e (e.prepared settings report now).2 := by
  intro starting lost hr hstarting
  obtain rfl := hstarting rfl
  refine ⟨false, ?_, rfl⟩
  rw [Bool.or_false]
  exact hr.step (.settle settings report now) rfl

/-- A start whose token has fired gives the claim back. -/
theorem shifts_abandonStart (e : Engine) : Shifts true false false e e.abandonStart :=
  shifts_prepared e default (.error .operationCancelled) 0

/-- A start that is dropped leaves the engine as it is. -/
theorem shifts_of_drop (e : Engine) : Shifts true false true e e := by
  intro starting lost hr hstarting
  obtain rfl := hstarting rfl
  refine ⟨false, ?_, rfl⟩
  rw [Bool.or_true]
  exact hr.step .lose rfl

/-- An engine with the claim taken. -/
def withClaim (e : Engine) : Engine := { e with lifecycle := { e.lifecycle with claimed := true } }

/-- The claim is given to one start at a time. -/
theorem shifts_withClaim (hopen : e.lifecycle.stopped = false)
    (hfree : e.lifecycle.claimed = false) : Shifts false true false e e.withClaim := by
  intro starting lost hr _
  obtain ⟨hnone, -, -⟩ := hr.sound.claims.claim hfree
  obtain rfl : starting = false := hnone
  refine ⟨true, ?_, rfl⟩
  rw [Bool.or_false]
  refine hr.step .claim ?_
  have hclaim : e.lifecycle.claim = (.ok (), { e.lifecycle with claimed := true }) := by
    rw [Lifecycle.claim, if_neg (by simp [hopen]), if_neg (by simp [hfree])]
  simp only [EngineUsers.step, hclaim]
  rfl

/-- The start of an engine is over at once, or it takes the claim and is under way. -/
theorem begin_cases (e : Engine) (settings : RuntimeSettings) (fired : Bool) (now : Nat) :
    (∃ r e', e.begin settings fired now = (.done r, e') ∧ e.Goes e') ∨
      e.begin settings fired now = (.preparing settings, e.withClaim) ∧
        e.lifecycle.stopped = false ∧ e.lifecycle.claimed = false := by
  rcases e.lifecycle.claim_cases with ⟨hclaim, hopen, hfree⟩ | ⟨err, hclaim⟩
  · -- A native engine is started at once: its start takes the claim and comes to its end.
    have hnative : ∀ report, e.Goes (e.withClaim.prepared settings report now).2 := by
      intro report starting lost hr
      obtain ⟨starting', hr', hcount⟩ := shifts_withClaim hopen hfree starting lost hr nofun
      have hboth : starting' = true ∧ starting = false := by
        cases starting <;> cases starting' <;> simp at hcount ⊢
      obtain ⟨rfl, rfl⟩ := hboth
      rw [Bool.or_false] at hr'
      exact hr'.step (.settle settings report now) rfl
    unfold begin
    rw [hclaim]
    simp only
    split
    · next version table _ =>
      split
      · exact .inl ⟨_, _, rfl, hnative (.error .operationCancelled)⟩
      · exact .inl ⟨_, _, rfl, hnative (.ok ⟨version, ""⟩)⟩
    · exact .inr ⟨rfl, hopen, hfree⟩
  · refine .inl ⟨.error err, e, ?_, Goes.refl e⟩
    unfold begin
    rw [hclaim]

/-- A task is no start. -/
theorem isPreparing_run (e : Engine) (task : Task) (token : Token) (fired : Bool) :
    (e.run task token fired).1.isPreparing = false := by
  unfold run
  split
  · rfl
  · split
    · rfl
    · unfold enqueue
      simp only
      split
      · rfl
      · rfl

/-- Asking an engine for something begins a start, or leaves the start alone that is under way. -/
theorem shifts_ask (e : Engine) (op : EngineOp) (token : Token) (fired : Bool) (now : Nat) :
    Shifts false (e.ask op token fired now).1.isPreparing false e
      (e.ask op token fired now).2 := by
  unfold ask
  split
  · exact (Goes.refl e).shifts
  · split
    · next settings =>
      rcases e.begin_cases settings fired now with ⟨r, e', hdone, hgoes⟩ | ⟨hbegun, hopen, hfree⟩
      · rw [hdone]
        exact hgoes.shifts
      · rw [hbegun]
        exact shifts_withClaim hopen hfree
    · next task =>
      rw [isPreparing_run]
      exact (goes_run e task token fired).shifts
    · exact (goes_stop e).shifts

end Engine

end LanguageHost
