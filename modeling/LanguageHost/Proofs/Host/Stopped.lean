import LanguageHost.Proofs.Host.Orders
import LanguageHost.Proofs.Host.Verdicts

/-!
# Engines that were stopped

A stop that comes while nobody is starting the engine is final: the engine stays as it is with its
pool closed, and no later start gets anywhere (`Host.GoneAt`, which every event keeps).  A stop that
comes during a start is not, because the start opens the pool afterwards; so a history in which
stops and starts of an engine do not overlap (`Host.Apart`) is what carries `Host.parted_run`, and
nothing is asked of what comes later.
-/

namespace LanguageHost

theorem Pool.Shut.mono {p : Pool} {workers workers' : List Worker} (h : p.Shut workers)
    (hsub : workers' ⊆ workers) : p.Shut workers' :=
  ⟨h.used, h.closed, h.closing_eq, List.Subset.trans hsub h.retired⟩

namespace Engine

variable {e e' : Engine} {starting : Prop} {told? : Option (EngineOp × Progress)} {op : EngineOp}

/-- What an engine that was stopped answers at once. -/
def lastWord (e : Engine) : EngineOp → Outcome Json
  | .stop => .ok .null
  | _ => .error e.lifecycle.shutDownError

/-- An engine that was stopped does nothing any more. -/
theorem ask_of_stopped (hs : e.lifecycle.stopped = true)
    (hkind : ∀ version, e.kind ≠ .foreign version) (op : EngineOp) (token : Token) (fired : Bool)
    (now : Nat) : e.ask op token fired now = (.done (e.lastWord op), e) := by
  obtain ⟨hstart, hrun, hstop⟩ := ask_of_not_foreign hkind token fired now
  cases op with
  | start settings =>
    rw [hstart, begin_of_error (Lifecycle.claim_of_stopped hs)]
    rfl
  | run task =>
    rw [hrun, run_of_error (Lifecycle.running_of_stopped hs)]
    rfl
  | stop =>
    rw [hstop, stop_of_stopped hs]
    rfl

/-- Whatever it is, an engine that was stopped stays as it is and prepares nothing. -/
theorem ask_stopped (hs : e.lifecycle.stopped = true) (op : EngineOp) (token : Token)
    (fired : Bool) (now : Nat) : (e.ask op token fired now).2 = e ∧
      (e.ask op token fired now).1.isPreparing = false := by
  by_cases hkind : ∃ version, e.kind = .foreign version
  · obtain ⟨version, hkind⟩ := hkind
    have hforeign : e.ask op token fired now = (.acting, e) := by simp only [ask, hkind]
    rw [hforeign]
    exact ⟨rfl, rfl⟩
  · rw [ask_of_stopped hs (fun version h => hkind ⟨version, h⟩)]
    exact ⟨rfl, rfl⟩

/-- A stop prepares nothing. -/
theorem isPreparing_stop (e : Engine) (token : Token) (fired : Bool) (now : Nat) :
    (e.ask .stop token fired now).1.isPreparing = false := by
  unfold ask
  split
  · rfl
  · rfl

/-- An engine was stopped, and its pool is closed if it has one. -/
structure Gone (e : Engine) : Prop where
  stopped : e.lifecycle.stopped = true
  shut : ∀ p, e.pool? = some p → p.Shut []

theorem Gone.withPool {f : Pool → Pool} (hg : e.Gone) (hf : ∀ p, p.Shut [] → (f p).Shut []) :
    (e.withPool f).Gone := by
  refine ⟨hg.stopped, fun q hq => ?_⟩
  rw [pool?_withPool] at hq
  obtain ⟨p, hp, rfl⟩ := Option.map_eq_some_iff.mp hq
  exact hf p (hg.shut p hp)

theorem Gone.fire (hg : e.Gone) (token : Token) : (e.fire token).Gone := by
  have hall : ∀ (works : List Work) (e : Engine), e.Gone →
      (works.foldl (fun e w => e.withPool fun p => p.follow (.fire w.ticket)) e).Gone := by
    intro works
    induction works with
    | nil => exact fun e hg => hg
    | cons w works ih =>
      exact fun e hg => ih _ (hg.withPool fun p hp => hp.follow (.inl rfl))
  exact hall _ e hg

/-- Nothing brings an engine back once it is gone and nobody is starting it. -/
theorem Gone.edit (hg : e.Gone) (hnot : ¬ starting) (h : Edit starting e told? e') : e'.Gone := by
  cases h with
  | same => exact hg
  | told op token fired now => exact (ask_stopped hg.stopped op token fired now).1.symm ▸ hg
  | runs task token fired now =>
    exact (ask_stopped hg.stopped (.run task) token fired now).1.symm ▸ hg
  | fires token => exact hg.fire token
  | follows pe hpe => exact hg.withPool fun p hp => hp.follow (.inl hpe)
  | prepared hstarting => exact absurd hstarting hnot
  | abandons hstarting => exact absurd hstarting hnot

/-- The first stop closes the pool. -/
theorem gone_stop (hused : ∀ p, e.pool? = some p → p.Used) (hopen : e.lifecycle.stopped = false) :
    e.stop.Gone := by
  rw [stop_of_not_stopped hopen]
  refine ⟨rfl, fun q hq => ?_⟩
  rw [pool?_withPool] at hq
  obtain ⟨p, hp, rfl⟩ := Option.map_eq_some_iff.mp hq
  exact (Pool.shut_closeAtOnce (hused p hp)).mono (List.nil_subset _)

end Engine

namespace Host

variable {h h' g mid : Host} {r : EngineId} {e : Engine} {o : Order} {event : HostEvent}
variable {es es' : List HostEvent} {name : String}

/-! ### An engine that is gone -/

/-- An engine is gone, and nobody is starting it. -/
structure GoneAt (h : Host) (r : EngineId) : Prop where
  alone : h.preparing r = 0
  gone : ∃ e, h.engine? r = some e ∧ e.Gone

/-- Nobody comes to prepare an engine that is told nothing of that sort. -/
theorem preparing_step (hs : h.step event = some h') (halone : h.preparing r = 0)
    (horder : ∀ o, h.order? event = some o → o.engine = r → o.progress.isPreparing = false) :
    h'.preparing r = 0 := by
  cases obeys_of_step hs with
  | tells htells hcalls =>
    by_contra hpos
    obtain ⟨k, hk, hprepares⟩ := List.countP_pos_iff.mp (Nat.pos_of_ne_zero hpos)
    rcases hcalls k hk r hprepares with ⟨j, hj, hbefore⟩ | ⟨o, ho, hengine, hprogress⟩
    · exact Nat.ne_of_gt (preparing_pos hj hbefore) halone
    · cases (horder o ho hengine).symm.trans hprogress
  | make new guard? => exact (preparing_congr rfl r).trans halone
  | register s =>
    refine (preparing_congr ?_ r).trans halone
    unfold register
    split
    · rfl
    · split <;> rfl

theorem GoneAt.step (hg : h.GoneAt r) (hs : h.step event = some h') : h'.GoneAt r := by
  obtain ⟨e, he, hgone⟩ := hg.gone
  obtain ⟨e', he', hedit⟩ := (obeys_of_step hs).engine he
  have hnot : ¬ 0 < h.preparing r := Nat.not_lt.mpr (Nat.le_of_eq hg.alone)
  refine ⟨preparing_step hs hg.alone fun o ho hengine => ?_, e', he', hgone.edit hnot hedit⟩
  obtain ⟨e₁, token, he₁, hprogress⟩ := (ordered_of_order? ho).engine
  obtain rfl : e = e₁ := Option.some.inj (he.symm.trans (hengine ▸ he₁))
  rw [hprogress]
  exact (Engine.ask_stopped hgone.stopped o.op token _ _).2

theorem GoneAt.run (hg : h.GoneAt r) (hr : h.run es = some h') : h'.GoneAt r :=
  plays.induction (motive := fun g => g.GoneAt r) hg (fun _ _ _ _ hg hs => hg.step hs) hr

/-! ### Stops and starts apart -/

/-- The engine that an event tells to stop while somebody is starting it. -/
def stopsAmid? (h : Host) (event : HostEvent) : Option EngineId :=
  (h.order? event).bind fun o =>
    match o.op with
    | .stop => if 0 < h.preparing o.engine then some o.engine else none
    | _ => none

/-- Nobody is starting an engine when it is told to stop. -/
def Apart (h : Host) (es : List HostEvent) : Prop := logged step stopsAmid? h es = []

theorem preparing_of_apart (hnone : h.stopsAmid? event = none) (ho : h.order? event = some o)
    (hop : o.op = .stop) : h.preparing o.engine = 0 := by
  rw [stopsAmid?, ho, Option.bind_some, hop] at hnone
  dsimp only at hnone
  split at hnone
  · cases hnone
  · next hnot => exact Nat.eq_zero_of_not_pos hnot

/-- Every engine that was stopped is gone. -/
def Parted (h : Host) : Prop :=
  ∀ r e, h.engine? r = some e → e.lifecycle.stopped = true → h.GoneAt r

/-- A stop that comes while nobody is starting the engine is final. -/
theorem goneAt_of_stop (hl : h.Linked) (hs : h.step event = some h')
    (he : h.engine? r = some e) (hopen : e.lifecycle.stopped = false)
    (ho : h.order? event = some o) (hop : o.op = .stop)
    (halone : h.preparing r = 0) (he' : h'.engine? r = some e.stop) : h'.GoneAt r := by
  refine ⟨preparing_step hs halone fun o' ho' _ => ?_, _, he',
    Engine.gone_stop (hl.engines r e he).used hopen⟩
  obtain rfl : o = o' := Option.some.inj (ho.symm.trans ho')
  obtain ⟨e₁, token, -, hprogress⟩ := (ordered_of_order? ho).engine
  rw [hprogress, hop]
  exact e₁.isPreparing_stop token _ _

theorem parted_step (hp : h.Parted) (hl : h.Linked)
    (hmade : ∀ e guard?, event = .make e guard? → e.lifecycle = .new e.name ∧ e.works = [])
    (hapart : ∀ o, h.order? event = some o → o.op = .stop → h.preparing o.engine = 0)
    (hs : h.step event = some h') : h'.Parted := by
  intro r e' he' hstopped
  cases hbefore : h.engine? r with
  | none =>
    -- An engine that was not there before is new, and a new one was not stopped.
    cases obeys_of_step hs with
    | tells htells =>
      have hrel := htells.engines r
      rw [hbefore, he'] at hrel
      cases hrel
    | make new guard? =>
      rcases engine_of_make he' with he | rfl
      · cases hbefore.symm.trans he
      · rw [(hmade e' guard? rfl).1] at hstopped
        cases hstopped
    | register s =>
      have hsame : (h.register s).2.engine? r = h.engine? r := by
        unfold register
        split
        · rfl
        · split <;> rfl
      cases hbefore.symm.trans (hsame.symm.trans he')
  | some e =>
    cases hopen : e.lifecycle.stopped with
    | true => exact (hp r e hbefore hopen).step hs
    | false =>
      obtain ⟨e₁, he₁, hedit⟩ := (obeys_of_step hs).engine hbefore
      obtain rfl : e' = e₁ := Option.some.inj (he'.symm.trans he₁)
      rcases hedit.keeps_or_stops with hkeeps | ⟨⟨progress, htold⟩, rfl⟩
      · cases (hkeeps.stopped_eq.trans hopen).symm.trans hstopped
      · obtain ⟨o, ho, hto⟩ := Option.bind_eq_some_iff.mp htold
        split at hto
        · next hr =>
          have hop : o.op = .stop := (Prod.mk.inj (Option.some.inj hto)).1
          exact goneAt_of_stop hl hs hbefore hopen ho hop (hr ▸ hapart o ho hop) he'
        · cases hto

theorem parted_new {config : HostConfig} (hnew : new config = .ok h) : h.Parted := by
  obtain rfl := eq_of_new hnew
  exact fun r e he => by simp [engine?] at he

/-- In a history in which no stop overlaps a start, every engine that was stopped is gone. -/
theorem parted_run {config : HostConfig} (hnew : new config = .ok h) (hmade : MakesNew es)
    (hapart : h.Apart es) (hr : h.run es = some g) : g.Parted := by
  refine plays.history (motive := fun es g => MakesNew es → h.Apart es → g.Parted)
    (fun _ _ => parted_new hnew) ?_ hr hmade hapart
  intro es mid event next hrun ih hs hmade hapart
  have hbefore : MakesNew es := fun e guard? hmem => hmade e guard? (List.mem_append_left _ hmem)
  rw [Apart, plays.logged_concat hrun, List.append_eq_nil_iff] at hapart
  have hnone : mid.stopsAmid? event = none := Option.toList_eq_nil_iff.mp hapart.2
  refine parted_step (ih hbefore hapart.1) (linked_run (linked_new hnew) hbefore hrun) ?_
    (fun o ho hop => preparing_of_apart hnone ho hop) hs
  rintro e guard? rfl
  exact hmade e guard? (List.mem_append_right _ (List.mem_singleton_self _))

/-! ### What an engine that is gone refuses -/

/-- An engine of this name has no open pool, fails whatever task gets to it, and is left as it is by
every start and every stop. -/
structure Refuses (h : Host) (r : EngineId) (name : String) : Prop where
  pool : ∀ p, h.pool? r = some p → p.closed = true ∧ p.idle = [] ∧ p.closing = []
  tasks : ∀ event next x, h.step event = some next → h.handed? event = some x → x.engine = r →
    h.permits r x.task = true → next.engine? r = h.engine? r ∧
      ∃ call, next.call? x.call = some call ∧
        call.stage = .over (.error (.invalidState (name ++ " runtime is shut down")))
  starts : ∀ event next o settings, h.step event = some next → h.order? event = some o →
    o.engine = r → o.op = .start settings → next.engine? r = h.engine? r ∧
      o.progress = .done (.error (.invalidState (name ++ " runtime is shut down")))
  stops : ∀ event next o, h.step event = some next → h.order? event = some o →
    o.engine = r → o.op = .stop → next.engine? r = h.engine? r ∧ o.progress = .done (.ok .null)

theorem GoneAt.refuses (hg : h.GoneAt r) (he : h.engine? r = some e)
    (hname : e.lifecycle.name = name) (hkind : ∀ version, e.kind ≠ .foreign version) :
    h.Refuses r name := by
  obtain ⟨e₁, he₁, hgone⟩ := hg.gone
  obtain rfl : e = e₁ := Option.some.inj (he.symm.trans he₁)
  have hask := Engine.ask_of_stopped hgone.stopped hkind
  have herror : e.lifecycle.shutDownError = .invalidState (name ++ " runtime is shut down") := by
    rw [Lifecycle.shutDownError, hname]
  have horder : ∀ event next o, h.step event = some next → h.order? event = some o →
      o.engine = r → next.engine? r = h.engine? r ∧ o.progress = .done (e.lastWord o.op) := by
    rintro event next o hs ho rfl
    obtain ⟨e₁, token, fired, now, he₁, hprogress, he'⟩ := engine_of_order hs ho
    obtain rfl : e = e₁ := Option.some.inj (he.symm.trans he₁)
    rw [hask] at hprogress he'
    exact ⟨he'.trans he.symm, hprogress⟩
  refine ⟨fun p hp => ?_, ?_, ?_, ?_⟩
  · obtain ⟨e₁, he₁, hp⟩ := Option.bind_eq_some_iff.mp hp
    obtain rfl : e = e₁ := Option.some.inj (he.symm.trans he₁)
    have hshut := hgone.shut p hp
    exact ⟨hshut.closed, hshut.used.idle_eq hshut.closed, hshut.closing_eq⟩
  · rintro event next x hs hx rfl hpermits
    obtain ⟨guarded, hguarded, rfl⟩ := Option.map_eq_some_iff.mp he
    obtain ⟨-, -, token, call, hengines, hcall, hstage⟩ :=
      step_of_permitted hs hx hguarded hpermits
    rw [hask] at hengines hstage
    refine ⟨?_, call, hcall, ?_⟩
    · simp only [engine?, hengines, List.getElem?_modify, if_true, hguarded, Option.map_eq_map,
        Option.map_some]
    · rw [hstage, ← herror]
      rfl
  · intro event next o settings hs ho hr hop
    obtain ⟨hsame, hprogress⟩ := horder event next o hs ho hr
    refine ⟨hsame, ?_⟩
    rw [hprogress, hop, ← herror]
    rfl
  · intro event next o hs ho hr hop
    obtain ⟨hsame, hprogress⟩ := horder event next o hs ho hr
    refine ⟨hsame, ?_⟩
    rw [hprogress, hop]
    rfl

end Host

end LanguageHost
