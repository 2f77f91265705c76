import LanguageHost.Proofs.Host.Beside
import LanguageHost.Proofs.Host.Seats

/-!
# What an event of a host does to a pool

Whatever happens in a host, the pool of an engine that is there goes on in one of five ways
(`Host.PoolTurn`): one of its own events happens, an operation ends with the outcome of its work, a
token fires for the tickets of the works under it, the caller of a ticket goes away or learns
something, or nothing happens to any ticket that was given out (`Pool.Aside`).  So an operation ends
only as its work does, nobody lets it panic, and only its own caller takes a ticket out of the line:
`Host.poolTurn_of_step`.
-/

namespace LanguageHost

/-- Events of a pool that are about no ticket that was given out. -/
def PoolEvent.isAside : PoolEvent → Bool
  | .askRun _ | .close | .closedOne | .wait _ => true
  | _ => false

/-- The engine in which an event ends the work of a ticket. -/
def HostEvent.ends? : HostEvent → Option EngineId
  | .workEnds r .. => some r
  | _ => none

namespace Pool

variable {p q q' : Pool} {pe : PoolEvent}

/-- A pool goes on, and nothing happens to any ticket that was given out. -/
def Aside (p q : Pool) : Prop := ∃ pes, (∀ pe ∈ pes, pe.isAside = true) ∧ p.run pes = some q

theorem Aside.refl (p : Pool) : p.Aside p := ⟨[], nofun, rfl⟩

theorem Aside.trans (h : p.Aside q) (h' : q.Aside q') : p.Aside q' := by
  obtain ⟨pes, haside, hrun⟩ := h
  obtain ⟨pes', haside', hrun'⟩ := h'
  exact ⟨pes ++ pes', List.forall_mem_append.mpr ⟨haside, haside'⟩,
    run_append_eq_some.mpr ⟨q, hrun, hrun'⟩⟩

theorem aside_follow (hpe : pe.isAside = true) (p : Pool) : p.Aside (p.follow pe) := by
  rcases p.follow_cases pe with hstep | hnothing
  · exact ⟨[pe], List.forall_mem_singleton.mpr hpe, by rw [run_cons, hstep]; rfl⟩
  · rw [hnothing]
    exact .refl p

theorem aside_closeAtOnce (p : Pool) : p.Aside p.closeAtOnce := by
  have hfollow : ∀ pe : PoolEvent, pe.isAside = true → ∀ q : Pool, q.Aside (q.follow pe) :=
    fun _ => aside_follow
  have hall : ∀ (workers : List Worker) (q : Pool),
      q.Aside (workers.foldl (fun p _ => p.follow .closedOne) q) := by
    intro workers
    induction workers with
    | nil => exact Aside.refl
    | cons w rest ih => exact fun q => (hfollow .closedOne rfl q).trans (ih _)
  exact (hfollow .close rfl p).trans (hall _ _)

/-- What stays so in every such step stays so on the way. -/
theorem Aside.keeps {motive : Pool → Prop} (h : p.Aside q) (hp : motive p)
    (next : ∀ p pe q, pe.isAside = true → motive p → p.Occurs pe q → motive q) : motive q := by
  obtain ⟨pes, haside, hrun⟩ := h
  exact plays.induction hp
    (fun p pe q hmem hmotive hs => next p pe q (haside pe hmem) hmotive (occurs_of_step hs)) hrun

end Pool

namespace Engine

variable {e e' : Engine} {p : Pool}

/-- The pool of an engine goes on, and nothing happens to any ticket that was given out. -/
def Aside (e e' : Engine) : Prop := ∀ p, e.pool? = some p → ∃ q, e'.pool? = some q ∧ p.Aside q

theorem aside_of_pool?_eq (h : e'.pool? = e.pool?) : e.Aside e' :=
  fun p hp => ⟨p, h.trans hp, .refl p⟩

theorem aside_withPool {f : Pool → Pool} (hf : ∀ p : Pool, p.Aside (f p)) :
    e.Aside (e.withPool f) := fun p hp =>
  ⟨f p, by rw [pool?_withPool, hp, Option.map_some], hf p⟩

theorem aside_publish (e : Engine) (s : Started) :
    e.Aside { e with lifecycle := e.lifecycle.publish s } := fun p hp => by
  obtain ⟨s', hs', rfl⟩ := Option.map_eq_some_iff.mp hp
  exact ⟨s'.pool, by simp only [pool?, Lifecycle.publish, hs', Option.map_some], .refl _⟩

theorem aside_begin (e : Engine) (settings : RuntimeSettings) (fired : Bool) (now : Nat) :
    e.Aside (e.begin settings fired now).2 := by
  rcases e.lifecycle.claim_cases with ⟨hclaim, -, -⟩ | ⟨err, hclaim⟩
  · unfold begin
    rw [hclaim]
    dsimp only
    split
    · split
      · exact aside_of_pool?_eq rfl
      · exact e.withClaim.aside_publish _
    · exact aside_of_pool?_eq rfl
  · rw [begin_of_error hclaim]
    exact aside_of_pool?_eq rfl

theorem aside_stop (e : Engine) : e.Aside e.stop := by
  cases hstopped : e.lifecycle.stopped with
  | true =>
    rw [stop_of_stopped hstopped]
    exact aside_of_pool?_eq rfl
  | false =>
    rw [stop_of_not_stopped hstopped]
    let stopped : Engine := { e with lifecycle := { e.lifecycle with stopped := true } }
    have hall := aside_withPool (e := stopped) Pool.aside_closeAtOnce
    exact hall

theorem aside_run (e : Engine) (task : Task) (token : Token) (fired : Bool) :
    e.Aside (e.run task token fired).2 := by
  rcases e.run_cases task token fired with hsame | ⟨-, works, hrun⟩
  · rw [hsame]
    exact aside_of_pool?_eq rfl
  · have hasked : ∀ p : Pool, p.Aside (p.follow (.askRun fired)) := Pool.aside_follow rfl
    have hall := aside_withPool (e := e) hasked
    rw [hrun]
    exact hall

theorem aside_ask (e : Engine) (op : EngineOp) (token : Token) (fired : Bool) (now : Nat) :
    e.Aside (e.ask op token fired now).2 := by
  unfold ask
  split
  · exact aside_of_pool?_eq rfl
  · split
    · exact e.aside_begin _ fired now
    · exact e.aside_run _ token fired
    · exact e.aside_stop

end Engine

namespace Host

variable {h h' mid : Host} {r : EngineId} {e e' : Engine} {t : Turn} {k : Call} {p : Pool}
variable {event : HostEvent}

/-- All pools go on, and nothing happens to any ticket that was given out. -/
def Aside (h h' : Host) : Prop :=
  ∀ r e, h.engine? r = some e → ∃ e', h'.engine? r = some e' ∧ e.Aside e'

theorem aside_of_engines_eq (h' : Host) (hengines : h'.engines = h.engines) : h.Aside h' :=
  fun r e he => ⟨e, by rw [engine?, hengines, ← engine?, he], Engine.aside_of_pool?_eq rfl⟩

theorem Aside.congr (ha : mid.Aside h') (hengines : mid.engines = h.engines) : h.Aside h' :=
  fun r e he => ha r e (by rw [engine?, hengines, ← engine?, he])

theorem aside_setEngine (he : h.engine? r = some e) (ha : e.Aside e') :
    h.Aside (h.setEngine r e') := fun s e₀ he₀ => by
  rw [engine?_setEngine]
  split
  · next hs =>
    subst hs
    obtain rfl := Option.some.inj (he.symm.trans he₀)
    exact ⟨e', by rw [he, Option.map_some], ha⟩
  · exact ⟨e₀, he₀, Engine.aside_of_pool?_eq rfl⟩

theorem aside_askEngine (h : Host) (r : EngineId) (op : EngineOp) (token : Token)
    (frames : List Frame) : h.Aside (h.askEngine r op token frames).host := by
  unfold askEngine
  split
  · exact aside_of_engines_eq h rfl
  · next g hg =>
    obtain ⟨-, -, hengines⟩ := goes_letPass h g op
    split
    · next err mid hpass =>
      rw [hpass] at hengines
      exact aside_of_engines_eq mid hengines
    · next mid hpass =>
      rw [hpass] at hengines
      have he : (mid.note (.asked r op (mid.hasFired token))).engine? r = some g.engine := by
        rw [engine?, note, hengines, hg, Option.map_some]
      exact (aside_setEngine he (g.engine.aside_ask op token _ _)).congr hengines

theorem Asks.aside (ha : h.Asks t) : h.Aside t.host := by
  cases ha with
  | rests hengines => exact aside_of_engines_eq _ hengines
  | @asks mid hengines r op token frames =>
    exact (aside_askEngine mid r op token frames).congr hengines

theorem Aside.pool (ha : h.Aside h') (hp : h.pool? r = some p) :
    ∃ q, h'.pool? r = some q ∧ p.Aside q := by
  obtain ⟨e, he, hpool⟩ := Option.bind_eq_some_iff.mp hp
  obtain ⟨e', he', haside⟩ := ha r e he
  obtain ⟨q, hq, hgoes⟩ := haside p hpool
  exact ⟨q, Option.bind_eq_some_iff.mpr ⟨e', he', hq⟩, hgoes⟩

/-! ### What an event does -/

/-- What is about a call ends no work. -/
theorem ends?_of_call? {c : CallId} (hevent : event.call? = some c) : event.ends? = none := by
  cases event with
  | workEnds => cases hevent
  | _ => rfl

theorem ends?_ne_of_call? {c : CallId} (hevent : event.call? = some c) : event.ends? ≠ some r := by
  simp [ends?_of_call? hevent]

/-- What an event does to the pool of an engine. -/
inductive PoolTurn (h : Host) (r : EngineId) (p : Pool) : HostEvent → Pool → Prop where
  | aside {event : HostEvent} {q : Pool} (hends : event.ends? ≠ some r) (haside : p.Aside q) :
      PoolTurn h r p event q
  /-- A token fires, and the tickets of all works under it are told. -/
  | fires {token : Token} {e : Engine} (he : h.engine? r = some e) : PoolTurn h r p (.fire token)
      (p.fireAll ((e.works.filter fun w => w.token.under token).map Work.ticket))
  /-- A call that waits with a ticket goes on, or goes away. -/
  | leaves {event : HostEvent} {k : Call} {t : Ticket} {pe : PoolEvent}
      (hk : h.call? k.id = some k) (hevent : event.call? = some k.id)
      (hstage : k.stage = .pooled r t) (hpe : pe = .learn t ∨ pe = .withdraw t) :
      PoolTurn h r p event (p.follow pe)
  | inner {pe : PoolEvent} {q : Pool} (hinner : pe.isInner = true) (hs : p.step pe = some q) :
      PoolTurn h r p (.pool r pe) q
  /-- The work of a ticket ends. -/
  | ends {t : Ticket} {report : WorkReport} {result : Outcome Json} {e : Engine} {w : Work}
      {q : Pool} (he : h.engine? r = some e) (hw : e.work? t = some w)
      (hresult : e.workOutcome? w report (p.fired.contains t) = some result)
      (hs : p.step (.finish t result) = some q) : PoolTurn h r p (.workEnds r t report) q

end Host

end LanguageHost
