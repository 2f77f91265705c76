import LanguageHost.Proofs.Host.Orders

/-!
# The processes that an interpreter asks for

Every call of an interpreter that gets a ticket has a work for it, and the work is the process of a
program with arguments, under the settings with which the engine was started (`Engine.Furnished`).
An event adds one work at most, for the next ticket, and never changes the settings
(`Engine.Edit.carries`); so a ticket has one work, which stays its work (`Host.work?_run`).
-/

namespace LanguageHost

namespace Engine

variable {e e' e'' : Engine} {starting : Prop} {told? : Option (EngineOp × Progress)} {t : Ticket}
variable {fired : List Token} {w : Work} {s : Started}

/-! ### What an event does to works -/

/-- An engine goes on with its works and with the settings of its start. -/
structure Steady (e e' : Engine) : Prop where
  kind_eq : e'.kind = e.kind
  works_eq : e'.works = e.works
  settings : ∀ s, e.lifecycle.started? = some s →
    ∃ s', e'.lifecycle.started? = some s' ∧ s'.settings = s.settings

theorem Steady.refl (e : Engine) : e.Steady e := ⟨rfl, rfl, fun s hs => ⟨s, hs, rfl⟩⟩

theorem Steady.trans (h : e.Steady e') (h' : e'.Steady e'') : e.Steady e'' where
  kind_eq := h'.kind_eq.trans h.kind_eq
  works_eq := h'.works_eq.trans h.works_eq
  settings := fun s hs => by
    obtain ⟨s', hs', hsame⟩ := h.settings s hs
    obtain ⟨s'', hs'', hsame'⟩ := h'.settings s' hs'
    exact ⟨s'', hs'', hsame'.trans hsame⟩

/-- What is done to a lifecycle that keeps its state. -/
theorem steady_of_started (hkind : e'.kind = e.kind) (hworks : e'.works = e.works)
    (hs : e'.lifecycle.started? = e.lifecycle.started?) : e.Steady e' :=
  ⟨hkind, hworks, fun s h => ⟨s, hs.trans h, rfl⟩⟩

theorem steady_withPool (e : Engine) (f : Pool → Pool) : e.Steady (e.withPool f) := by
  refine ⟨rfl, rfl, fun s hs => ⟨{ s with pool := f s.pool }, ?_, rfl⟩⟩
  rw [withPool, hs, Option.map_some]

theorem steady_publish (e : Engine) (s : Started) :
    e.Steady { e with lifecycle := e.lifecycle.publish s } := by
  refine ⟨rfl, rfl, fun s' hs => ⟨s', ?_, rfl⟩⟩
  simp only [Lifecycle.publish, hs]

theorem steady_prepared (e : Engine) (settings : RuntimeSettings) (report : Outcome StartReport)
    (now : Nat) : e.Steady (e.prepared settings report now).2 := by
  cases report with
  | ok report => exact e.steady_publish _
  | error err => exact steady_of_started rfl rfl rfl

theorem steady_begin (e : Engine) (settings : RuntimeSettings) (fired : Bool) (now : Nat) :
    e.Steady (e.begin settings fired now).2 := by
  rcases e.lifecycle.claim_cases with ⟨hclaim, -, -⟩ | ⟨err, hclaim⟩
  · have hclaimed : e.Steady e.withClaim := steady_of_started rfl rfl rfl
    unfold begin
    rw [hclaim]
    dsimp only
    split
    · split
      · exact steady_of_started rfl rfl rfl
      · exact hclaimed.trans (e.withClaim.steady_publish _)
    · exact hclaimed
  · rw [begin_of_error hclaim]
    exact Steady.refl e

theorem steady_stop (e : Engine) : e.Steady e.stop := by
  cases hstopped : e.lifecycle.stopped with
  | true =>
    rw [stop_of_stopped hstopped]
    exact Steady.refl e
  | false =>
    rw [stop_of_not_stopped hstopped]
    let stopped : Engine := { e with lifecycle := { e.lifecycle with stopped := true } }
    have hmark : e.Steady stopped := steady_of_started rfl rfl rfl
    exact hmark.trans (stopped.steady_withPool Pool.closeAtOnce)

theorem steady_fire (e : Engine) (token : Token) : e.Steady (e.fire token) := by
  have hall : ∀ (works : List Work) (e : Engine),
      e.Steady (works.foldl (fun e w => e.withPool fun p => p.follow (.fire w.ticket)) e) := by
    intro works
    induction works with
    | nil => exact Steady.refl
    | cons w works ih => exact fun e => (e.steady_withPool _).trans (ih _)
  exact hall _ e

/-- A task that is taken on adds its work, for the next ticket. -/
theorem run_adds (e : Engine) (task : Task) (token : Token) (fired : Bool) :
    e.Steady (e.run task token fired).2 ∨
      ∃ s item, e.lifecycle.running = .ok s ∧ e.itemOf s task = .ok item ∧ fired = false ∧
        e.run task token fired = (.pooled s.pool.asked,
          { e.withPool fun p => p.follow (.askRun false) with
            works := ⟨s.pool.asked, token, item⟩ :: e.works }) := by
  cases hrunning : e.lifecycle.running with
  | error err =>
    rw [run_of_error hrunning]
    exact .inl (Steady.refl e)
  | ok s =>
    cases hitem : e.itemOf s task with
    | error err =>
      rw [run_of_itemOf_error hrunning hitem]
      exact .inl (Steady.refl e)
    | ok item =>
      rw [run_of_itemOf_ok hrunning hitem]
      cases fired with
      | true => exact .inl (e.steady_withPool fun p => p.follow (.askRun true))
      | false => exact .inr ⟨s, item, rfl, hitem, rfl, rfl⟩

/-- An engine goes on with the settings of its start, and has one more work at most. -/
inductive Carries (e e' : Engine) : Prop where
  | steady (h : e.Steady e')
  | adds {s : Started} {task : Task} {item : WorkItem} (token : Token)
      (hs : e.lifecycle.started? = some s) (hitem : e.itemOf s task = .ok item)
      (hkind : e'.kind = e.kind) (hworks : e'.works = ⟨s.pool.asked, token, item⟩ :: e.works)
      (hs' : ∃ s', e'.lifecycle.started? = some s' ∧ s'.settings = s.settings)

theorem carries_run (e : Engine) (task : Task) (token : Token) (fired : Bool) :
    e.Carries (e.run task token fired).2 := by
  rcases e.run_adds task token fired with hsteady | ⟨s, item, hrunning, hitem, -, hrun⟩
  · exact .steady hsteady
  · have hs : e.lifecycle.started? = some s := (Lifecycle.running_eq_ok_iff.mp hrunning).2
    have hpool := e.steady_withPool fun p => p.follow (.askRun false)
    rw [hrun]
    exact .adds token hs hitem rfl rfl (hpool.settings s hs)

theorem carries_ask (e : Engine) (op : EngineOp) (token : Token) (fired : Bool) (now : Nat) :
    e.Carries (e.ask op token fired now).2 := by
  unfold ask
  split
  · exact .steady (Steady.refl e)
  · split
    · exact .steady (e.steady_begin _ fired now)
    · exact e.carries_run _ token fired
    · exact .steady e.steady_stop

theorem Edit.carries (h : Edit starting e told? e') : e.Carries e' := by
  cases h with
  | same => exact .steady (Steady.refl e)
  | told op token fired now => exact e.carries_ask op token fired now
  | runs task token fired now => exact e.carries_ask (.run task) token fired now
  | fires token => exact .steady (e.steady_fire token)
  | follows pe => exact .steady (e.steady_withPool _)
  | prepared _ settings report now => exact .steady (e.steady_prepared settings report now)
  | abandons => exact .steady (steady_of_started rfl rfl rfl)

/-! ### Works of an interpreter -/

/-- Each ticket has one work, and the works of an interpreter are processes under the settings with
which it was started. -/
structure Furnished (e : Engine) : Prop where
  nodup : (e.works.map Work.ticket).Nodup
  spawns : ∀ language, e.kind = .interpreter language → ∀ w ∈ e.works, ∃ s program args,
    e.lifecycle.started? = some s ∧ w.item = .process (.of language s.settings program args)

theorem furnished_of_works (h : e.works = []) : e.Furnished := by
  refine ⟨by simp [h], fun language _ w hw => ?_⟩
  rw [h] at hw
  cases hw

/-- What an interpreter has to do for a task is a process. -/
theorem process_of_itemOf {language : Language} {task : Task} {item : WorkItem}
    (hkind : e.kind = .interpreter language) (h : e.itemOf s task = .ok item) :
    ∃ program args, item = .process (.of language s.settings program args) := by
  unfold itemOf at h
  rw [hkind] at h
  cases task with
  | execute code args => exact ⟨code, args, (Except.ok.inj h).symm⟩
  | call function args =>
    dsimp only at h
    cases hprogram : language.callProgram s.report.script function with
    | error err =>
      rw [hprogram] at h
      cases h
    | ok program =>
      rw [hprogram] at h
      exact ⟨program, args, (Except.ok.inj h).symm⟩

theorem Furnished.carries (hf : e.Furnished) (hl : e.Linked fired) (h : e.Carries e') :
    e'.Furnished := by
  cases h with
  | steady hsteady =>
    refine ⟨hsteady.works_eq ▸ hf.nodup, fun language hkind w hw => ?_⟩
    obtain ⟨s, program, args, hs, hitem⟩ :=
      hf.spawns language (hsteady.kind_eq.symm.trans hkind) w (hsteady.works_eq ▸ hw)
    obtain ⟨s', hs', hsame⟩ := hsteady.settings s hs
    exact ⟨s', program, args, hs', hsame ▸ hitem⟩
  | @adds s task item token hs hitem hkind' hworks hs' =>
    obtain ⟨s', hs', hsame⟩ := hs'
    have hp : e.pool? = some s.pool := by rw [pool?, hs, Option.map_some]
    have hnew : s.pool.asked ∉ e.works.map Work.ticket := fun hmem => by
      obtain ⟨w, hw, hticket⟩ := List.mem_map.mp hmem
      have hasked := (hl.used _ hp).orderly.runs_asked _ (hl.runs _ hp w hw)
      exact Nat.lt_irrefl _ (hticket ▸ hasked)
    refine ⟨?_, fun language hkind w hw => ?_⟩
    · rw [hworks, List.map_cons]
      exact List.nodup_cons.mpr ⟨hnew, hf.nodup⟩
    · have hkind := hkind'.symm.trans hkind
      rw [hworks] at hw
      rcases List.mem_cons.mp hw with rfl | hw
      · obtain ⟨program, args, hprocess⟩ := process_of_itemOf hkind hitem
        exact ⟨s', program, args, hs', hsame ▸ hprocess⟩
      · obtain ⟨s₀, program, args, hs₀, hprocess⟩ := hf.spawns language hkind w hw
        obtain rfl := Option.some.inj (hs.symm.trans hs₀)
        exact ⟨s', program, args, hs', hsame ▸ hprocess⟩

/-- The work of a ticket is found by the ticket. -/
theorem Furnished.work?_of_mem (hf : e.Furnished) (hw : w ∈ e.works) :
    e.work? w.ticket = some w := by
  cases hfind : e.work? w.ticket with
  | none => exact absurd (decide_eq_true rfl) (List.find?_eq_none.mp hfind w hw)
  | some v =>
    have hticket : v.ticket = w.ticket := by simpa using List.find?_some hfind
    have hv : v ∈ e.works := List.mem_of_find?_eq_some hfind
    rw [List.inj_on_of_nodup_map hf.nodup hv hw hticket]

theorem Carries.works_subset (h : e.Carries e') : e.works ⊆ e'.works := by
  cases h with
  | steady hsteady => exact hsteady.works_eq ▸ List.Subset.refl _
  | adds _ _ _ _ hworks => exact hworks ▸ List.subset_cons_self _ _

end Engine

namespace Host

variable {h h' : Host} {r : EngineId} {e e' : Engine} {event : HostEvent} {es : List HostEvent}
variable {w : Work} {t : Ticket}

/-- An engine was there before an event, or it was made by it. -/
theorem Obeys.engine_cases (ho : h.Obeys event h') (he' : h'.engine? r = some e') :
    (∃ e, h.engine? r = some e ∧ e.Carries e') ∨ ∃ guard?, event = .make e' guard? := by
  cases he : h.engine? r with
  | some e =>
    obtain ⟨e'', he'', hedit⟩ := ho.engine he
    obtain rfl := Option.some.inj (he'.symm.trans he'')
    exact .inl ⟨e, rfl, hedit.carries⟩
  | none =>
    cases ho with
    | tells htells =>
      have hr := htells.engines r
      rw [he, he'] at hr
      cases hr
    | make new guard? =>
      rcases engine_of_make he' with hold | rfl
      · cases he.symm.trans hold
      · exact .inr ⟨guard?, rfl⟩
    | register s =>
      have hsame : (h.register s).2.engine? r = h.engine? r := by
        unfold Host.register
        split
        · rfl
        · split <;> rfl
      cases he.symm.trans (hsame.symm.trans he')

/-- All engines have their works in order. -/
theorem furnished_step (hl : h.Linked) (hf : ∀ r e, h.engine? r = some e → e.Furnished)
    (hmade : ∀ e guard?, event = .make e guard? → e.lifecycle = .new e.name ∧ e.works = [])
    (hs : h.step event = some h') (he' : h'.engine? r = some e') : e'.Furnished := by
  rcases (obeys_of_step hs).engine_cases he' with ⟨e, he, hcarries⟩ | ⟨guard?, rfl⟩
  · exact (hf r e he).carries (hl.engines r e he) hcarries
  · exact Engine.furnished_of_works (hmade e' guard? rfl).2

theorem Used.furnished (hu : h.Used) (he : h.engine? r = some e) : e.Furnished := by
  obtain ⟨config, h₀, es, hnew, hmade, hr⟩ := hu
  have hall := plays.induction
    (motive := fun h => h.Linked ∧ ∀ r e, h.engine? r = some e → e.Furnished)
    ⟨linked_new hnew, fun r e he => by
      obtain rfl := eq_of_new hnew
      simp [engine?] at he⟩
    (fun g event g' hmem ⟨hl, hf⟩ hs => by
      have hmade' : ∀ e guard?, event = .make e guard? →
          e.lifecycle = .new e.name ∧ e.works = [] := fun e guard? heq =>
        hmade e guard? (heq ▸ hmem)
      exact ⟨linked_step hl hmade' hs, fun r e => furnished_step hl hf hmade' hs⟩) hr
  exact hall.2 r e he

/-- The work of a ticket stays its work. -/
theorem work?_run (hu : h.Used) (hmade : MakesNew es) (he : h.engine? r = some e)
    (hw : e.work? t = some w) (hr : h.run es = some h') :
    ∃ e', h'.engine? r = some e' ∧ e'.kind = e.kind ∧ e'.work? t = some w := by
  have hticket : w.ticket = t := by simpa using List.find?_some hw
  have hmem : w ∈ e.works := List.mem_of_find?_eq_some hw
  obtain ⟨e', he', hkind, hsub⟩ := plays.induction
    (motive := fun g => ∃ e', g.engine? r = some e' ∧ e'.kind = e.kind ∧ w ∈ e'.works)
    ⟨e, he, rfl, hmem⟩
    (fun g event g' _ ⟨e', he', hkind, hw⟩ hs => by
      obtain ⟨e'', he'', hedit⟩ := (obeys_of_step hs).engine he'
      exact ⟨e'', he'', hedit.remains.kind_eq.trans hkind, hedit.carries.works_subset hw⟩) hr
  exact ⟨e', he', hkind, hticket ▸ ((hu.run hmade hr).furnished he').work?_of_mem hsub⟩

end Host

end LanguageHost
