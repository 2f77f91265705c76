import LanguageHost.Proofs.Host.Beside

/-!
# Calls that are forwarded

A name on the bridge may be exposed for a function of a runtime.  A call of the name is handed to
the dispatcher, with a token that is made for it and with a race for the token of the caller around
it.  So it is a direct call with another frame around it and with another token of its work, and the
hosts of the two calls are beside each other (`beside_ask`).  They stay so in every run, as long as
the tokens do not fire; where the direct call has its answer, the other one returns through the race
with the same one (`Beside.back`).  Hence both calls do the same (`Beside.run`, `Beside.run_back`,
`bridge_forwards`).

What the name stands for is looked up when the call begins, and the runtime is looked up then too.
So nothing is said here of when the name was exposed, or of what has become of the runtime since.
-/

namespace LanguageHost

/-- The call itself apart, two hosts do not differ but in tokens of works: everything was recorded,
counted and done to the engines alike. -/
structure Host.Agrees (token : Token) (n : Nat) (c : CallId) (h h' : Host) : Prop where
  profiler_eq : h'.profiler = h.profiler
  metrics_eq : h'.metrics = h.metrics
  /-- The lifecycles of the engines have their pools and workers. -/
  lifecycles_eq : ∀ r, (h'.engine? r).map Engine.lifecycle = (h.engine? r).map Engine.lifecycle
  calls_eq : ∀ x, x ≠ c → h'.call? x = h.call? x
  blur_eq : h'.blur (token.merge n) = h.blur (token.merge n)

/-- A call in a host does the same as one in another host, where it returns once more, as long as
the token of the call does not fire.  The one that was made from it in the scope `n` is handed to
no one, so it does not fire by itself either. -/
structure Host.SameCall (token : Token) (n : Nat) (c : CallId) (h h' : Host) : Prop where
  /-- Whatever happens to the first call may happen to the second, and it returns the same. -/
  forth : ∀ es last, MakesNew es → h.run es = some last → last.hasFired token = false →
    token.child n ∉ last.fired → ∃ last', h'.run es = some last' ∧ last.Agrees token n c last' ∧
      ∀ result, last.answer? c = some result → ∃ back, last'.step (.resume c) = some back ∧
        back.answer? c = some result ∧ last.Agrees token n c back
  /-- Whatever happens to the second call may happen to the first but for the return. -/
  back : ∀ es last', MakesNew es → h'.run es = some last' → last'.hasFired token = false →
    token.child n ∉ last'.fired → ∃ es' last, (es' = es ∨ ∃ before after,
      es = before ++ .resume c :: after ∧ es' = before ++ after) ∧ h.run es' = some last ∧
      last.Agrees token n c last' ∧
      ∀ result, last'.answer? c = some result → last.answer? c = some result

namespace Host

variable {h h' last last' : Host} {token σ : Token} {n : Nat} {c x : CallId} {outer : List Frame}
variable {es : List HostEvent} {result : Outcome Json}

/-! ### The return -/

/-- All calls stay beside each other when the one call gets elsewhere. -/
theorem calls_back {ks ks' : List Call} {outer' : List Frame} {k back : Call}
    (hcalls : List.Forall₂ (Call.Beside c outer) ks ks') (hunique : ∀ j ∈ ks, j.id = c → j = k)
    (hback : Call.Beside c outer' k back) :
    List.Forall₂ (Call.Beside c outer') ks (ks'.map fun j => if j.id = c then back else j) := by
  induction hcalls with
  | nil => exact .nil
  | @cons j j' _ _ hj _ ih =>
    obtain ⟨hhead, htail⟩ := List.forall_mem_cons.mp hunique
    rw [List.map_cons]
    refine .cons ?_ (ih htail)
    by_cases hid : j.id = c
    · rw [if_pos (hj.id_eq.trans hid), hhead hid]
      exact hback
    · rw [if_neg fun heq => hid (hj.id_eq.symm.trans heq)]
      cases hj with
      | other => exact .other hid
      | within since hsame => exact absurd hsame hid

/-- Where the call has its answer, it returns through a race around it with the same answer. -/
theorem Beside.back {τ : Token} (hb : Beside token n c [.race τ] h h')
    (hids : (h'.calls.map Call.id).Nodup) (ha : h.answer? c = some result) :
    ∃ next, h'.step (.resume c) = some next ∧ Beside token n c [] h next ∧
      next.answer? c = some result := by
  obtain ⟨k, hk, hframes, hstage⟩ := call?_of_answer? ha
  obtain ⟨hmem, rfl⟩ := mem_of_call? hk
  have hunique : ∀ j ∈ h.calls, j.id = k.id → j = k := fun j hj hid =>
    List.inj_on_of_nodup_map (hb.ids_eq ▸ hids) hj hmem hid
  have hcall := hb.call? k.id
  rw [hk] at hcall
  generalize hk' : h'.call? k.id = k?' at hcall
  cases hcall with
  | @some _ k' hbeside =>
    cases hbeside with
    | other hid => exact absurd rfl hid
    | within since _ htracked hawake =>
      let t : Turn := ⟨h', [], .over result⟩
      let k' : Call := k.within [.race τ] since
      have hk' : h'.call? k'.id = some k' := hk'
      have hframes' : k'.frames = [.race τ] := by
        simp only [k', Call.within, hframes, List.nil_append]
      have hstage' : k'.stage = .over result := hstage
      have hturn : h'.resume k' = some t := by
        simp only [Host.resume, hstage', hframes', pass, t]
      have hturned : k'.turned t = k.within [] h'.now := by
        simp only [k', t, Call.within, Call.turned, hframes, hstage, List.append_nil]
      have hback : Call.Beside k.id [] k (k'.turned t) :=
        hturned ▸ .within _ rfl htracked hawake
      refine ⟨Host.settle t k', step_forCall (k := k') hk' hturn,
        ⟨hb.blur_eq, hb.lt_asked, calls_back hb.calls hunique hback⟩, ?_⟩
      exact answer?_of_call? (call?_settle hk' rfl) rfl rfl

/-! ### Runs -/

/-- A call that has its answer does nothing more. -/
theorem step_resume_of_answer? (ha : h.answer? c = some result) : h.step (.resume c) = none := by
  obtain ⟨k, hk, hframes, hstage⟩ := call?_of_answer? ha
  have hturn : h.resume k = none := by simp only [resume, hstage, hframes]
  simp only [step, forCall, hk, Option.bind_eq_bind, Option.bind_some, hturn, Option.bind_none]

theorem exists_right_of_rel {α β : Type} {R : α → β → Prop} {a : α} {b? : Option β}
    (hrel : Option.Rel R (some a) b?) : ∃ b, b? = some b ∧ R a b := by
  cases hrel with
  | some hab => exact ⟨_, rfl, hab⟩

theorem exists_left_of_rel {α β : Type} {R : α → β → Prop} {a? : Option α} {b : β}
    (hrel : Option.Rel R a? (some b)) : ∃ a, a? = some a ∧ R a b := by
  cases hrel with
  | some hab => exact ⟨_, rfl, hab⟩

/-- Every run without the frames around the call is one with them. -/
theorem Beside.run (hb : Beside token n c outer h h') (hrace : ∀ f ∈ outer, f = .race token)
    (hr : h.run es = some last) (hunfired : last.hasFired token = false)
    (hown : token.child n ∉ last.fired) :
    ∃ last', h'.run es = some last' ∧ Beside token n c outer last last' := by
  induction es generalizing h h' with
  | nil =>
    cases hr
    exact ⟨h', rfl, hb⟩
  | cons event es ih =>
    have hsub : h.fired ⊆ last.fired := fired_subset_of_run hr
    obtain ⟨mid, hs, hrest⟩ := plays.cons_eq_some.mp hr
    have hsubmid : mid.fired ⊆ last.fired := fired_subset_of_run hrest
    have houter : h.Races outer := fun f hf =>
      ⟨token, hrace f hf, hasFired_of_subset hsub hunfired⟩
    have hfires : event ≠ .fire (token.child n) := by
      rintro rfl
      exact hown (hsubmid (mem_fired_of_fire hs))
    have hleft : event = .resume c → outer ≠ [] → h.answer? c = none := by
      rintro rfl -
      cases ha : h.answer? c with
      | none => rfl
      | some result => cases (step_resume_of_answer? ha).symm.trans hs
    obtain ⟨mid', hs', hmid⟩ := exists_right_of_rel (hs ▸ hb.step houter hfires hleft)
    obtain ⟨last', hrest', hlast⟩ := ih hmid hrest
    exact ⟨last', plays.cons_eq_some.mpr ⟨mid', hs', hrest'⟩, hlast⟩

/-- Every run with a race around the call is one without it, where the call returns through the race
at one point at most. -/
theorem Beside.run_back (hb : Beside token n c outer h h')
    (hrace : outer = [] ∨ outer = [.race token]) (hu : h'.Used) (hmade : MakesNew es)
    (hr : h'.run es = some last') (hunfired : last'.hasFired token = false)
    (hown : token.child n ∉ last'.fired) :
    ∃ es' last left, (es' = es ∨
        outer ≠ [] ∧ ∃ before after, es = before ++ .resume c :: after ∧ es' = before ++ after) ∧
      h.run es' = some last ∧ Beside token n c left last last' := by
  induction es generalizing h h' outer with
  | nil =>
    cases hr
    exact ⟨[], h, outer, .inl rfl, rfl, hb⟩
  | cons event es ih =>
    have hsub : h'.fired ⊆ last'.fired := fired_subset_of_run hr
    obtain ⟨mid', hs', hrest'⟩ := plays.cons_eq_some.mp hr
    obtain ⟨hmadeevent, hmademid⟩ := hmade.of_cons
    have humid : mid'.Used := hu.run hmadeevent (plays.cons_eq_some.mpr ⟨mid', hs', rfl⟩)
    have hsubmid : mid'.fired ⊆ last'.fired := fired_subset_of_run hrest'
    by_cases hreturns : event = .resume c ∧ outer ≠ [] ∧ h.answer? c ≠ none
    · obtain ⟨rfl, hne, hanswered⟩ := hreturns
      obtain rfl := hrace.resolve_left hne
      obtain ⟨result, ha⟩ := Option.ne_none_iff_exists'.mp hanswered
      obtain ⟨next, hnext, hback, -⟩ := hb.back hu.ids_nodup ha
      obtain rfl := Option.some.inj (hnext.symm.trans hs')
      obtain ⟨es', last, left, hes, hlast, hbeside⟩ := ih hback (.inl rfl) humid hmademid hrest'
      obtain rfl := hes.resolve_right fun hne => hne.1 rfl
      exact ⟨es', last, left, .inr ⟨hne, [], es', rfl, rfl⟩, hlast, hbeside⟩
    · have hfires : event ≠ .fire (token.child n) := by
        rintro rfl
        exact hown (hsubmid (mem_fired_of_fire hs'))
      have houter : h.Races outer := fun f hf => by
        refine ⟨token, ?_, hb.hasFired_eq ▸ hasFired_of_subset hsub hunfired⟩
        rcases hrace with rfl | rfl
        · cases hf
        · exact List.mem_singleton.mp hf
      have hleft : event = .resume c → outer ≠ [] → h.answer? c = none := fun he hne =>
        not_not.mp fun hanswered => hreturns ⟨he, hne, hanswered⟩
      obtain ⟨mid, hs, hmid⟩ := exists_left_of_rel (hs' ▸ hb.step houter hfires hleft)
      obtain ⟨es', last, left, hes, hlast, hbeside⟩ := ih hmid hrace humid hmademid hrest'
      refine ⟨event :: es', last, left, ?_, plays.cons_eq_some.mpr ⟨mid, hs, hlast⟩, hbeside⟩
      rcases hes with rfl | ⟨hne, before, after, rfl, rfl⟩
      · exact .inl rfl
      · exact .inr ⟨hne, event :: before, after, rfl, rfl⟩

/-! ### Two ways to make a call -/

theorem askEngine_within (h : Host) (r : EngineId) (op : EngineOp) (token : Token)
    (frames outer : List Frame) :
    h.askEngine r op token (frames ++ outer) = (h.askEngine r op token frames).within outer := by
  unfold askEngine
  split
  · rfl
  · split
    · rfl
    · rfl

theorem dispatch_within (h : Host) (name : String) (task : Task) (token : Token)
    (frames outer : List Frame) :
    h.dispatch name task token (frames ++ outer) =
      (h.dispatch name task token frames).within outer := by
  unfold dispatch
  split
  · rfl
  · rw [← askEngine_within]
    split
    · rfl
    · rfl

theorem tracked_dispatch (h : Host) (name : String) (task : Task) (token : Token) :
    (∀ f ∈ (h.dispatch name task token []).frames, f.isTracked = true) ∧
      (h.dispatch name task token []).stage.isCalled = false := by
  unfold dispatch
  split
  · exact ⟨nofun, rfl⟩
  · next r _ =>
    obtain ⟨hframes, hawake, -⟩ := askEngine_frames h r (.run task) token
      (if h.profiler.enabled then [.tracked name task.function h.now] else [])
    refine ⟨fun f hf => ?_, hawake⟩
    rw [hframes] at hf
    split at hf
    · rw [List.mem_singleton.mp hf]
      rfl
    · cases hf

/-- A call of an exposed name is a direct call with a race around it. -/
theorem beside_ask (hu : h.Used) {name runtime function : String}
    (hname : h.bridge.get? name = some (.exposed runtime function)) (args : List Json)
    (hunfired : h.hasFired token = false) (hown : token.child h.scopes ∉ h.fired) :
    Beside token h.scopes h.asked [.race token]
      (h.newToken.2.ask (.dispatch runtime (.call function args)) token)
      (h.ask (.bridge name args) token) := by
  let inner := token.child h.scopes
  let later : Host := { h with asked := h.asked + 1, scopes := h.scopes + 1 }
  let t := later.dispatch runtime (.call function args) token []
  let t' := later.dispatch runtime (.call function args) inner [.race token]
  have hbegin : { h with asked := h.asked + 1 }.begin (.bridge name args) token = t' := by
    have hunfired : { h with asked := h.asked + 1 }.hasFired token = false := hunfired
    simp only [begin, callBridge, hname, hunfired]
    rfl
  have hfired : later.hasFired inner = later.hasFired token := Token.firedBy_child hown
  have hmerge : token.merge h.scopes inner = token.merge h.scopes token := by
    rw [Token.merge_child, Token.merge_self]
  have hwithin : t' = (later.dispatch runtime (.call function args) inner []).within
      [.race token] := dispatch_within later _ _ inner [] [.race token]
  have hblur : (later.dispatch runtime (.call function args) inner []).blur
      (token.merge h.scopes) = t.blur (token.merge h.scopes) := by
    rw [← dispatch_blur Token.merge_merge later _ _ rfl rfl,
      dispatch_blur Token.merge_merge later _ _ hmerge hfired]
  obtain ⟨hhost, hframes, hstage, hnow⟩ := eq_of_blur hblur
  have hcalls : t.host.calls = h.calls := (reaches_dispatch later _ _ token []).calls_eq
  have hasked : t.host.asked = h.asked + 1 := (reaches_dispatch later _ _ token []).asked_eq
  have hcalls' : t'.host.calls = h.calls := (reaches_dispatch later _ _ inner _).calls_eq
  obtain ⟨htracked, hawake⟩ := tracked_dispatch later runtime (.call function args) token
  let k : Call := ⟨h.asked, token, t.frames, t.stage, t.host.now⟩
  let k' : Call := ⟨h.asked, token, t'.frames, t'.stage, t'.host.now⟩
  have hbridged : h.ask (.bridge name args) token =
      { t'.host with calls := k' :: t'.host.calls } := by
    dsimp only [ask]
    rw [hbegin]
  have hk : k' = k.within [.race token] t'.host.now := by
    simp only [k', k, hwithin, Turn.within, Call.within, hframes, hstage]
  have hnew : Call.Beside h.asked [.race token] k k' := hk ▸ .within _ rfl htracked hawake
  have hold : List.Forall₂ (Call.Beside h.asked [.race token]) t.host.calls t'.host.calls := by
    rw [hcalls, hcalls']
    exact List.forall₂_same.mpr fun k hk => .other (Nat.ne_of_lt (hu.ids_lt k hk))
  rw [hbridged]
  refine ⟨?_, ?_, .cons hnew hold⟩
  · rw [hwithin]
    exact hhost
  · exact hasked.symm ▸ Nat.lt_succ_self h.asked

theorem Beside.agrees (hb : Beside token n c outer h h') : Agrees token n c h h' := by
  refine ⟨hb.seen Host.profiler fun _ => rfl, hb.seen Host.metrics fun _ => rfl, fun r => ?_,
    fun x hx => ?_, hb.blur_eq⟩
  · refine hb.seen (fun h => (h.engine? r).map Engine.lifecycle) fun h => ?_
    rw [engine?_blur, Option.map_map]
    rfl
  · have hcall := hb.call? x
    generalize hk : h.call? x = k? at hcall
    generalize h'.call? x = k?' at hcall
    cases hcall with
    | none => rfl
    | some hbeside =>
      cases hbeside with
      | other => rfl
      | within since hid => exact absurd ((mem_of_call? hk).2.symm.trans hid) hx

/-- An answer that was given with other frames around the call is given without them. -/
theorem Beside.answer? (hb : Beside token n c outer h h') (ha : h'.answer? x = some result) :
    h.answer? x = some result := by
  obtain ⟨k', hk', hframes, hstage⟩ := call?_of_answer? ha
  have hcall := hb.call? x
  rw [hk'] at hcall
  obtain ⟨k, hk, hbeside⟩ := exists_left_of_rel hcall
  cases hbeside with
  | other => exact answer?_of_call? hk hframes hstage
  | within since hid htracked hawake =>
    exact answer?_of_call? hk (List.append_eq_nil_iff.mp hframes).1 hstage

/-- A call of a name that was exposed for a function of a runtime is the same as a call of this
function by the dispatcher.  The call of the name takes a scope for the token that it makes; the
direct call is made where this scope is taken too, so that tokens made later have the same names. -/
theorem bridge_forwards (hu : h.Used) {name runtime function : String}
    (hname : h.bridge.get? name = some (.exposed runtime function)) (args : List Json)
    (token : Token) :
    SameCall token h.scopes h.asked
      (h.newToken.2.ask (.dispatch runtime (.call function args)) token)
      (h.ask (.bridge name args) token) := by
  let request : Request := .dispatch runtime (.call function args)
  refine ⟨fun es last hmade hr hunfired hown => ?_, fun es last' hmade hr hunfired hown => ?_⟩
  · have hrun : h.newToken.2.run (.ask request token :: es) = some last :=
      plays.cons_eq_some.mpr ⟨_, rfl, hr⟩
    have hsub : h.newToken.2.fired ⊆ last.fired := fired_subset_of_run hrun
    have hb := beside_ask hu hname args (hasFired_of_subset hsub hunfired)
      fun hmem => hown (hsub hmem)
    obtain ⟨last', hr', hlast⟩ := hb.run (fun f hf => List.mem_singleton.mp hf) hr hunfired hown
    have hu' : last'.Used := hu.run (hmade.ask (.bridge name args) token)
      (plays.cons_eq_some.mpr ⟨_, rfl, hr'⟩)
    refine ⟨last', hr', hlast.agrees, fun result ha => ?_⟩
    obtain ⟨back, hs, hback, ha'⟩ := hlast.back hu'.ids_nodup ha
    exact ⟨back, hs, ha', hback.agrees⟩
  · have hrun : h.run (.ask (.bridge name args) token :: es) = some last' :=
      plays.cons_eq_some.mpr ⟨_, rfl, hr⟩
    have hsub : h.fired ⊆ last'.fired := fired_subset_of_run hrun
    have hb := beside_ask hu hname args (hasFired_of_subset hsub hunfired)
      fun hmem => hown (hsub hmem)
    have hu' : (h.ask (.bridge name args) token).Used := by
      have hmade : MakesNew [.ask (.bridge name args) token] := by simp [MakesNew]
      exact hu.run hmade (plays.cons_eq_some.mpr ⟨_, rfl, rfl⟩)
    obtain ⟨es', last, left, hes, hlast, hbeside⟩ :=
      hb.run_back (.inr rfl) hu' hmade hr hunfired hown
    exact ⟨es', last, hes.imp_right And.right, hlast, hbeside.agrees, fun _ => hbeside.answer?⟩

/-- A name was exposed before its engine was registered and started.  A worker of the engine does
what is called, and the call through the bridge returns the same as the direct one. -/
theorem bridge_forwards_to_engine_of_later :
    ∃ h₀ h last last' back, Host.new default = .ok h₀ ∧
      h₀.run [.bridgeRegister "f" (.exposed "one" "g"),
        .make (.native "one" "1.0" (Dict.empty.insert "g" 0)) none,
        .register 0, .ask (.engine 0 (.start (.new "one" "1"))) (.root 2)] = some h ∧
      (h.newToken.2.ask (.dispatch "one" (.call "g" [.int 5])) (.root 7)).run
        [.pool 0 (.take 0), .workEnds 0 0 (.returned (.value (.int 7))), .resume 1, .resume 1] = some last ∧
      last.answer? 1 = some (.ok (.int 7)) ∧
      (h.ask (.bridge "f" [.int 5]) (.root 7)).run
        [.pool 0 (.take 0), .workEnds 0 0 (.returned (.value (.int 7))), .resume 1, .resume 1] = some last' ∧
      last'.step (.resume 1) = some back ∧ back.answer? 1 = some (.ok (.int 7)) ∧
      last.Agrees (.root 7) 0 1 back := by
  let engine : Engine :=
    .native "one" "1.0" (Dict.empty.insert "g" 0)
  let before : List HostEvent := [.bridgeRegister "f" (.exposed "one" "g"), .make engine none,
    .register 0, .ask (.engine 0 (.start (.new "one" "1"))) (.root 2)]
  obtain ⟨h₀, h, last, hnew, hrun, hname, hscopes, hasked, hlast, hanswer, hfired⟩ :
      ∃ h₀ h last, Host.new default = .ok h₀ ∧ h₀.run before = some h ∧
        h.bridge.get? "f" = some (.exposed "one" "g") ∧ h.scopes = 0 ∧ h.asked = 1 ∧
        (h.newToken.2.ask (.dispatch "one" (.call "g" [.int 5])) (.root 7)).run
          [.pool 0 (.take 0), .workEnds 0 0 (.returned (.value (.int 7))), .resume 1, .resume 1] = some last ∧
        last.answer? 1 = some (.ok (.int 7)) ∧ last.fired = [] :=
    ⟨_, _, _, rfl, rfl, rfl, rfl, rfl, rfl, rfl, rfl⟩
  have hbefore : MakesNew before := by
    intro e guard? he
    have heq : e = engine ∧ guard? = none := by simpa [before] using he
    rw [heq.1]
    exact ⟨rfl, rfl⟩
  have hused : h.Used := ⟨default, h₀, before, hnew, hbefore, hrun⟩
  have hsame := bridge_forwards hused hname [.int 5] (.root 7)
  rw [hscopes, hasked] at hsame
  obtain ⟨last', hlast', -, hreturns⟩ := hsame.forth _ last (by simp [MakesNew]) hlast
    (by rw [hasFired, hfired]; rfl) (by rw [hfired]; exact List.not_mem_nil)
  obtain ⟨back, hs, hback, hagrees⟩ := hreturns _ hanswer
  exact ⟨h₀, h, last, last', back, hnew, hrun, hlast, hanswer, hlast', hs, hback, hagrees⟩

end Host

end LanguageHost