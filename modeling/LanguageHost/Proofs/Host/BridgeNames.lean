import LanguageHost.Proofs.Host.FunctionCalls
import LanguageHost.Proofs.Host.OtherBridge
import LanguageHost.Proofs.Keyed

/-!
# Names of the bridge

The names of a bridge are told by the changes that have succeeded: a name stands for what was
registered under it last, unless it was taken away since (`Host.get?_run`).  A call looks its name
up once, when it comes (`Host.Finds`), and runs the function that it finds there until it ends, since
the function stands in the stage of the call and not in the bridge.  So a run in which a name is
changed differently goes on in the same way as long as nobody looks that name up
(`Host.run_of_sameBut`).  `Host.bridge_law` puts this together.
-/

namespace LanguageHost

namespace BridgeChange

/-- The name that is changed. -/
def name : BridgeChange → String
  | register name _ | unregister name => name

/-- What the name stands for after the change. -/
def function? : BridgeChange → Option BridgeFunction
  | register _ f => some f
  | unregister _ => none

/-- Why a change is refused. -/
def refusal : BridgeChange → HostError
  | register name _ => .functionAlreadyRegistered name
  | unregister name => .functionNotFound name

end BridgeChange

namespace Bridge

variable {b : Bridge} {change : BridgeChange} {name : String}

/-- Whether a change succeeds: a name that is registered must be free, and a name that is taken away
must not. -/
def accepts (b : Bridge) : BridgeChange → Bool
  | .register name _ => (b.get? name).isNone
  | .unregister name => (b.get? name).isSome

/-- A change that succeeds changes its name and no other. -/
theorem attempt_of_accepts (h : b.accepts change = true) :
    (b.attempt change).1 = .ok () ∧ ∀ k, (b.attempt change).2.get? k =
      if k = change.name then change.function? else b.get? k := by
  cases change with
  | register name f =>
    have hfree : b.get? name = none := Option.isNone_iff_eq_none.mp h
    refine ⟨?_, fun k => ?_⟩
    · simp only [attempt, register, hfree]
    · rw [attempt, get?_register, hfree]
      rfl
  | unregister name =>
    obtain ⟨f, hf⟩ := Option.isSome_iff_exists.mp h
    refine ⟨?_, fun k => get?_unregister b name k⟩
    simp only [attempt, unregister, hf]

/-- A change that fails leaves the bridge as it is. -/
theorem attempt_of_not_accepts (h : b.accepts change = false) :
    b.attempt change = (.error change.refusal, b) := by
  cases change with
  | register name f =>
    obtain ⟨g, hg⟩ := Option.isSome_iff_exists.mp (Option.isNone_eq_false_iff.mp h)
    simp only [attempt, register, hg]
    rfl
  | unregister name =>
    have hfree : b.get? name = none :=
      Option.isNone_iff_eq_none.mp (Option.isSome_eq_false_iff.mp h)
    simp only [attempt, unregister, hfree]
    rfl

theorem mem_names : name ∈ b.names ↔ ∃ f, b.get? name = some f := by
  rw [names, Dict.sortedNames_entries]
  exact Dict.mem_keys

theorem names_sorted (b : Bridge) : b.names.Pairwise (· < ·) :=
  SortedByName.sorted_sort b.functions.entries

/-- A registration fails where the name is taken, and then nothing is changed. -/
theorem register_cases (b : Bridge) (name : String) (f : BridgeFunction) :
    ((b.register name f).1 = .error (.functionAlreadyRegistered name) ↔ name ∈ b.names) ∧
      ((b.register name f).1 = .ok () ↔ name ∉ b.names) ∧
      (name ∈ b.names → (b.register name f).2 = b) := by
  rw [mem_names]
  cases haccepts : b.accepts (.register name f) with
  | true =>
    have hfree : b.get? name = none := Option.isNone_iff_eq_none.mp haccepts
    have hok := (attempt_of_accepts haccepts).1
    rw [attempt] at hok
    simp [hok, hfree]
  | false =>
    obtain ⟨g, hg⟩ := Option.isSome_iff_exists.mp (Option.isNone_eq_false_iff.mp haccepts)
    have herror := attempt_of_not_accepts haccepts
    rw [attempt, BridgeChange.refusal] at herror
    simp [herror, hg]

/-- Taking a name away fails where nothing stands for it. -/
theorem unregister_cases (b : Bridge) (name : String) :
    ((b.unregister name).1 = .error (.functionNotFound name) ↔ name ∉ b.names) ∧
      ((b.unregister name).1 = .ok () ↔ name ∈ b.names) ∧
      (name ∉ b.names → (b.unregister name).2 = b) := by
  rw [mem_names]
  cases haccepts : b.accepts (.unregister name) with
  | true =>
    obtain ⟨g, hg⟩ := Option.isSome_iff_exists.mp haccepts
    have hok := (attempt_of_accepts haccepts).1
    rw [attempt] at hok
    simp [hok, hg]
  | false =>
    have hfree : b.get? name = none :=
      Option.isNone_iff_eq_none.mp (by simpa [accepts] using haccepts)
    have herror := attempt_of_not_accepts haccepts
    rw [attempt, BridgeChange.refusal] at herror
    simp [herror, hfree]

end Bridge

namespace Host

variable {h h' g h₀ mid : Host} {event : HostEvent} {es es' later : List HostEvent}
variable {name : String} {b : Bridge} {f : FunctionId} {token : Token} {args : List Json}
variable {change : BridgeChange} {config : HostConfig}

/-! ### Changes -/

/-- The change that an event makes. -/
def change? (h : Host) (event : HostEvent) : Option BridgeChange :=
  event.bridgeChange?.filter fun change => h.bridge.accepts change

/-- The changes of a run, the first one first. -/
def changes (h : Host) (es : List HostEvent) : List BridgeChange := logged step change? h es

/-- The last change of a name. -/
def lastChange? (h : Host) (es : List HostEvent) (name : String) : Option BridgeChange :=
  ((h.changes es).filter fun change => change.name = name).getLast?

theorem step_of_bridgeChange (h : Host) (hchange : event.bridgeChange? = some change) :
    h.step event = some (h.withBridge (h.bridge.attempt change).2) := by
  cases event with
  | bridgeRegister n f =>
    cases hchange
    rfl
  | bridgeUnregister n =>
    cases hchange
    rfl
  | _ => cases hchange

/-- The bridge changes where a change is tried, and nowhere else. -/
theorem bridge_step (hs : h.step event = some h') :
    h'.bridge = event.bridgeChange?.elim h.bridge fun change => (h.bridge.attempt change).2 := by
  cases hchange : event.bridgeChange? with
  | none =>
    have hsame := step_withBridge (b := h.bridge) hchange fun _ _ => rfl
    have hself : h.withBridge h.bridge = h := rfl
    rw [hself, hs, Option.map_some] at hsame
    have hbridge := congrArg Host.bridge (Option.some.inj hsame)
    exact hbridge
  | some change =>
    obtain rfl := Option.some.inj ((step_of_bridgeChange h hchange).symm.trans hs)
    rfl

/-- What a name stands for after an event. -/
theorem get?_step (hs : h.step event = some h') (name : String) :
    h'.bridge.get? name = match h.change? event with
      | some change => if name = change.name then change.function? else h.bridge.get? name
      | none => h.bridge.get? name := by
  rw [bridge_step hs, change?]
  cases event.bridgeChange? with
  | none => rfl
  | some change =>
    cases haccepts : h.bridge.accepts change with
    | true =>
      rw [Option.filter_some, if_pos haccepts]
      exact (Bridge.attempt_of_accepts haccepts).2 name
    | false =>
      rw [Option.filter_some, if_neg (by simp [haccepts]), Option.elim_some,
        Bridge.attempt_of_not_accepts haccepts]

/-- A name stands for what its last change has left. -/
theorem get?_run (hr : h₀.run es = some h) (name : String) :
    h.bridge.get? name =
      (h₀.lastChange? es name).elim (h₀.bridge.get? name) BridgeChange.function? := by
  refine plays.history (motive := fun es h => h.bridge.get? name =
    (h₀.lastChange? es name).elim (h₀.bridge.get? name) BridgeChange.function?) rfl ?_ hr
  intro es mid event next hrun ih hs
  rw [get?_step hs name, lastChange?, changes, plays.logged_concat hrun, List.filter_append]
  cases mid.change? event with
  | none =>
    rw [Option.toList_none, List.filter_nil, List.append_nil]
    exact ih
  | some change =>
    rw [Option.toList_some, List.filter_singleton]
    by_cases hname : name = change.name
    · rw [decide_eq_true hname.symm, cond_true, List.getLast?_concat]
      exact if_pos hname
    · rw [decide_eq_false (Ne.symm hname), cond_false, List.append_nil]
      exact (if_neg hname).trans ih

/-! ### Look-ups -/

/-- A call comes and gets somewhere at once. -/
def comes (t : Turn) (c : CallId) (token : Token) : Host :=
  { t.host with calls := ⟨c, token, t.frames, t.stage, t.host.now⟩ :: t.host.calls }

/-- What comes of a look-up of a name. -/
structure Finds (h : Host) (name : String) (args : List Json) (token : Token) : Prop where
  /-- The bridge answers by itself that there is no such function where nothing is found, and only
  there. -/
  missing : (h.ask (.bridge name args) token).answer? h.asked =
    some (.error (.functionNotFound name)) ↔ h.bridge.get? name = none
  /-- Nothing is done where nothing is found. -/
  absent : h.bridge.get? name = none → h.ask (.bridge name args) token =
    comes ⟨{ h with asked := h.asked + 1 }, [], .over (.error (.functionNotFound name))⟩ h.asked
      token
  /-- Nothing is handed on for a caller that was cancelled before. -/
  refuses : ∀ runtime function, h.bridge.get? name = some (.exposed runtime function) →
    h.hasFired token = true → h.ask (.bridge name args) token =
      comes ⟨{ h with asked := h.asked + 1 }, [], .over (.error .operationCancelled)⟩ h.asked token
  forwards : ∀ runtime function, h.bridge.get? name = some (.exposed runtime function) →
    h.hasFired token = false → h.ask (.bridge name args) token =
      comes ({ h with asked := h.asked + 1, scopes := h.scopes + 1 }.dispatch runtime
        (.call function args) (token.child h.scopes) [.race token]) h.asked token
  calls : ∀ f, h.bridge.get? name = some (.app f) → h.ask (.bridge name args) token =
    comes ⟨{ h with asked := h.asked + 1, scopes := h.scopes + 1 }, [],
      .called f (token.child h.scopes) args⟩ h.asked token

theorem call?_comes (t : Turn) (c : CallId) (token : Token) :
    (comes t c token).call? c = some ⟨c, token, t.frames, t.stage, t.host.now⟩ :=
  List.find?_cons_of_pos (by simp)

/-- A call has its answer at once only where there is nothing left to do around an outcome. -/
theorem answer?_comes {t : Turn} {c : CallId} {result : Outcome Json} :
    (comes t c token).answer? c = some result ↔ t.frames = [] ∧ t.stage = .over result := by
  constructor
  · intro ha
    obtain ⟨k, hk, hframes, hstage⟩ := call?_of_answer? ha
    cases (call?_comes t c token).symm.trans hk
    exact ⟨hframes, hstage⟩
  · rintro ⟨hframes, hstage⟩
    exact answer?_of_call? (call?_comes t c token) hframes hstage

/-- What an engine is asked inside of frames has no answer for the caller yet. -/
theorem frames_dispatch_ne_nil (h : Host) (name : String) (task : Task) (token : Token)
    {frames : List Frame} (hframes : frames ≠ []) :
    (h.dispatch name task token frames).frames ≠ [] := by
  unfold dispatch
  split
  · exact hframes
  · dsimp only
    rw [(askEngine_frames h _ _ token _).1]
    split
    · exact List.cons_ne_nil _ _
    · exact hframes

theorem ask_of_absent (hfound : h.bridge.get? name = none) :
    h.ask (.bridge name args) token =
      comes ⟨{ h with asked := h.asked + 1 }, [], .over (.error (.functionNotFound name))⟩ h.asked
        token := by
  simp only [ask, begin, callBridge, hfound]
  rfl

theorem ask_of_exposed_of_fired {runtime function : String}
    (hfound : h.bridge.get? name = some (.exposed runtime function))
    (hfired : h.hasFired token = true) : h.ask (.bridge name args) token =
      comes ⟨{ h with asked := h.asked + 1 }, [], .over (.error .operationCancelled)⟩ h.asked
        token := by
  have hlater : { h with asked := h.asked + 1 }.hasFired token = true := hfired
  simp only [ask, begin, callBridge, hfound, hlater]
  rfl

theorem ask_of_exposed {runtime function : String}
    (hfound : h.bridge.get? name = some (.exposed runtime function))
    (hfired : h.hasFired token = false) : h.ask (.bridge name args) token =
      comes ({ h with asked := h.asked + 1, scopes := h.scopes + 1 }.dispatch runtime
        (.call function args) (token.child h.scopes) [.race token]) h.asked token := by
  have hlater : { h with asked := h.asked + 1 }.hasFired token = false := hfired
  simp only [ask, begin, callBridge, hfound, hlater]
  rfl

theorem ask_of_app (hfound : h.bridge.get? name = some (.app f)) :
    h.ask (.bridge name args) token =
      comes ⟨{ h with asked := h.asked + 1, scopes := h.scopes + 1 }, [],
        .called f (token.child h.scopes) args⟩ h.asked token := by
  simp only [ask, begin, callBridge, hfound]
  rfl

theorem finds_ask (h : Host) (name : String) (args : List Json) (token : Token) :
    h.Finds name args token := by
  refine ⟨⟨fun hanswer => ?_, fun hnone => ?_⟩, ask_of_absent, fun _ _ => ask_of_exposed_of_fired,
    fun _ _ => ask_of_exposed, fun _ => ask_of_app⟩
  · by_contra hsome
    obtain ⟨found, hfound⟩ := Option.ne_none_iff_exists'.mp hsome
    cases found with
    | app f =>
      rw [ask_of_app hfound, answer?_comes] at hanswer
      cases hanswer.2
    | exposed runtime function =>
      cases hfired : h.hasFired token with
      | true =>
        rw [ask_of_exposed_of_fired hfound hfired, answer?_comes] at hanswer
        cases hanswer.2
      | false =>
        rw [ask_of_exposed hfound hfired, answer?_comes] at hanswer
        exact frames_dispatch_ne_nil _ _ _ _ (List.cons_ne_nil _ _) hanswer.1
  · rw [ask_of_absent hnone, answer?_comes]
    exact ⟨rfl, rfl⟩

/-- A call of an application function runs that function. -/
theorem functionCourse_of_ask (hfound : h.bridge.get? name = some (.app f))
    (hr : (h.ask (.bridge name args) token).run later = some g) :
    FunctionCourse (h.ask (.bridge name args) token) h.asked f token (token.child h.scopes) args
      later g := by
  have hk : (h.ask (.bridge name args) token).call? h.asked =
      some ⟨h.asked, token, [], .called f (token.child h.scopes) args, h.now⟩ := by
    rw [ask_of_app hfound]
    exact call?_comes _ _ _
  exact functionCourse_of_run hk (asked_lt_ask h _ token) hr

/-- No work begins for a call whose token has fired before, and it returns nothing but that it was
cancelled. -/
theorem spared_of_ask (hname : h.bridge.get? name ≠ none) (hfired : h.hasFired token = true)
    (hr : (h.ask (.bridge name args) token).run later = some g) : Spared h.asked later g := by
  obtain ⟨found, hfound⟩ := Option.ne_none_iff_exists'.mp hname
  cases found with
  | app f =>
    refine (functionCourse_of_ask hfound hr).spared ?_
    have hasked : h.run [.ask (.bridge name args) token] = some (h.ask (.bridge name args) token) :=
      rfl
    exact hasFired_run hasked hfired
  | exposed runtime function =>
    have hanswer : (h.ask (.bridge name args) token).answer? h.asked =
        some (.error .operationCancelled) := by
      rw [ask_of_exposed_of_fired hfound hfired, answer?_comes]
      exact ⟨rfl, rfl⟩
    rcases answered_run hanswer (asked_lt_ask h _ token) hr with ha | ⟨hdrop, hgone⟩
    · exact .answered ha
    · exact .gone hgone (.inl hdrop)

/-! ### Runs in which a name is changed differently -/

/-- Bridges that agree on all other names do so after a change. -/
theorem get?_attempt_congr {b' : Bridge} (hb : ∀ k, k ≠ name → b.get? k = b'.get? k)
    (change : BridgeChange) :
    ∀ k, k ≠ name → (b.attempt change).2.get? k = (b'.attempt change).2.get? k := by
  intro k hk
  cases change with
  | register n f =>
    rw [Bridge.attempt, Bridge.attempt, Bridge.get?_register, Bridge.get?_register]
    split
    · next hkn => rw [← hkn, hb k hk]
    · exact hb k hk
  | unregister n =>
    rw [Bridge.attempt, Bridge.attempt, Bridge.get?_unregister, Bridge.get?_unregister]
    split
    · rfl
    · exact hb k hk

/-- A change of a name leaves all other names alone. -/
theorem get?_attempt_of_ne {change : BridgeChange} {k : String} (hk : k ≠ change.name) :
    (b.attempt change).2.get? k = b.get? k := by
  cases change with
  | register n f =>
    rw [Bridge.attempt, Bridge.get?_register]
    exact if_neg hk
  | unregister n =>
    rw [Bridge.attempt, Bridge.get?_unregister]
    exact if_neg hk

/-- An event that does not look a name up goes on as before if the name stands for something
else. -/
theorem step_unseen (hb : ∀ k, k ≠ name → b.get? k = h.bridge.get? k)
    (hnot : event.lookUp? ≠ some name) (hs : h.step event = some h') :
    ∃ b', (h.withBridge b).step event = some (h'.withBridge b') ∧
      ∀ k, k ≠ name → b'.get? k = h'.bridge.get? k := by
  have hbridge := bridge_step hs
  cases hchange : event.bridgeChange? with
  | none =>
    rw [hchange] at hbridge
    refine ⟨b, ?_, fun k hk => hbridge ▸ hb k hk⟩
    have hfound : ∀ n, event.lookUp? = some n → b.get? n = h.bridge.get? n := by
      refine fun n hn => hb n ?_
      rintro rfl
      exact hnot hn
    rw [step_withBridge hchange hfound, hs, Option.map_some]
  | some change =>
    rw [hchange, Option.elim_some] at hbridge
    refine ⟨(b.attempt change).2, ?_, hbridge ▸ get?_attempt_congr hb change⟩
    obtain rfl := Option.some.inj ((step_of_bridgeChange h hchange).symm.trans hs)
    exact step_of_bridgeChange (h.withBridge b) hchange

end Host

/-- Two lists of events are the same but for changes of a name. -/
inductive SameBut (name : String) : List HostEvent → List HostEvent → Prop where
  | nil : SameBut name [] []
  | cons (event : HostEvent) {es es' : List HostEvent} (h : SameBut name es es') :
      SameBut name (event :: es) (event :: es')
  | left {event : HostEvent} {es es' : List HostEvent} {change : BridgeChange}
      (hchange : event.bridgeChange? = some change) (hname : change.name = name)
      (h : SameBut name es es') : SameBut name (event :: es) es'
  | right {event : HostEvent} {es es' : List HostEvent} {change : BridgeChange}
      (hchange : event.bridgeChange? = some change) (hname : change.name = name)
      (h : SameBut name es es') : SameBut name es (event :: es')

namespace Host

variable {h g h₀ : Host} {es es' : List HostEvent} {name : String} {b : Bridge}
variable {config : HostConfig}

/-- Where nobody looks a name up, it does not matter for anything else how the name is changed. -/
theorem run_of_sameBut (hsame : SameBut name es es')
    (hb : ∀ k, k ≠ name → b.get? k = h.bridge.get? k)
    (hunseen : ∀ event ∈ es, event.lookUp? ≠ some name) (hr : h.run es = some g) :
    ∃ b', (h.withBridge b).run es' = some (g.withBridge b') ∧
      ∀ k, k ≠ name → b'.get? k = g.bridge.get? k := by
  induction hsame generalizing h b with
  | nil =>
    obtain rfl : h = g := Option.some.inj hr
    exact ⟨b, rfl, hb⟩
  | cons event _ ih =>
    obtain ⟨mid, hs, hrest⟩ := plays.cons_eq_some.mp hr
    obtain ⟨hevent, hunseen⟩ := List.forall_mem_cons.mp hunseen
    obtain ⟨b₁, hs₁, hb₁⟩ := step_unseen hb hevent hs
    obtain ⟨b', hr', hb'⟩ := ih hb₁ hunseen hrest
    exact ⟨b', plays.cons_eq_some.mpr ⟨_, hs₁, hr'⟩, hb'⟩
  | @left event _ _ change hchange hname _ ih =>
    obtain ⟨mid, hs, hrest⟩ := plays.cons_eq_some.mp hr
    have hmid : h.withBridge (h.bridge.attempt change).2 = mid :=
      Option.some.inj ((step_of_bridgeChange h hchange).symm.trans hs)
    have hb' : ∀ k, k ≠ name → b.get? k = mid.bridge.get? k := by
      intro k hk
      rw [← hmid]
      exact (hb k hk).trans (get?_attempt_of_ne (hname ▸ hk)).symm
    have hleft : mid.withBridge b = h.withBridge b := by
      rw [← hmid]
      rfl
    exact hleft ▸ ih hb' (List.forall_mem_cons.mp hunseen).2 hrest
  | right hchange hname _ ih =>
    have hs := step_of_bridgeChange (h.withBridge b) hchange
    obtain ⟨b', hr', hb'⟩ := ih (fun k hk => (get?_attempt_of_ne (hname ▸ hk)).trans (hb k hk))
      hunseen hr
    exact ⟨b', plays.cons_eq_some.mpr ⟨_, hs, hr'⟩, hb'⟩

/-! ### The bridge of a host -/

/-- What the names of the bridge stand for in a host that came about by `es`, and what becomes of
its calls. -/
structure BridgeLaw (h₀ : Host) (es : List HostEvent) (h : Host) : Prop where
  sorted : h.bridge.names.Pairwise (· < ·)
  names : ∀ name, name ∈ h.bridge.names ↔
    ∃ f, h₀.lastChange? es name = some (.register name f)
  stands : ∀ name f, h.bridge.get? name = some f ↔
    h₀.lastChange? es name = some (.register name f)
  registers : ∀ name f,
    ((h.bridge.register name f).1 = .error (.functionAlreadyRegistered name) ↔
        name ∈ h.bridge.names) ∧
      ((h.bridge.register name f).1 = .ok () ↔ name ∉ h.bridge.names) ∧
      (name ∈ h.bridge.names → (h.bridge.register name f).2 = h.bridge)
  exposes : ∀ name runtime function,
    ((h.bridge.expose name runtime function).1 = .error (.functionAlreadyRegistered name) ↔
        name ∈ h.bridge.names) ∧
      ((h.bridge.expose name runtime function).1 = .ok () ↔ name ∉ h.bridge.names) ∧
      (name ∈ h.bridge.names → (h.bridge.expose name runtime function).2 = h.bridge)
  unregisters : ∀ name,
    ((h.bridge.unregister name).1 = .error (.functionNotFound name) ↔ name ∉ h.bridge.names) ∧
      ((h.bridge.unregister name).1 = .ok () ↔ name ∈ h.bridge.names) ∧
      (name ∉ h.bridge.names → (h.bridge.unregister name).2 = h.bridge)
  finds : ∀ name args token, h.Finds name args token
  runs : ∀ name f args token later g, h.bridge.get? name = some (.app f) →
    (h.ask (.bridge name args) token).run later = some g →
    FunctionCourse (h.ask (.bridge name args) token) h.asked f token (token.child h.scopes) args
      later g
  spares : ∀ name args token later g, h.bridge.get? name ≠ none → h.hasFired token = true →
    (h.ask (.bridge name args) token).run later = some g → Spared h.asked later g
  unaffected : ∀ name later later' g, SameBut name later later' → h.run later = some g →
    (∀ event ∈ later, event.lookUp? ≠ some name) →
    ∃ b, h.run later' = some (g.withBridge b) ∧ (∀ k, k ≠ name → b.get? k = g.bridge.get? k) ∧
      ∀ c, (g.withBridge b).answer? c = g.answer? c

/-- The names of the bridge are told by the changes that have succeeded, and a call runs the
function that it has found. -/
theorem bridge_law (hnew : Host.new config = .ok h₀) (hr : h₀.run es = some h) :
    h₀.BridgeLaw es h := by
  have hempty : ∀ name, h₀.bridge.get? name = none := by
    obtain rfl := eq_of_new hnew
    exact fun _ => rfl
  have hstands : ∀ name f, h.bridge.get? name = some f ↔
      h₀.lastChange? es name = some (.register name f) := by
    intro name f
    rw [get?_run hr name, hempty]
    cases hlast : h₀.lastChange? es name with
    | none => exact ⟨nofun, nofun⟩
    | some change =>
      have hname : change.name = name := by
        have hmem := List.mem_of_getLast? hlast
        simpa using (List.mem_filter.mp hmem).2
      cases change with
      | register n f' =>
        obtain rfl : n = name := hname
        constructor
        · intro hf
          cases hf
          rfl
        · intro hf
          cases hf
          rfl
      | unregister n => exact ⟨nofun, nofun⟩
  refine ⟨h.bridge.names_sorted, fun name => ?_, hstands, h.bridge.register_cases,
    fun name runtime function => h.bridge.register_cases name (.exposed runtime function),
    h.bridge.unregister_cases, finds_ask h, fun _ _ _ _ _ _ => functionCourse_of_ask,
    fun _ _ _ _ _ => spared_of_ask, fun name later later' g hsame hrun hunseen => ?_⟩
  · rw [Bridge.mem_names]
    exact exists_congr (hstands name)
  · obtain ⟨b, hr', hb⟩ := run_of_sameBut hsame (b := h.bridge) (fun _ _ => rfl) hunseen hrun
    exact ⟨b, hr', hb, fun _ => rfl⟩

/-- A name is taken away and given to another function while the function that was registered first
is at work. -/
theorem bridge_law_during_call :
    ∃ h₀ h g b, Host.new default = .ok h₀ ∧
      h₀.run [.bridgeRegister "f" (.app 1), .bridgeRegister "f" (.app 2),
        .ask (.bridge "f" []) (.root 0)] = some h ∧
      h₀.BridgeLaw [.bridgeRegister "f" (.app 1), .bridgeRegister "f" (.app 2),
        .ask (.bridge "f" []) (.root 0)] h ∧
      h.run [.returned 0, .finished 0 (.ok (.int 1)), .resume 0] = some g ∧
      g.answer? 0 = some (.ok (.int 1)) ∧
      h.run [.bridgeUnregister "f", .returned 0, .bridgeRegister "f" (.app 2),
        .finished 0 (.ok (.int 1)), .resume 0] = some (g.withBridge b) ∧
      (g.withBridge b).answer? 0 = some (.ok (.int 1)) := by
  obtain ⟨h₀, h, g, hnew, hrun, hg, hanswer⟩ :
      ∃ h₀ h g, Host.new default = .ok h₀ ∧
        h₀.run [.bridgeRegister "f" (.app 1), .bridgeRegister "f" (.app 2),
          .ask (.bridge "f" []) (.root 0)] = some h ∧
        h.run [.returned 0, .finished 0 (.ok (.int 1)), .resume 0] = some g ∧
        g.answer? 0 = some (.ok (.int 1)) :=
    ⟨_, _, _, rfl, rfl, rfl, rfl⟩
  have hlaw := bridge_law hnew hrun
  have hsame : SameBut "f" [.returned 0, .finished 0 (.ok (.int 1)), .resume 0]
      [.bridgeUnregister "f", .returned 0, .bridgeRegister "f" (.app 2),
        .finished 0 (.ok (.int 1)), .resume 0] :=
    .right rfl rfl (.cons _ (.right rfl rfl (.cons _ (.cons _ .nil))))
  obtain ⟨b, hg', -, hsameAnswers⟩ :=
    hlaw.unaffected "f" _ _ g hsame hg (by simp [HostEvent.lookUp?])
  exact ⟨h₀, h, g, b, hnew, hrun, hlaw, hg, hanswer, hg', (hsameAnswers 0).trans hanswer⟩

/-- A function that panics as it is called takes its caller along, also where the token of the
caller has fired before: the request, for a name that is there, is never answered. -/
theorem unanswered_of_panic :
    ∃ h₀ h g, Host.new default = .ok h₀ ∧
      h₀.run [.bridgeRegister "f" (.app 1), .fire (.root 0)] = some h ∧
      h.bridge.get? "f" = some (.app 1) ∧ h.hasFired (.root 0) = true ∧
      (h.ask (.bridge "f" []) (.root 0)).run [.panicked h.asked] = some g ∧
      ∀ later last, g.run later = some last → last.answer? h.asked = none := by
  obtain ⟨h₀, h, g, hnew, hrun, hname, hfired, hg, hgone, hlt⟩ :
      ∃ h₀ h g, Host.new default = .ok h₀ ∧
        h₀.run [.bridgeRegister "f" (.app 1), .fire (.root 0)] = some h ∧
        h.bridge.get? "f" = some (.app 1) ∧ h.hasFired (.root 0) = true ∧
        (h.ask (.bridge "f" []) (.root 0)).run [.panicked h.asked] = some g ∧
        g.call? h.asked = none ∧ h.asked < g.asked :=
    ⟨_, _, _, rfl, rfl, rfl, rfl, rfl, rfl, Nat.lt_succ_self 0⟩
  refine ⟨h₀, h, g, hnew, hrun, hname, hfired, hg, fun later last hr => ?_⟩
  have hnone := gone_run hgone hlt hr
  simp only [answer?, hnone]

end Host

end LanguageHost
