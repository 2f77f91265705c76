import LanguageHost.Engine.Basic

/-!
# The tokens of works

An engine notes the token of every call that it lets wait for a worker, and looks at these tokens
only when one fires.  So an engine whose works have other tokens (`Engine.mapTokens`) does the same
as long as whatever fires takes along the same works: `Engine.ask_mapTokens` and
`Engine.fire_mapTokens`.
-/

namespace LanguageHost

/-- A work with another token. -/
def Work.mapToken (f : Token → Token) (w : Work) : Work := { w with token := f w.token }

/-- An engine whose works have other tokens. -/
def Engine.mapTokens (f : Token → Token) (e : Engine) : Engine :=
  { e with works := e.works.map (Work.mapToken f) }

namespace Engine

variable {f : Token → Token}

theorem mapTokens_mapTokens (hf : ∀ t, f (f t) = f t) (e : Engine) :
    (e.mapTokens f).mapTokens f = e.mapTokens f := by
  have htwice : Work.mapToken f ∘ Work.mapToken f = Work.mapToken f := by
    funext w
    simp only [Function.comp_apply, Work.mapToken, hf]
  simp only [mapTokens, List.map_map, htwice]

/-! ### Requests -/

theorem begin_mapTokens (f : Token → Token) (e : Engine) (settings : RuntimeSettings)
    (fired : Bool) (now : Nat) :
    (e.mapTokens f).begin settings fired now =
      ((e.begin settings fired now).1, (e.begin settings fired now).2.mapTokens f) := by
  have hlifecycle : (e.mapTokens f).lifecycle = e.lifecycle := rfl
  have hkind : (e.mapTokens f).kind = e.kind := rfl
  unfold begin
  rw [hlifecycle]
  generalize e.lifecycle.claim = claimed
  obtain ⟨result, lifecycle⟩ := claimed
  cases result with
  | error err => rfl
  | ok u =>
    simp only [hkind]
    cases e.kind with
    | native version table => cases fired <;> rfl
    | interpreter language => rfl
    | foreign version => rfl

/-- The work for a task gets the other token too. -/
theorem run_mapTokens (f : Token → Token) (e : Engine) (task : Task) (token : Token)
    (fired : Bool) :
    (e.mapTokens f).run task (f token) fired =
      ((e.run task token fired).1, (e.run task token fired).2.mapTokens f) := by
  have hlifecycle : (e.mapTokens f).lifecycle = e.lifecycle := rfl
  have hitem : ∀ s, (e.mapTokens f).itemOf s task = e.itemOf s task := fun _ => rfl
  unfold run
  rw [hlifecycle]
  split
  · rfl
  · next s _ =>
    rw [hitem]
    split
    · rfl
    · unfold enqueue
      split
      · rfl
      · rfl

theorem stop_mapTokens (f : Token → Token) (e : Engine) :
    (e.mapTokens f).stop = e.stop.mapTokens f := by
  have hlifecycle : (e.mapTokens f).lifecycle = e.lifecycle := rfl
  unfold stop
  rw [hlifecycle]
  generalize e.lifecycle.stop = stopped
  obtain ⟨started?, lifecycle⟩ := stopped
  cases started? with
  | none => rfl
  | some s => rfl

/-- An engine does the same with a request, if the token of the request is changed like those of
the works. -/
theorem ask_mapTokens (f : Token → Token) (e : Engine) (op : EngineOp) (token : Token)
    (fired : Bool) (now : Nat) :
    (e.mapTokens f).ask op (f token) fired now =
      ((e.ask op token fired now).1, (e.ask op token fired now).2.mapTokens f) := by
  have hkind : (e.mapTokens f).kind = e.kind := rfl
  unfold ask
  rw [hkind]
  split
  · rfl
  · cases op with
    | start settings => exact begin_mapTokens f e settings fired now
    | run task => exact run_mapTokens f e task token fired
    | stop => exact congrArg (Prod.mk _) (stop_mapTokens f e)

/-- An engine does the same with tokens that are not told apart. -/
theorem ask_mapTokens_of_eq (hf : ∀ t, f (f t) = f t) {token token' : Token}
    (htoken : f token' = f token) (e : Engine) (op : EngineOp) (fired : Bool) (now : Nat) :
    ((e.mapTokens f).ask op token' fired now).1 = (e.ask op token fired now).1 ∧
      ((e.mapTokens f).ask op token' fired now).2.mapTokens f =
        (e.ask op token fired now).2.mapTokens f := by
  have hleft := ask_mapTokens f (e.mapTokens f) op token' fired now
  have hright := ask_mapTokens f e op token fired now
  rw [mapTokens_mapTokens hf, htoken, hright] at hleft
  exact ⟨(congrArg Prod.fst hleft).symm, (congrArg Prod.snd hleft).symm⟩

/-! ### What happens later -/

theorem prepared_mapTokens (f : Token → Token) (e : Engine) (settings : RuntimeSettings)
    (report : Outcome StartReport) (now : Nat) :
    (e.mapTokens f).prepared settings report now =
      ((e.prepared settings report now).1, (e.prepared settings report now).2.mapTokens f) := by
  cases report with
  | ok report => rfl
  | error err => rfl

theorem poolStep_mapTokens (f : Token → Token) (e : Engine) (event : PoolEvent) :
    (e.mapTokens f).poolStep event = (e.poolStep event).map (Engine.mapTokens f) := by
  have hpool : (e.mapTokens f).pool? = e.pool? := rfl
  unfold poolStep
  rw [hpool, Option.map_map]
  rfl

theorem work?_mapTokens (f : Token → Token) (e : Engine) (t : Ticket) :
    (e.mapTokens f).work? t = (e.work? t).map (Work.mapToken f) := List.find?_map ..

theorem workEnds_mapTokens (f : Token → Token) (e : Engine) (t : Ticket) (report : WorkReport) :
    (e.mapTokens f).workEnds t report = (e.workEnds t report).map (Engine.mapTokens f) := by
  have hpool : (e.mapTokens f).pool? = e.pool? := rfl
  have houtcome : ∀ (w : Work) (fired : Bool),
      (e.mapTokens f).workOutcome? (w.mapToken f) report fired = e.workOutcome? w report fired :=
    fun _ _ => rfl
  unfold workEnds
  rw [hpool, work?_mapTokens]
  cases e.pool? with
  | none => rfl
  | some pool =>
    cases e.work? t with
    | none => rfl
    | some w =>
      simp only [Option.bind_eq_bind, Option.bind_some, Option.map_some, houtcome,
        Option.map_bind, poolStep_mapTokens, Function.comp_def]

/-- The same works are told that a token fires. -/
theorem fire_mapTokens {token : Token} (hf : ∀ t, (f t).under token = t.under token) (e : Engine) :
    (e.mapTokens f).fire token = (e.fire token).mapTokens f := by
  have hsame : (fun w : Work => w.token.under token) ∘ Work.mapToken f =
      fun w => w.token.under token := funext fun w => hf w.token
  unfold fire
  rw [show (e.mapTokens f).works = e.works.map (Work.mapToken f) from rfl, List.filter_map, hsame,
    List.foldl_map]
  exact List.foldl_hom (Engine.mapTokens f) fun _ _ => rfl

end Engine

end LanguageHost
