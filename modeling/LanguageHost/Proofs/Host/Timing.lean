import LanguageHost.Proofs.Host.Steps

/-!
# Tasks that are timed

A task that is handed on under the name of an engine, directly or through the bridge, is timed if
the profiler is on at the moment.  Its call has a frame for it until the outcome goes through that
frame, and then the profiler records it.  A call through the bridge loses the frame when its race is
over first.  So each call is on a course: it has nothing that is timed, the task is under way, it has
ended and was recorded, or it was left (`Course`).  Every event keeps all calls on course, whatever
becomes of the profiler in between (`Timed`).
-/

namespace LanguageHost

/-- A task that has come to its end and was recorded. -/
structure Completion where
  call : CallId
  runtime : String
  function : String
  result : Outcome Json

/-- The name of the summary to which a task counts. -/
def Completion.key (e : Completion) : String := Profiler.key e.runtime e.function

namespace Host

variable {h h' : Host} {t : Turn} {c : CallId} {k : Call} {x : Handing} {e : Completion}
variable {event : HostEvent} {es : List HostEvent} {frames outer : List Frame}
variable {handed : List Handing} {ended : List Completion} {left : List CallId}

/-- The task that has come to its end when an event lets its outcome go through the frame. -/
def ended? (h : Host) : HostEvent → Option Completion
  | .resume c => (h.call? c).bind fun k =>
    match k.stage, k.frames with
    | .over result, .tracked runtime function _ :: _ => some ⟨c, runtime, function, result⟩
    | _, _ => none
  | _ => none

/-- The call that goes away, when a race around it is over, from a task that is timed and under
way. -/
def left? (h : Host) : HostEvent → Option CallId
  | .resume c => (h.call? c).bind fun k =>
    if !k.stage.isOver && (cutRace h.hasFired k.frames).isSome && k.frames.any Frame.isTracked then
      some c
    else none
  | _ => none

/-- The task that an event hands to an engine while the profiler is on. -/
def timed? (h : Host) (event : HostEvent) : Option Handing :=
  if h.profiler.enabled then h.handed? event else none

/-- The tasks that are handed on in the course of a run. -/
def handings (h : Host) (es : List HostEvent) : List Handing := logged step handed? h es

/-- The tasks that are handed on in the course of a run while the profiler is on. -/
def timings (h : Host) (es : List HostEvent) : List Handing := logged step timed? h es

/-- The tasks that are recorded in the course of a run. -/
def endings (h : Host) (es : List HostEvent) : List Completion := logged step ended? h es

/-- The calls that are left in the course of a run while their task is under way. -/
def leavings (h : Host) (es : List HostEvent) : List CallId := logged step left? h es

/-! ### The course of a call -/

/-- How a call stands to what was handed on, has ended and was left. -/
inductive Course (handed : List Handing) (ended : List Completion) (left : List CallId) (k : Call) :
    Prop where
  /-- Nothing of it is timed. -/
  | apart (hhanded : ∀ x ∈ handed, x.call = k.id → x.route = .direct)
    (hended : ∀ e ∈ ended, e.call ≠ k.id) (hleft : k.id ∉ left)
    (hframes : ∀ f ∈ k.frames, f.isTracked = false)
  /-- Its task is under way. -/
  | underway {x : Handing} {name : String} {since : Nat} {outer : List Frame} (hx : x ∈ handed)
    (hcall : x.call = k.id) (hname : x.route.name? = some name)
    (hended : ∀ e ∈ ended, e.call ≠ k.id) (hleft : k.id ∉ left)
    (hframes : k.frames = .tracked name x.task.function since :: outer)
    (houter : ∀ f ∈ outer, f.handsOn = true) (hnamed : x.route = .named name → outer = [])
    (hstage : k.stage.isCalled = false)
  /-- Its task has come to its end, and the outcome is on its way to the caller. -/
  | ended {x : Handing} {name : String} {result : Outcome Json} (hx : x ∈ handed)
    (hcall : x.call = k.id) (hname : x.route.name? = some name)
    (hended : ⟨k.id, name, x.task.function, result⟩ ∈ ended) (hleft : k.id ∉ left)
    (hstage : k.stage = .over result) (hframes : ∀ f ∈ k.frames, f.handsOn = true)
  /-- It was left while its task was under way. -/
  | gone {x : Handing} {name : String} (hx : x ∈ handed) (hcall : x.call = k.id)
    (hroute : x.route = .bridged name) (hended : ∀ e ∈ ended, e.call ≠ k.id) (hleft : k.id ∈ left)
    (hstage : k.stage = .over (.error .operationCancelled))
    (hframes : ∀ f ∈ k.frames, f.handsOn = true)

/-- What happens to other calls does not matter. -/
theorem Course.congr {handed' : List Handing} {ended' : List Completion} {left' : List CallId}
    (hk : Course handed ended left k)
    (hhanded : ∀ x : Handing, x.call = k.id → (x ∈ handed' ↔ x ∈ handed))
    (hended : ∀ e : Completion, e.call = k.id → (e ∈ ended' ↔ e ∈ ended))
    (hleft : k.id ∈ left' ↔ k.id ∈ left) : Course handed' ended' left' k := by
  have hnone : (∀ e ∈ ended, e.call ≠ k.id) → ∀ e ∈ ended', e.call ≠ k.id :=
    fun h e he hid => h e ((hended e hid).mp he) hid
  cases hk with
  | apart hdirect hnoend hnot hframes =>
    exact .apart (fun x hx hid => hdirect x ((hhanded x hid).mp hx) hid) (hnone hnoend)
      (fun hc => hnot (hleft.mp hc)) hframes
  | underway hx hcall hname hnoend hnot hframes houter hnamed hstage =>
    exact .underway ((hhanded _ hcall).mpr hx) hcall hname (hnone hnoend)
      (fun hc => hnot (hleft.mp hc)) hframes houter hnamed hstage
  | ended hx hcall hname he hnot hstage hframes =>
    exact .ended ((hhanded _ hcall).mpr hx) hcall hname ((hended _ rfl).mpr he)
      (fun hc => hnot (hleft.mp hc)) hstage hframes
  | gone hx hcall hroute hnoend hc hstage hframes =>
    exact .gone ((hhanded _ hcall).mpr hx) hcall hroute (hnone hnoend) (hleft.mpr hc) hstage hframes

/-! ### What a call does by itself -/

theorem isTracked_of_handsOn {f : Frame} (hf : f.handsOn = true) : f.isTracked = false := by
  cases f <;> first | rfl | cases hf

/-- Where nothing is handed on, nothing is timed. -/
theorem Leads.untracked (ht : h.Leads [] none t) : ∀ f ∈ t.frames, f.isTracked = false := by
  cases ht with
  | goes inner _ hframes hinner =>
    rw [hframes, List.append_nil]
    exact hinner

section

variable {mid : Host} {token : Token}

theorem untracked_askEngine (h : Host) (r : EngineId) (op : EngineOp) (token : Token)
    (hframes : ∀ f ∈ frames, f.isTracked = false) :
    ∀ f ∈ (h.askEngine r op token frames).frames, f.isTracked = false := by
  rw [(askEngine_frames h r op token frames).1]
  exact hframes

theorem untracked_dispatch_of_off (hoff : mid.profiler.enabled = false) (name : String)
    (task : Task) (hframes : ∀ f ∈ frames, f.isTracked = false) :
    ∀ f ∈ (mid.dispatch name task token frames).frames, f.isTracked = false := by
  unfold dispatch
  split
  · exact hframes
  · rw [hoff]
    exact untracked_askEngine mid _ _ token hframes

theorem untracked_callBridge_of_off (hoff : h.profiler.enabled = false) (name : String)
    (args : List Json) (token : Token) :
    ∀ f ∈ (h.callBridge name args token).frames, f.isTracked = false := by
  unfold callBridge
  split
  · exact List.forall_mem_nil _
  · next runtime function _ =>
    have hscope : ({ h with scopes := h.scopes + 1 } : Host).profiler.enabled = false := hoff
    split
    · exact List.forall_mem_nil _
    · exact untracked_dispatch_of_off hscope runtime _ (by simp [Frame.isTracked])
  · exact List.forall_mem_nil _

theorem untracked_begin_of_off (hoff : h.profiler.enabled = false) (request : Request)
    (token : Token) : ∀ f ∈ (h.begin request token).frames, f.isTracked = false := by
  cases request with
  | start => exact (leads_startNext _ _ _ _).untracked
  | stop => exact (leads_stopNext _ _ _ _ _).untracked
  | dispatch name task => exact untracked_dispatch_of_off hoff name task nofun
  | bridge name args => exact untracked_callBridge_of_off hoff name args token
  | engine r op => exact untracked_askEngine h r op token nofun

end

/-- A call for which nothing was handed on so far begins by itself while the profiler is on. -/
theorem Leads.course {x? : Option Handing} (ht : h.Leads [] x? t)
    (henabled : h.profiler.enabled = true) (hx? : ∀ x, x? = some x → x.call = k.id)
    (hhanded : ∀ x ∈ handed, x.call ≠ k.id) (hended : ∀ e ∈ ended, e.call ≠ k.id)
    (hleft : k.id ∉ left) (hkframes : k.frames = t.frames) (hkstage : k.stage = t.stage) :
    Course (handed ++ x?.toList) ended left k := by
  cases ht with
  | goes inner hquiet hturn hinner =>
    rw [Option.toList_none, List.append_nil]
    refine .apart (fun x hx hid => absurd hid (hhanded x hx)) hended hleft ?_
    rw [hkframes, hturn, List.append_nil]
    exact hinner
  | @hands mid token inner x hsame hinner =>
    have hcall : x.call = k.id := hx? x rfl
    obtain ⟨hturn, hback, -⟩ := askEngine_frames mid x.engine (.run x.task) token inner
    have hx : x ∈ handed ++ (some x).toList := by simp
    have hafter : x.Frames [] k.frames := by
      rw [hkframes, hturn]
      exact hinner henabled
    have hstage : k.stage.isCalled = false := hkstage ▸ hback
    unfold Handing.Frames at hafter
    split at hafter
    · next hroute =>
      refine .apart (fun y hy hid => ?_) hended hleft (hafter ▸ nofun)
      rcases List.mem_append.mp hy with hy | hy
      · exact absurd hid (hhanded y hy)
      · obtain rfl : y = x := by simpa using hy
        exact hroute
    · next name hroute =>
      obtain ⟨since, hafter⟩ := hafter
      exact .underway hx hcall (by rw [hroute]; rfl) hended hleft hafter nofun (fun _ => rfl)
        hstage
    · next name hroute =>
      obtain ⟨since, race, hafter⟩ := hafter
      refine .underway hx hcall (by rw [hroute]; rfl) hended hleft hafter
        (by simp [Frame.handsOn]) (fun hnot => ?_) hstage
      rw [hroute] at hnot
      cases hnot

/-! ### What is left -/

/-- What a race leaves is the race and everything inside of it. -/
theorem eq_append_of_cutRace {fired : Token → Bool} (h : cutRace fired frames = some outer) :
    ∃ inner token, frames = inner ++ .race token :: outer := by
  induction frames with
  | nil => cases h
  | cons f frames ih =>
    unfold cutRace at h
    split at h
    · next found hfound =>
      cases h
      obtain ⟨inner, token, rfl⟩ := ih hfound
      exact ⟨f :: inner, token, rfl⟩
    · split at h
      · next token =>
        split at h
        · cases h
          exact ⟨[], token, rfl⟩
        · cases h
      · cases h

/-- A race around a task is over, so the task came through the bridge. -/
theorem bridged_of_cut {fired : Token → Bool} {name : String} {since : Nat} {around : List Frame}
    (hname : x.route.name? = some name) (hnamed : x.route = .named name → around = [])
    (hcut : cutRace fired (.tracked name x.task.function since :: around) = some outer) :
    x.route = .bridged name ∧ ∀ f ∈ outer, f ∈ around := by
  obtain ⟨inner, token, hframes⟩ := eq_append_of_cutRace hcut
  obtain ⟨inner, rfl⟩ : ∃ inner', around = inner' ++ .race token :: outer := by
    cases inner with
    | nil => cases hframes
    | cons f inner => exact ⟨inner, (List.cons.inj hframes).2⟩
  refine ⟨?_, fun f hf => List.mem_append_right _ (List.mem_cons_of_mem _ hf)⟩
  cases hroute : x.route with
  | direct =>
    rw [hroute] at hname
    cases hname
  | named n =>
    obtain rfl : n = name := by simpa [hroute, Route.name?] using hname
    simpa using hnamed hroute
  | bridged n =>
    obtain rfl : n = name := by simpa [hroute, Route.name?] using hname
    rfl

/-- What takes too long is a start, which is left with everything inside of it. -/
theorem eq_append_of_cutStart {now : Nat} {limit : Duration}
    (h : cutStart now frames = some (limit, outer)) :
    ∃ inner name limit? entries rest, frames = inner ++ outer ∧
      outer = .starting name limit? entries :: rest := by
  induction frames with
  | nil => cases h
  | cons f frames ih =>
    unfold cutStart at h
    split at h
    · next found hfound =>
      cases h
      obtain ⟨inner, name, limit?, entries, rest, rfl, houter⟩ := ih hfound
      exact ⟨f :: inner, name, limit?, entries, rest, rfl, houter⟩
    · split at h
      · next name l entries =>
        split at h
        · cases h
          exact ⟨[], name, some l, entries, frames, rfl, rfl⟩
        · cases h
      · cases h

/-! ### What is logged of an event -/

theorem ended?_of_over {f : Frame} {rest : List Frame} {result : Outcome Json}
    (hk : h.call? k.id = some k) (hover : k.stage = .over result) (hframes : k.frames = f :: rest) :
    h.ended? (.resume k.id) = match f with
      | .tracked runtime function _ => some ⟨k.id, runtime, function, result⟩
      | _ => none := by
  simp only [ended?, hk, Option.bind_some, hover, hframes]
  cases f <;> rfl

theorem ended?_of_not_over (hk : h.call? k.id = some k) (hstage : k.stage.isOver = false) :
    h.ended? (.resume k.id) = none := by
  simp only [ended?, hk, Option.bind_some]
  split
  · next hover _ =>
    rw [hover] at hstage
    cases hstage
  · rfl

theorem left?_of_over (hk : h.call? k.id = some k) (hstage : k.stage.isOver = true) :
    h.left? (.resume k.id) = none := by
  simp only [left?, hk, Option.bind_some, hstage, Bool.not_true, Bool.false_and]
  rfl

/-! ### Every event keeps the course of a call -/

/-- A call that is somewhere else keeps its course if nothing of it is timed. -/
theorem course_of_untracked {k' : Call} (hid : k'.id = k.id)
    (hhanded : ∀ x ∈ handed, x.call = k.id → x.route = .direct)
    (hended : ∀ e ∈ ended, e.call ≠ k.id) (hleft : k.id ∉ left)
    (hframes : ∀ f ∈ k'.frames, f.isTracked = false) : Course handed ended left k' :=
  .apart (hid ▸ hhanded) (hid ▸ hended) (hid ▸ hleft) hframes

/-- An outcome goes through a frame that hands it on. -/
theorem pass_of_handsOn {f : Frame} (hf : f.handsOn = true) (h : Host) (token : Token)
    (rest : List Frame) (result : Outcome Json) :
    (h.pass token f rest result).frames = rest ∧
      (h.pass token f rest result).stage = .over result := by
  cases f with
  | race _ => exact ⟨rfl, rfl⟩
  | _ => cases hf

/-- An outcome goes through a frame. -/
theorem course_pass {k' : Call} {f : Frame} {rest : List Frame} {result : Outcome Json}
    (hover : k.stage = .over result) (hbefore : k.frames = f :: rest)
    (hk : h.call? k.id = some k) (hcourse : Course handed ended left k) (hid : k'.id = k.id)
    (hframes : k'.frames = (h.pass k.token f rest result).frames)
    (hstage : k'.stage = (h.pass k.token f rest result).stage) :
    Course handed (ended ++ (h.ended? (.resume k.id)).toList) left k' := by
  have hend := ended?_of_over hk hover hbefore
  have hnoend : f.isTracked = false → ended ++ (h.ended? (.resume k.id)).toList = ended := by
    intro hf
    rw [hend]
    cases f with
    | tracked => cases hf
    | _ => exact List.append_nil _
  have hhere {P : Frame → Prop} (hall : ∀ f ∈ k.frames, P f) : P f ∧ ∀ f ∈ rest, P f :=
    List.forall_mem_cons.mp (hbefore ▸ hall)
  cases hcourse with
  | apart hdirect hended hleft hnone =>
    obtain ⟨hf, hrest⟩ := hhere hnone
    rw [hnoend hf]
    refine course_of_untracked hid hdirect hended hleft ?_
    rw [hframes]
    cases leads_pass hf h k.token rest result with
    | goes inner hquiet hturn hinner =>
      rw [hturn]
      exact List.forall_mem_append.mpr ⟨hinner, hrest⟩
  | @underway x name since outer hx hcall hname hended hleft hnow houter hnamed hwait =>
    obtain ⟨rfl, rfl⟩ := List.cons.inj (hbefore.symm.trans hnow)
    rw [hend]
    refine .ended hx (hid ▸ hcall) hname (List.mem_append_right _ ?_) (hid ▸ hleft) hstage ?_
    · rw [hid]
      exact List.mem_singleton_self _
    · rw [hframes]
      exact houter
  | ended hx hcall hname hended hleft hresult hon =>
    obtain ⟨hf, hrest⟩ := hhere hon
    obtain ⟨hturn, hout⟩ := pass_of_handsOn hf h k.token rest result
    obtain rfl : _ = result := Stage.over.inj (hresult.symm.trans hover)
    rw [hnoend (isTracked_of_handsOn hf)]
    exact .ended hx (hid ▸ hcall) hname (hid ▸ hended) (hid ▸ hleft) (hstage.trans hout)
      ((hframes.trans hturn) ▸ hrest)
  | gone hx hcall hroute hended hleft hresult hon =>
    obtain ⟨hf, hrest⟩ := hhere hon
    obtain ⟨hturn, hout⟩ := pass_of_handsOn hf h k.token rest result
    obtain rfl : _ = result := Stage.over.inj (hresult.symm.trans hover)
    rw [hnoend (isTracked_of_handsOn hf)]
    exact .gone hx (hid ▸ hcall) hroute (hid ▸ hended) (hid ▸ hleft) (hstage.trans hout)
      ((hframes.trans hturn) ▸ hrest)

/-- A race is over. -/
theorem course_cut {k' : Call} {outer : List Frame} (hnot : k.stage.isOver = false)
    (hcut : cutRace h.hasFired k.frames = some outer) (hk : h.call? k.id = some k)
    (hcourse : Course handed ended left k) (hid : k'.id = k.id) (hframes : k'.frames = outer)
    (hstage : k'.stage = .over (.error .operationCancelled)) :
    Course handed ended (left ++ (h.left? (.resume k.id)).toList) k' := by
  have hleave : h.left? (.resume k.id) =
      if k.frames.any Frame.isTracked = true then some k.id else none := by
    simp only [left?, hk, Option.bind_some, hnot, hcut, Option.isSome_some, Bool.not_false,
      Bool.true_and]
  obtain ⟨inner, token, hbefore⟩ := eq_append_of_cutRace hcut
  cases hcourse with
  | apart hdirect hended hleft hnone =>
    have hany : k.frames.any Frame.isTracked = false :=
      List.any_eq_false.mpr fun f hf => by simp [hnone f hf]
    rw [hleave, hany]
    refine course_of_untracked hid hdirect hended (by simpa using hleft) ?_
    rw [hframes]
    intro f hf
    refine hnone f ?_
    rw [hbefore]
    exact List.mem_append_right _ (List.mem_cons_of_mem _ hf)
  | @underway x name since around hx hcall hname hended hleft hnow haround hnamed hwait =>
    have hany : k.frames.any Frame.isTracked = true := by
      rw [hnow]
      rfl
    obtain ⟨hroute, hafter⟩ := bridged_of_cut hname hnamed (hnow ▸ hcut)
    rw [hleave, if_pos hany]
    refine .gone hx (hid ▸ hcall) hroute (hid ▸ hended) (List.mem_append_right _ ?_) hstage ?_
    · rw [hid]
      exact List.mem_singleton_self _
    · rw [hframes]
      exact fun f hf => haround f (hafter f hf)
  | ended hx hcall hname hended hleft hresult =>
    rw [hresult] at hnot
    cases hnot
  | gone hx hcall hroute hended hleft hresult =>
    rw [hresult] at hnot
    cases hnot

/-- A call comes to an outcome inside of its frames, or of those around a start. -/
theorem course_outcome {k' : Call} {result : Outcome Json} (hnot : k.stage.isOver = false)
    (hcourse : Course handed ended left k) (hid : k'.id = k.id) (hstage : k'.stage = .over result)
    (hframes : k'.frames = k.frames ∨ (∃ f ∈ k.frames, f.handsOn = false ∧ f.isTracked = false) ∧
      ∀ f ∈ k'.frames, f ∈ k.frames) : Course handed ended left k' := by
  cases hcourse with
  | apart hdirect hended hleft hnone =>
    refine course_of_untracked hid hdirect hended hleft fun f hf => ?_
    rcases hframes with hsame | ⟨-, hsub⟩
    · exact hnone f (hsame ▸ hf)
    · exact hnone f (hsub f hf)
  | underway hx hcall hname hended hleft hnow houter hnamed hwait =>
    rcases hframes with hsame | ⟨⟨f, hf, hon, htracked⟩, -⟩
    · exact .underway hx (hid ▸ hcall) hname (hid ▸ hended) (hid ▸ hleft) (hsame.trans hnow)
        houter hnamed (by rw [hstage]; rfl)
    · rw [hnow] at hf
      rcases List.mem_cons.mp hf with rfl | hf
      · cases htracked
      · rw [houter f hf] at hon
        cases hon
  | ended hx hcall hname hended hleft hresult =>
    rw [hresult] at hnot
    cases hnot
  | gone hx hcall hroute hended hleft hresult =>
    rw [hresult] at hnot
    cases hnot

/-- While an application function has not come back, nothing of its call is timed. -/
theorem Course.of_called (hcourse : Course handed ended left k) (hcalled : k.stage.isCalled = true) :
    (∀ x ∈ handed, x.call = k.id → x.route = .direct) ∧ (∀ e ∈ ended, e.call ≠ k.id) ∧
      k.id ∉ left ∧ ∀ f ∈ k.frames, f.isTracked = false := by
  cases hcourse with
  | apart hdirect hended hleft hnone => exact ⟨hdirect, hended, hleft, hnone⟩
  | underway hx hcall hname hended hleft hnow houter hnamed hback =>
    cases hback.symm.trans hcalled
  | ended hx hcall hname hended hleft hresult =>
    rw [hresult] at hcalled
    cases hcalled
  | gone hx hcall hroute hended hleft hresult =>
    rw [hresult] at hcalled
    cases hcalled

theorem timed?_of_off (hoff : h.profiler.enabled = false) (event : HostEvent) :
    h.timed? event = none := by
  rw [timed?, hoff]
  rfl

theorem timed?_of_on (hon : h.profiler.enabled = true) (event : HostEvent) :
    h.timed? event = h.handed? event := if_pos hon

/-- What is timed is handed on. -/
theorem handed?_of_timed? (hx : h.timed? event = some x) : h.handed? event = some x := by
  unfold timed? at hx
  split at hx
  · exact hx
  · cases hx

theorem timed?_of_not_handed (hx : h.handed? event = none) : h.timed? event = none := by
  rw [timed?, hx, ite_self]

/-- The report of a stage hands nothing on, records nothing and leaves nothing. -/
theorem logs_of_reported (h : Host) (hreport : event.reported? = some c) :
    h.handed? event = none ∧ h.ended? event = none ∧ h.left? event = none := by
  cases event <;> first | exact ⟨rfl, rfl, rfl⟩ | cases hreport

/-- Whatever an event does to a call, the call keeps its course. -/
theorem Turns.course {k' : Call} (ht : h.Turns k event t) (hk : h.call? k.id = some k)
    (hcourse : Course handed ended left k) (hid : k'.id = k.id) (hframes : k'.frames = t.frames)
    (hstage : k'.stage = t.stage) :
    Course (handed ++ (h.timed? event).toList) (ended ++ (h.ended? event).toList)
      (left ++ (h.left? event).toList) k' := by
  cases ht with
  | @pass f rest result hover hbefore =>
    have hleft : h.left? (.resume k.id) = none := left?_of_over hk (by rw [hover]; rfl)
    have hhanded : h.timed? (.resume k.id) = none := timed?_of_not_handed rfl
    rw [hleft, hhanded]
    simpa only [Option.toList_none, List.append_nil] using
      course_pass hover hbefore hk hcourse hid hframes hstage
  | @cut outer hnot hcut =>
    have hended : h.ended? (.resume k.id) = none := ended?_of_not_over hk hnot
    have hhanded : h.timed? (.resume k.id) = none := timed?_of_not_handed rfl
    rw [hended, hhanded]
    simpa only [Option.toList_none, List.append_nil] using
      course_cut hnot hcut hk hcourse hid hframes hstage
  | @timeOut limit outer hnot hcut =>
    obtain ⟨inner, name, limit?, entries, rest, hbefore, houter⟩ := eq_append_of_cutStart hcut
    have hstart : ∃ f ∈ k.frames, f.handsOn = false ∧ f.isTracked = false := by
      refine ⟨.starting name limit? entries, ?_, rfl, rfl⟩
      rw [hbefore, houter]
      exact List.mem_append_right _ List.mem_cons_self
    have hsub : ∀ f ∈ k'.frames, f ∈ k.frames := by
      rw [hframes, hbefore]
      exact fun f hf => List.mem_append_right _ hf
    have hhanded : h.timed? (.timeOut k.id) = none := timed?_of_not_handed rfl
    rw [hhanded]
    simpa only [ended?, left?, Option.toList_none, List.append_nil] using
      course_outcome hnot hcourse hid hstage (.inr ⟨hstart, hsub⟩)
  | @ends _ mid result hevent hnot =>
    have hlogs : h.handed? event = none ∧ h.ended? event = none ∧ h.left? event = none := by
      rcases hevent with ⟨rfl, hcut⟩ | hreport
      · refine ⟨rfl, ended?_of_not_over hk hnot, ?_⟩
        simp only [left?, hk, Option.bind_some, hcut, Option.isSome_none, Bool.and_false,
          Bool.false_and]
        rfl
      · exact logs_of_reported h hreport
    obtain ⟨hhanded, hended, hleft⟩ := hlogs
    rw [timed?_of_not_handed hhanded, hended, hleft]
    simpa only [Option.toList_none, List.append_nil] using
      course_outcome hnot hcourse hid hstage (.inl hframes)
  | @begins f token args hcalled =>
    obtain ⟨hdirect, hended, hleft, hnone⟩ := hcourse.of_called (by rw [hcalled]; rfl)
    have hhanded : h.timed? (.returned k.id) = none := timed?_of_not_handed rfl
    rw [hhanded]
    simp only [ended?, left?, Option.toList_none, List.append_nil]
    refine course_of_untracked hid hdirect hended hleft ?_
    rw [hframes]
    exact List.forall_mem_cons.mpr ⟨rfl, hnone⟩

/-! ### What an event adds -/

theorem Turns.eq_id (ht : h.Turns k (.resume c) t) : c = k.id := by
  cases ht with
  | pass => rfl
  | cut => rfl
  | ends hevent =>
    rcases hevent with ⟨hid, -⟩ | hreport
    · exact HostEvent.resume.inj hid
    · cases hreport

/-- What comes to its end is the task of the call. -/
theorem Turns.of_ended (ht : h.Turns k event t) (hk : h.call? k.id = some k)
    (he : h.ended? event = some e) :
    e.call = k.id ∧ ∃ since rest, k.frames = .tracked e.runtime e.function since :: rest := by
  cases event with
  | resume c =>
    obtain rfl := ht.eq_id
    simp only [ended?, hk, Option.bind_some] at he
    split at he
    · next result runtime function since rest hstage hframes =>
      cases he
      exact ⟨rfl, since, rest, hframes⟩
    · cases he
  | _ => cases he

/-- What is left is the task of the call, which is under way. -/
theorem Turns.of_left (ht : h.Turns k event t) (hk : h.call? k.id = some k)
    (hc : h.left? event = some c) :
    c = k.id ∧ k.stage.isOver = false ∧ (∃ outer, cutRace h.hasFired k.frames = some outer) ∧
      ∃ f ∈ k.frames, f.isTracked = true := by
  cases event with
  | resume c =>
    obtain rfl := ht.eq_id
    simp only [left?, hk, Option.bind_some] at hc
    split at hc
    · next hall =>
      cases hc
      simp only [Bool.and_eq_true, Bool.not_eq_true', List.any_eq_true] at hall
      obtain ⟨⟨hnot, hcut⟩, htracked⟩ := hall
      exact ⟨rfl, hnot, Option.isSome_iff_exists.mp hcut, htracked⟩
    · cases hc
  | _ => cases hc

/-- A call that gets somewhere hands nothing on. -/
theorem Turns.not_handed (ht : h.Turns k event t) : h.handed? event = none := by
  cases ht with
  | ends hevent =>
    rcases hevent with ⟨rfl, -⟩ | hreport
    · rfl
    · exact (logs_of_reported h hreport).1
  | _ => rfl

/-- What comes to its end was handed on, and is recorded once. -/
theorem Course.of_ended (hcourse : Course handed ended left k) {since : Nat} {rest : List Frame}
    (hcall : e.call = k.id) (hframes : k.frames = .tracked e.runtime e.function since :: rest) :
    (∀ e' ∈ ended, e'.call ≠ e.call) ∧ ∃ x ∈ handed, x.call = e.call ∧
      x.route.name? = some e.runtime ∧ x.task.function = e.function := by
  have htracked : Frame.tracked e.runtime e.function since ∈ k.frames := by
    rw [hframes]
    exact List.mem_cons_self
  rw [hcall]
  cases hcourse with
  | apart hdirect hended hleft hnone => cases hnone _ htracked
  | underway hx hxcall hname hended hleft hnow =>
    obtain ⟨hhead, -⟩ := List.cons.inj (hframes.symm.trans hnow)
    obtain ⟨hruntime, hfunction, -⟩ := Frame.tracked.inj hhead
    exact ⟨hended, _, hx, hxcall, hruntime ▸ hname, hfunction.symm⟩
  | ended hx hxcall hname hended hleft hresult hon => cases hon _ htracked
  | gone hx hxcall hroute hended hleft hresult hon => cases hon _ htracked

/-- What is left came through the bridge. -/
theorem Course.of_left (hcourse : Course handed ended left k) (hnot : k.stage.isOver = false)
    (hcut : cutRace h.hasFired k.frames = some outer)
    (htracked : ∃ f ∈ k.frames, f.isTracked = true) :
    ∃ x ∈ handed, x.call = k.id ∧ ∃ name, x.route = .bridged name := by
  cases hcourse with
  | apart hdirect hended hleft hnone =>
    obtain ⟨f, hf, htracked⟩ := htracked
    rw [hnone f hf] at htracked
    cases htracked
  | underway hx hcall hname hended hleft hnow houter hnamed =>
    exact ⟨_, hx, hcall, _, (bridged_of_cut hname hnamed (hnow ▸ hcut)).1⟩
  | ended hx hcall hname hended hleft hresult =>
    rw [hresult] at hnot
    cases hnot
  | gone hx hcall hroute hended hleft hresult =>
    rw [hresult] at hnot
    cases hnot

/-- The profiler takes note of what comes to its end, and of nothing else. -/
theorem Turns.profiler_eq (ht : h.Turns k event t) (hk : h.call? k.id = some k) :
    (h.ended? event = none → t.host.profiler = h.profiler) ∧
      ∀ e, h.ended? event = some e →
        ∃ d, t.host.profiler = h.profiler.record e.runtime e.function d (failed e.result) := by
  have hkept : h.ended? event = none → t.host.profiler = h.profiler →
      (h.ended? event = none → t.host.profiler = h.profiler) ∧
        ∀ e, h.ended? event = some e →
          ∃ d, t.host.profiler = h.profiler.record e.runtime e.function d (failed e.result) := by
    intro hnone hsame
    refine ⟨fun _ => hsame, fun e he => ?_⟩
    rw [hnone] at he
    cases he
  cases ht with
  | @pass f rest result hover hbefore =>
    have hend := ended?_of_over hk hover hbefore
    cases hf : f.isTracked with
    | true =>
      cases f with
      | tracked runtime function since =>
        refine ⟨fun hnone => ?_, fun e he => ?_⟩
        · rw [hend] at hnone
          cases hnone
        · rw [hend] at he
          cases he
          exact ⟨_, rfl⟩
      | _ => cases hf
    | false =>
      refine hkept ?_ (leads_pass hf h k.token rest result).settings_eq.1
      rw [hend]
      cases f with
      | tracked => cases hf
      | _ => rfl
  | cut hnot => exact hkept (ended?_of_not_over hk hnot) (quiet_leave h _).profiler_eq
  | timeOut => exact hkept rfl (quiet_leave h _).profiler_eq
  | ends hevent hnot hquiet =>
    refine hkept ?_ hquiet.profiler_eq
    rcases hevent with ⟨rfl, -⟩ | hreport
    · exact ended?_of_not_over hk hnot
    · exact (logs_of_reported h hreport).2.1
  | begins => exact hkept rfl rfl

/-- Where a call is after an event, and where the others are. -/
theorem mem_settle {j : Call} (hj : j ∈ (settle t k).calls) :
    (j.id = k.id ∧ j.frames = t.frames ∧ j.stage = t.stage) ∨ (j ∈ t.host.calls ∧ j.id ≠ k.id) := by
  obtain ⟨i, hi, rfl⟩ := List.mem_map.mp hj
  by_cases hid : i.id = k.id
  · rw [if_pos hid]
    exact .inl ⟨rfl, rfl, rfl⟩
  · rw [if_neg hid]
    exact .inr ⟨hi, hid⟩

/-! ### Every event keeps all calls on course -/

/-- All calls are on course, told by what was handed on, what of it was timed, what has ended and
what was left. -/
structure Timed (h : Host) (handed timed : List Handing) (ended : List Completion)
    (left : List CallId) : Prop where
  ids_nodup : (h.calls.map Call.id).Nodup
  ids_lt : ∀ k ∈ h.calls, k.id < h.asked
  handed_lt : ∀ x ∈ handed, x.call < h.asked
  handed_nodup : (handed.map Handing.call).Nodup
  timed_sublist : timed.Sublist handed
  ended_nodup : (ended.map Completion.call).Nodup
  ended_timed : ∀ e ∈ ended, ∃ x ∈ timed, x.call = e.call ∧ x.route.name? = some e.runtime ∧
    x.task.function = e.function
  left_timed : ∀ c ∈ left, ∃ x ∈ timed, x.call = c ∧ ∃ name, x.route = .bridged name
  courses : ∀ k ∈ h.calls, Course timed ended left k

/-- What is timed is among what is handed on. -/
theorem sublist_timed? {timed : List Handing} (hsub : timed.Sublist handed) (event : HostEvent) :
    (timed ++ (h.timed? event).toList).Sublist (handed ++ (h.handed? event).toList) := by
  refine hsub.append ?_
  cases hx : h.timed? event with
  | none => exact List.nil_sublist _
  | some x => rw [handed?_of_timed? hx]

variable {timed : List Handing}

/-- A call gets somewhere. -/
theorem Timed.turn {drops : Bool} (hr : h.Timed handed timed ended left)
    (hk : h.call? k.id = some k) (ht : h.Turns k event t) (hmoves : h.Moves k.stage t drops) :
    (settle t k).Timed (handed ++ (h.handed? event).toList) (timed ++ (h.timed? event).toList)
      (ended ++ (h.ended? event).toList) (left ++ (h.left? event).toList) := by
  obtain ⟨hmem, -⟩ := mem_of_call? hk
  have hcourse : Course timed ended left k := hr.courses k hmem
  have hids : (settle t k).calls.map Call.id = h.calls.map Call.id := by
    rw [ids_settle, hmoves.calls_eq]
  have hasked : (settle t k).asked = h.asked := hmoves.asked_eq
  have hhanded : h.handed? event = none := ht.not_handed
  have htimed : h.timed? event = none := timed?_of_not_handed hhanded
  have hended : ∀ e, h.ended? event = some e → e.call = k.id ∧ (∀ e' ∈ ended, e'.call ≠ e.call) ∧
      ∃ x ∈ timed, x.call = e.call ∧ x.route.name? = some e.runtime ∧
        x.task.function = e.function := by
    intro e he
    obtain ⟨hcall, since, rest, hframes⟩ := ht.of_ended hk he
    exact ⟨hcall, hcourse.of_ended hcall hframes⟩
  have hleft : ∀ c, h.left? event = some c → c = k.id ∧
      ∃ x ∈ timed, x.call = c ∧ ∃ name, x.route = .bridged name := by
    intro c hc
    obtain ⟨rfl, hnot, ⟨outer, hcut⟩, htracked⟩ := ht.of_left hk hc
    exact ⟨rfl, hcourse.of_left hnot hcut htracked⟩
  have hcourse' : ∀ k' : Call, k'.id = k.id → k'.frames = t.frames → k'.stage = t.stage →
      Course timed (ended ++ (h.ended? event).toList) (left ++ (h.left? event).toList) k' := by
    intro k' hid hframes hstage
    have hnext := ht.course hk hcourse hid hframes hstage
    rwa [htimed, Option.toList_none, List.append_nil] at hnext
  rw [hhanded, htimed, Option.toList_none, List.append_nil, List.append_nil]
  refine ⟨hids ▸ hr.ids_nodup, fun j hj => ?_, hasked ▸ hr.handed_lt, hr.handed_nodup,
    hr.timed_sublist, ?_, fun e he => ?_, fun c hc => ?_, fun j hj => ?_⟩
  · have hid : j.id ∈ h.calls.map Call.id := hids ▸ List.mem_map_of_mem hj
    obtain ⟨i, hi, hij⟩ := List.mem_map.mp hid
    rw [hasked, ← hij]
    exact hr.ids_lt i hi
  · exact nodup_append_toList hr.ended_nodup fun e he => (hended e he).2.1
  · rcases List.mem_append.mp he with he | he
    · exact hr.ended_timed e he
    · exact (hended e (Option.mem_toList.mp he)).2.2
  · rcases List.mem_append.mp hc with hc | hc
    · exact hr.left_timed c hc
    · exact (hleft c (Option.mem_toList.mp hc)).2
  · rcases mem_settle hj with ⟨hid, hframes, hstage⟩ | ⟨hj, hother⟩
    · exact hcourse' j hid hframes hstage
    · refine (hr.courses j (hmoves.calls_eq ▸ hj)).congr (fun _ _ => Iff.rfl) (fun e he => ?_) ?_
      · exact mem_append_toList (fun e' he' => (hended e' he').1) (he ▸ hother)
      · exact mem_append_toList (f := id) (fun c hc => (hleft c hc).1) hother

/-- A request comes. -/
theorem Timed.ask (hr : h.Timed handed timed ended left) (request : Request) (token : Token) :
    (h.ask request token).Timed (handed ++ (h.handed? (.ask request token)).toList)
      (timed ++ (h.timed? (.ask request token)).toList) ended left := by
  let later : Host := { h with asked := h.asked + 1 }
  let turn : Turn := later.begin request token
  let call : Call := ⟨h.asked, token, turn.frames, turn.stage, turn.host.now⟩
  have hmoves : later.Reaches turn := reaches_begin later request token
  have hcalls : (h.ask request token).calls = call :: h.calls :=
    congrArg (call :: ·) hmoves.calls_eq
  have hasked : (h.ask request token).asked = h.asked + 1 := hmoves.asked_eq
  have hleads : later.Leads [] (h.handed? (.ask request token)) turn :=
    leads_begin later h.asked request token
  have hcall : ∀ x, h.handed? (.ask request token) = some x → x.call = h.asked :=
    fun x hx => call_of_requestHands? hx
  -- No entry of a log is about the new call yet.
  have hnew : ∀ x ∈ handed, x.call ≠ h.asked := fun x hx => Nat.ne_of_lt (hr.handed_lt x hx)
  have huntimed : ∀ x ∈ timed, x.call ≠ h.asked := fun x hx => hnew x (hr.timed_sublist.subset hx)
  have hnoend : ∀ e ∈ ended, e.call ≠ h.asked := by
    intro e he
    obtain ⟨x, hx, hxe, -⟩ := hr.ended_timed e he
    exact hxe ▸ huntimed x hx
  have hnoleft : h.asked ∉ left := by
    intro hc
    obtain ⟨x, hx, hxc, -⟩ := hr.left_timed _ hc
    exact huntimed x hx hxc
  refine ⟨?_, ?_, fun x hx => ?_, ?_, sublist_timed? hr.timed_sublist _, hr.ended_nodup,
    fun e he => ?_, fun c hc => ?_, ?_⟩
  · rw [hcalls, List.map_cons]
    refine List.nodup_cons.mpr ⟨fun hmem => ?_, hr.ids_nodup⟩
    obtain ⟨k, hk, hid⟩ := List.mem_map.mp hmem
    exact Nat.ne_of_lt (hr.ids_lt k hk) hid
  · rw [hcalls, hasked]
    exact List.forall_mem_cons.mpr
      ⟨Nat.lt_succ_self _, fun k hk => Nat.lt_succ_of_lt (hr.ids_lt k hk)⟩
  · rw [hasked]
    rcases List.mem_append.mp hx with hx | hx
    · exact Nat.lt_succ_of_lt (hr.handed_lt x hx)
    · rw [hcall x (Option.mem_toList.mp hx)]
      exact Nat.lt_succ_self _
  · refine nodup_append_toList hr.handed_nodup fun x hx y hy => ?_
    rw [hcall x hx]
    exact hnew y hy
  · obtain ⟨x, hx, hrest⟩ := hr.ended_timed e he
    exact ⟨x, List.mem_append_left _ hx, hrest⟩
  · obtain ⟨x, hx, hrest⟩ := hr.left_timed c hc
    exact ⟨x, List.mem_append_left _ hx, hrest⟩
  · rw [hcalls]
    refine List.forall_mem_cons.mpr ⟨?_, fun k hk => ?_⟩
    · cases henabled : h.profiler.enabled with
      | false =>
        rw [timed?_of_off henabled, Option.toList_none, List.append_nil]
        exact .apart (fun x hx hid => absurd hid (huntimed x hx)) hnoend hnoleft
          (untracked_begin_of_off (h := later) henabled request token)
      | true =>
        rw [timed?_of_on henabled]
        exact hleads.course henabled hcall huntimed hnoend hnoleft rfl rfl
    · refine (hr.courses k hk).congr (fun x hx => ?_) (fun _ _ => Iff.rfl) Iff.rfl
      exact mem_append_toList (fun y hy => hcall y (handed?_of_timed? hy))
        (hx ▸ Nat.ne_of_lt (hr.ids_lt k hk))

/-- The calls that are left are among those that were there, and nothing else changes. -/
theorem Timed.mono (hr : h.Timed handed timed ended left) (hcalls : h'.calls.Sublist h.calls)
    (hasked : h'.asked = h.asked) : h'.Timed handed timed ended left where
  ids_nodup := hr.ids_nodup.sublist (hcalls.map _)
  ids_lt k hk := hasked ▸ hr.ids_lt k (hcalls.subset hk)
  handed_lt x hx := hasked ▸ hr.handed_lt x hx
  handed_nodup := hr.handed_nodup
  timed_sublist := hr.timed_sublist
  ended_nodup := hr.ended_nodup
  ended_timed := hr.ended_timed
  left_timed := hr.left_timed
  courses k hk := hr.courses k (hcalls.subset hk)

/-- Every event keeps all calls on course. -/
theorem Timed.step (hr : h.Timed handed timed ended left) (hs : h.step event = some h') :
    h'.Timed (handed ++ (h.handed? event).toList) (timed ++ (h.timed? event).toList)
      (ended ++ (h.ended? event).toList) (left ++ (h.left? event).toList) := by
  cases steps_of_step hs with
  | ask request token =>
    simpa only [ended?, left?, Option.toList_none, List.append_nil] using hr.ask request token
  | turn hk ht hmoves => exact hr.turn hk ht hmoves
  | @drop _ k hevent hk =>
    have hleave := becomes_leave h k.stage
    have hcalls : (h.drop k).calls.Sublist h.calls := by
      rw [Host.drop, ← hleave.calls_eq]
      exact List.filter_sublist
    have hlogs : h.handed? event = none ∧ h.ended? event = none ∧ h.left? event = none := by
      rcases hevent with rfl | rfl <;> exact ⟨rfl, rfl, rfl⟩
    obtain ⟨hhanded, hended, hleft⟩ := hlogs
    rw [timed?_of_not_handed hhanded, hhanded, hended, hleft]
    simpa only [Option.toList_none, List.append_nil] using hr.mono hcalls hleave.asked_eq
  | aside hevent hcalls hasked htasks hprofiler hprofile =>
    have hlogs : h.handed? event = none ∧ h.ended? event = none ∧ h.left? event = none := by
      cases event <;> first | exact ⟨rfl, rfl, rfl⟩ | cases hevent
    obtain ⟨hhanded, hended, hleft⟩ := hlogs
    rw [timed?_of_not_handed hhanded, hhanded, hended, hleft]
    simpa only [Option.toList_none, List.append_nil] using
      hr.mono (hcalls ▸ List.Sublist.refl _) hasked

/-- A new host has no calls. -/
theorem timed_new {config : HostConfig} (hnew : new config = .ok h) : h.Timed [] [] [] [] := by
  obtain rfl := eq_of_new hnew
  exact ⟨.nil, nofun, nofun, .nil, .slnil, .nil, nofun, nofun, nofun⟩

/-- Every run of a new host keeps all calls on course. -/
theorem timed_run {config : HostConfig} {h₀ : Host} (hnew : new config = .ok h₀)
    (hr : h₀.run es = some h) :
    h.Timed (h₀.handings es) (h₀.timings es) (h₀.endings es) (h₀.leavings es) := by
  refine plays.history (motive := fun es h =>
    h.Timed (h₀.handings es) (h₀.timings es) (h₀.endings es) (h₀.leavings es))
    (timed_new hnew) ?_ hr
  intro es mid event next hrun ih hs
  have hnext := ih.step hs
  rw [handings, timings, endings, leavings, plays.logged_concat hrun, plays.logged_concat hrun,
    plays.logged_concat hrun, plays.logged_concat hrun]
  exact hnext

/-! ### Calls that have an answer -/

theorem of_answer? {result : Outcome Json} (h' : h.answer? c = some result) :
    ∃ k ∈ h.calls, k.id = c ∧ k.frames = [] ∧ k.stage = .over result := by
  unfold answer? at h'
  split at h'
  · next id token r since hk =>
    cases h'
    obtain ⟨hmem, hid⟩ := mem_of_call? hk
    exact ⟨_, hmem, hid, rfl, rfl⟩
  · cases h'


/-- A task that was timed under a name and has been answered was recorded with its answer, or it was
left. -/
theorem Timed.answered (hr : h.Timed handed timed ended left) {name : String}
    {result : Outcome Json} (hx : x ∈ timed) (hname : x.route.name? = some name)
    (hanswer : h.answer? x.call = some result) :
    (⟨x.call, name, x.task.function, result⟩ ∈ ended ∧ x.call ∉ left) ∨
      (x.route = .bridged name ∧ x.call ∈ left ∧ result = .error .operationCancelled ∧
        ∀ e ∈ ended, e.call ≠ x.call) := by
  obtain ⟨k, hk, hid, hframes, hstage⟩ := of_answer? hanswer
  have hnodup : (timed.map Handing.call).Nodup := hr.handed_nodup.sublist (hr.timed_sublist.map _)
  have honly : ∀ y ∈ timed, y.call = k.id → y = x := fun y hy hcall =>
    List.inj_on_of_nodup_map hnodup hy hx (hcall.trans hid)
  cases hr.courses k hk with
  | apart hdirect =>
    rw [hdirect x hx hid.symm] at hname
    cases hname
  | underway hy hcall hyname hended hleft hnow =>
    rw [hframes] at hnow
    cases hnow
  | ended hy hcall hyname hended hleft hresult =>
    obtain rfl := honly _ hy hcall
    obtain rfl := Option.some.inj (hyname.symm.trans hname)
    obtain rfl := Stage.over.inj (hresult.symm.trans hstage)
    rw [← hid] at hcall ⊢
    exact .inl ⟨hended, hleft⟩
  | gone hy hcall hroute hended hleft hresult =>
    obtain rfl := honly _ hy hcall
    rw [hroute] at hname
    obtain rfl := Option.some.inj hname
    obtain rfl := Stage.over.inj (hresult.symm.trans hstage)
    rw [← hid]
    exact .inr ⟨hroute, hleft, rfl, hended⟩
/-- What was handed on while the profiler was off is not timed. -/
theorem Timed.not_timed_of_off {h₀ mid : Host} {before after : List HostEvent}
    (hr : h.Timed (h₀.handings (before ++ event :: after)) timed ended left)
    (hmid : h₀.run before = some mid) (hx : mid.handed? event = some x)
    (hoff : mid.profiler.enabled = false) : x ∉ h₀.timings (before ++ event :: after) := by
  -- Both logs come from one in which every task stands with the state of the profiler.
  let line? (h : Host) (event : HostEvent) : Option (Handing × Bool) :=
    (h.handed? event).map fun x => (x, h.profiler.enabled)
  let log : List (Handing × Bool) := logged Host.step line? h₀ (before ++ event :: after)
  have hhandings : h₀.handings (before ++ event :: after) = log.filterMap fun y => some y.1 := by
    rw [← logged_bind]
    refine congrArg (fun l => logged Host.step l h₀ _) (funext fun h => funext fun event => ?_)
    simp only [line?]
    cases h.handed? event <;> rfl
  have htimings : h₀.timings (before ++ event :: after) =
      log.filterMap fun y => if y.2 then some y.1 else none := by
    rw [← logged_bind]
    refine congrArg (fun l => logged Host.step l h₀ _) (funext fun h => funext fun event => ?_)
    simp only [line?, timed?]
    cases h.handed? event with
    | none => exact ite_self _
    | some x => rfl
  have hoffline : (x, false) ∈ log := by
    refine plays.mem_logged hmid ?_
    simp only [line?, hx, hoff, Option.map_some]
  intro htimed
  rw [htimings] at htimed
  obtain ⟨⟨y, on⟩, hy, hline⟩ := List.mem_filterMap.mp htimed
  cases on with
  | false => cases hline
  | true =>
    obtain rfl : y = x := Option.some.inj hline
    have hnodup := hr.handed_nodup
    rw [hhandings, List.filterMap_eq_map', List.map_map] at hnodup
    have hsame := List.inj_on_of_nodup_map hnodup hy hoffline rfl
    cases hsame

/-- Nothing is recorded of a call for which something was handed on while the profiler was off. -/
theorem Timed.not_ended_of_untimed (hr : h.Timed handed timed ended left) (hx : x ∈ handed)
    (hnot : x ∉ timed) : ∀ e ∈ ended, e.call ≠ x.call := by
  intro e he hcall
  obtain ⟨y, hy, hycall, -⟩ := hr.ended_timed e he
  have hsame : y = x :=
    List.inj_on_of_nodup_map hr.handed_nodup (hr.timed_sublist.subset hy) hx (hycall.trans hcall)
  exact hnot (hsame ▸ hy)

end Host

end LanguageHost
