import LanguageHost.Proofs.Host.Replies
import LanguageHost.Proofs.Host.Works

/-!
# Calls of application functions

Nothing is known of an application function, so what can be said of a call of one is where it stands
and what has happened for that.  The function is first called.  When it comes back, the token of the
caller is raced from then on, and the work begins only if that token has not fired.  The call ends
with what the work comes to, or is left because the token has fired, or is gone because the caller
went away or the function has panicked.

This is an invariant of all events (`Host.FunctionCourse`), as the function stands in the stage of
the call: `Host.functionCourse_of_run`.  In particular no work begins for a call whose token had
fired when it was made (`Host.spared_of_run`).
-/

namespace LanguageHost

namespace Host

variable {first h h' g mid : Host} {event : HostEvent} {es later : List HostEvent} {t : Turn}
variable {c : CallId} {k : Call} {f : FunctionId} {token inner : Token} {args : List Json}
variable {result : Outcome Json}

/-! ### Where a call stands -/

/-- The work of a function began in a run: the function came back when the token of its caller had
not fired. -/
def Began (first : Host) (c : CallId) (token : Token) (later : List HostEvent) : Prop :=
  ∃ before after mid, later = before ++ .returned c :: after ∧ first.run before = some mid ∧
    mid.hasFired token = false

/-- How a call of an application function has come along in a host that came about by `later` from
the one in which it was made. -/
inductive FunctionCourse (first : Host) (c : CallId) (f : FunctionId) (token inner : Token)
    (args : List Json) (later : List HostEvent) (g : Host) : Prop where
  /-- The function has been called and has not come back. -/
  | called (since : Nat) (hk : g.call? c = some ⟨c, token, [], .called f inner args, since⟩)
      (hnot : .returned c ∉ later)
  | atWork (since : Nat)
      (hk : g.call? c = some ⟨c, token, [.race token], .inside f inner args, since⟩)
      (hbegan : first.Began c token later)
  /-- The work has come to its end, and the call returns that. -/
  | ended (result : Outcome Json) (frames : List Frame) (since : Nat)
      (hk : g.call? c = some ⟨c, token, frames, .over result, since⟩)
      (hframes : frames = [] ∨ frames = [.race token]) (hbegan : first.Began c token later)
      (hend : .finished c result ∈ later)
  | cancelled (since : Nat)
      (hk : g.call? c = some ⟨c, token, [], .over (.error .operationCancelled), since⟩)
      (hfired : g.hasFired token = true)
  | gone (hgone : g.call? c = none) (hleft : .drop c ∈ later ∨ .panicked c ∈ later)

theorem Began.concat (hb : first.Began c token later) (event : HostEvent) :
    first.Began c token (later ++ [event]) := by
  obtain ⟨before, after, mid, rfl, hmid, hfired⟩ := hb
  exact ⟨before, after ++ [event], mid, by simp, hmid, hfired⟩

theorem hasFired_step (hs : h.step event = some h') (hfired : h.hasFired token = true) :
    h'.hasFired token = true := by
  by_contra hnot
  have hbefore := hasFired_of_subset (handles_of_step hs).fired_subset (Bool.not_eq_true _ ▸ hnot)
  cases hbefore.symm.trans hfired

theorem hasFired_run (hr : h.run es = some g) (hfired : h.hasFired token = true) :
    g.hasFired token = true :=
  plays.induction (motive := fun g => g.hasFired token = true) hfired
    (fun _ _ _ _ hmid hs => hasFired_step hs hmid) hr

/-! ### What an event does to such a call -/

/-- A function that is being called gets its caller somewhere only by coming back. -/
theorem turn?_of_called (hstage : k.stage = .called f inner args) (hframes : k.frames = [])
    (hevent : event.call? = some k.id) (ht : h.turn? k event = some t) :
    event = .returned k.id ∧ t = if h.hasFired k.token
      then ⟨h, [], .over (.error .operationCancelled)⟩
      else ⟨h, [.race k.token], .inside f inner args⟩ := by
  cases event with
  | returned d =>
    obtain rfl := Option.some.inj hevent
    obtain ⟨f', inner', args', hstage', rfl⟩ := of_returned ht
    cases hstage.symm.trans hstage'
    rw [hframes]
    exact ⟨rfl, rfl⟩
  | resume d => simp [turn?, resume, hstage, hframes, cutRace, goOn] at ht
  | timeOut d => simp [turn?, timeOut, hstage, hframes, cutStart] at ht
  | acted d result => simp [turn?, acted, hstage] at ht
  | prepared d report => simp [turn?, prepared, hstage] at ht
  | finished d result => simp [turn?, finished, hstage] at ht
  | _ => cases ht

/-- A function at work gets its caller somewhere by its end, or is left once the token has fired. -/
theorem turn?_of_inside (hstage : k.stage = .inside f inner args)
    (hframes : k.frames = [.race k.token]) (hevent : event.call? = some k.id)
    (ht : h.turn? k event = some t) :
    (∃ result, event = .finished k.id result ∧ t = ⟨h, [.race k.token], .over result⟩) ∨
      h.hasFired k.token = true ∧ t = ⟨h, [], .over (.error .operationCancelled)⟩ := by
  cases event with
  | finished d result =>
    obtain rfl := Option.some.inj hevent
    obtain ⟨-, rfl⟩ := of_finished ht
    rw [hframes]
    exact .inl ⟨result, rfl, rfl⟩
  | resume d =>
    refine .inr ?_
    cases hfired : h.hasFired k.token with
    | true =>
      simp only [turn?, resume, hstage, hframes, cutRace, hfired, if_true, leave] at ht
      exact ⟨rfl, (Option.some.inj ht).symm⟩
    | false => simp [turn?, resume, hstage, hframes, cutRace, hfired, goOn] at ht
  | timeOut d => simp [turn?, timeOut, hstage, hframes, cutStart] at ht
  | acted d result => simp [turn?, acted, hstage] at ht
  | prepared d report => simp [turn?, prepared, hstage] at ht
  | returned d => simp [turn?, returned, hstage] at ht
  | _ => cases ht

/-- Where an event gets a call. -/
theorem call?_of_turn (hk : h.call? c = some k) (hevent : event.call? = some c)
    (hs : h.step event = some h') :
    ((event = .drop c ∨ event = .panicked c) ∧ h'.call? c = none) ∨
      ∃ t, h.turn? k event = some t ∧
        h'.call? c = some { k with frames := t.frames, stage := t.stage, since := t.host.now } := by
  rcases turn_of_step hs hevent with hgone | ⟨j, t, hj, rfl, ht, rfl, hcalls⟩
  · exact .inl hgone
  · obtain rfl : k = j := Option.some.inj (hk.symm.trans hj)
    exact .inr ⟨t, ht, call?_settle hk hcalls⟩

/-- A call that is gone does not come back. -/
theorem gone_step (hgone : h.call? c = none) (hlt : c < h.asked) (hs : h.step event = some h') :
    h'.call? c = none := by
  by_cases hevent : event.call? = some c
  · rcases turn_of_step hs hevent with ⟨-, hnone⟩ | ⟨k, t, hk, -⟩
    · exact hnone
    · cases hgone.symm.trans hk
  · exact (call?_step_of_ne hs hlt hevent).trans hgone

theorem gone_run (hgone : h.call? c = none) (hlt : c < h.asked) (hr : h.run es = some g) :
    g.call? c = none := by
  have hall : c < g.asked ∧ g.call? c = none :=
    plays.induction (motive := fun g => c < g.asked ∧ g.call? c = none) ⟨hlt, hgone⟩
      (fun _ _ _ _ hmid hs =>
        ⟨Nat.lt_of_lt_of_le hmid.1 (asked_step hs), gone_step hmid.2 hmid.1 hs⟩) hr
  exact hall.2

/-- An event of other calls keeps the course of a call. -/
theorem FunctionCourse.beside (hc : FunctionCourse first c f token inner args later mid)
    (hother : event.call? ≠ some c) (hsame : h'.call? c = mid.call? c)
    (hs : mid.step event = some h') :
    FunctionCourse first c f token inner args (later ++ [event]) h' := by
  cases hc with
  | called since hk hnot =>
    refine .called since (hsame.trans hk) fun hmem => ?_
    rcases List.mem_append.mp hmem with hold | hnew
    · exact hnot hold
    · obtain rfl := List.mem_singleton.mp hnew
      exact hother rfl
  | atWork since hk hbegan => exact .atWork since (hsame.trans hk) (hbegan.concat event)
  | ended result frames since hk hframes hbegan hend =>
    exact .ended result frames since (hsame.trans hk) hframes (hbegan.concat event)
      (List.mem_append_left _ hend)
  | cancelled since hk hfired => exact .cancelled since (hsame.trans hk) (hasFired_step hs hfired)
  | gone hgone hleft =>
    exact .gone (hsame.trans hgone) (hleft.imp (List.mem_append_left _) (List.mem_append_left _))

/-- An event of the call itself takes it one point further on its course, or the call is gone. -/
theorem FunctionCourse.turned (hc : FunctionCourse first c f token inner args later mid)
    (hr : first.run later = some mid) (hlt : c < mid.asked) (hevent : event.call? = some c)
    (hs : mid.step event = some h') :
    FunctionCourse first c f token inner args (later ++ [event]) h' := by
  have hleaves : ∀ {k : Call}, mid.call? c = some k →
      FunctionCourse first c f token inner args (later ++ [event]) h' ∨
        ∃ t, mid.turn? k event = some t ∧ h'.call? c =
          some { k with frames := t.frames, stage := t.stage, since := t.host.now } := by
    intro k hk
    rcases call?_of_turn hk hevent hs with ⟨hleft, hgone⟩ | ⟨t, ht, hk'⟩
    · refine .inl (.gone hgone ?_)
      rcases hleft with rfl | rfl
      · exact .inl (List.mem_append_right _ List.mem_cons_self)
      · exact .inr (List.mem_append_right _ List.mem_cons_self)
    · exact .inr ⟨t, ht, hk'⟩
  cases hc with
  | called since hk hnot =>
    rcases hleaves hk with hgone | ⟨t, ht, hk'⟩
    · exact hgone
    obtain ⟨rfl, rfl⟩ := turn?_of_called rfl rfl hevent ht
    cases hfired : mid.hasFired token with
    | true =>
      simp only [hfired, if_true] at hk'
      exact .cancelled _ hk' (hasFired_step hs hfired)
    | false =>
      simp only [hfired] at hk'
      exact .atWork _ hk' ⟨later, [], mid, rfl, hr, hfired⟩
  | atWork since hk hbegan =>
    rcases hleaves hk with hgone | ⟨t, ht, hk'⟩
    · exact hgone
    rcases turn?_of_inside rfl rfl hevent ht with ⟨result, rfl, rfl⟩ | ⟨hfired, rfl⟩
    · exact .ended result _ _ hk' (.inr rfl) (hbegan.concat _)
        (List.mem_append_right _ List.mem_cons_self)
    · exact .cancelled _ hk' (hasFired_step hs hfired)
  | ended result frames since hk hframes hbegan hend =>
    rcases hleaves hk with hgone | ⟨t, ht, hk'⟩
    · exact hgone
    obtain ⟨d, frame, rest, rfl, hframe, rfl⟩ := turn?_of_over rfl ht
    obtain rfl : frames = [.race token] := hframes.resolve_left fun hnil => by
      rw [hnil] at hframe
      cases hframe
    cases hframe
    exact .ended result [] _ hk' (.inl rfl) (hbegan.concat _) (List.mem_append_left _ hend)
  | cancelled since hk hfired =>
    rcases hleaves hk with hgone | ⟨t, ht, -⟩
    · exact hgone
    cases (turn?_of_answered rfl rfl).symm.trans ht
  | gone hgone hleft =>
    exact .gone (gone_step hgone hlt hs)
      (hleft.imp (List.mem_append_left _) (List.mem_append_left _))

/-- Every event keeps the course of a call. -/
theorem functionCourse_step (hc : FunctionCourse first c f token inner args later mid)
    (hr : first.run later = some mid) (hlt : c < mid.asked) (hs : mid.step event = some h') :
    FunctionCourse first c f token inner args (later ++ [event]) h' := by
  by_cases hevent : event.call? = some c
  · exact hc.turned hr hlt hevent hs
  · exact hc.beside hevent (call?_step_of_ne hs hlt hevent) hs

/-- A call whose function has been called keeps its course in every run. -/
theorem functionCourse_of_run {since : Nat}
    (hk : first.call? c = some ⟨c, token, [], .called f inner args, since⟩) (hlt : c < first.asked)
    (hr : first.run later = some g) : FunctionCourse first c f token inner args later g := by
  have hcourse : c < g.asked ∧ FunctionCourse first c f token inner args later g := by
    refine plays.history (motive := fun es g => c < g.asked ∧
      FunctionCourse first c f token inner args es g) ⟨hlt, .called since hk List.not_mem_nil⟩
      (fun es mid event next hrun ih hs => ?_) hr
    exact ⟨Nat.lt_of_lt_of_le ih.1 (asked_step hs), functionCourse_step ih.2 hrun ih.1 hs⟩
  exact hcourse.2

/-! ### Calls that have been cancelled before -/

/-- What becomes of a call whose token had fired when it was made: no work begins for it. -/
inductive Spared (c : CallId) (later : List HostEvent) (g : Host) : Prop where
  | answered (ha : g.answer? c = some (.error .operationCancelled))
  /-- The function has been called and has not come back with its work. -/
  | called {k : Call} {f : FunctionId} {inner : Token} {args : List Json} (hk : g.call? c = some k)
      (hstage : k.stage = .called f inner args) (hnot : .returned c ∉ later)
  | gone (hgone : g.call? c = none) (hleft : .drop c ∈ later ∨ .panicked c ∈ later)

/-- A function whose caller's token had fired before never does its work. -/
theorem FunctionCourse.spared (hc : FunctionCourse first c f token inner args later g)
    (hfired : first.hasFired token = true) : Spared c later g := by
  have hnot : ¬ first.Began c token later := by
    rintro ⟨before, after, mid, -, hmid, hunfired⟩
    cases hunfired.symm.trans (hasFired_run hmid hfired)
  cases hc with
  | called since hk hreturned => exact .called hk rfl hreturned
  | atWork since hk hbegan => exact absurd hbegan hnot
  | ended result frames since hk hframes hbegan => exact absurd hbegan hnot
  | cancelled since hk => exact .answered (answer?_of_call? hk rfl rfl)
  | gone hgone hleft => exact .gone hgone hleft

/-- A request that has its answer keeps it until the caller goes away. -/
theorem answered_step (ha : h.answer? c = some result) (hlt : c < h.asked)
    (hs : h.step event = some h') :
    h'.answer? c = some result ∨ event = .drop c ∧ h'.call? c = none := by
  obtain ⟨k, hk, hframes, hstage⟩ := call?_of_answer? ha
  by_cases hevent : event.call? = some c
  · rcases call?_of_turn hk hevent hs with ⟨rfl | rfl, hgone⟩ | ⟨t, ht, -⟩
    · exact .inr ⟨rfl, hgone⟩
    · obtain ⟨j, f, inner, args, hj, hcalled, -⟩ := of_step_panicked hs
      obtain rfl : k = j := Option.some.inj (hk.symm.trans hj)
      rcases hcalled with hcalled | hcalled <;> cases hstage.symm.trans hcalled
    · cases (turn?_of_answered hframes hstage).symm.trans ht
  · refine .inl (answer?_of_call? ?_ hframes hstage)
    exact (call?_step_of_ne hs hlt hevent).trans hk

/-- A request that has its answer has it in every later run, unless the caller goes away. -/
theorem answered_run (ha : h.answer? c = some result) (hlt : c < h.asked)
    (hr : h.run es = some g) :
    g.answer? c = some result ∨ .drop c ∈ es ∧ g.call? c = none := by
  have hall : c < g.asked ∧
      (g.answer? c = some result ∨ .drop c ∈ es ∧ g.call? c = none) := by
    refine plays.history (motive := fun es g => c < g.asked ∧
      (g.answer? c = some result ∨ .drop c ∈ es ∧ g.call? c = none)) ⟨hlt, .inl ha⟩
      (fun es mid event next hrun ih hs => ?_) hr
    obtain ⟨hltmid, hmid⟩ := ih
    refine ⟨Nat.lt_of_lt_of_le hltmid (asked_step hs), ?_⟩
    rcases hmid with hmid | ⟨hdrop, hgone⟩
    · refine (answered_step hmid hltmid hs).imp_right fun ⟨heq, hnone⟩ => ⟨?_, hnone⟩
      exact heq ▸ List.mem_append_right _ List.mem_cons_self
    · exact .inr ⟨List.mem_append_left _ hdrop, gone_step hgone hltmid hs⟩
  exact hall.2

end Host

end LanguageHost
