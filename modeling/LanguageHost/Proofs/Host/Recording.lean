import LanguageHost.Proofs.Host.Summaries

/-!
# What the profiler records

As long as the profiler is on and forgets nothing, everything that is handed on under the name of an
engine is timed, and everything that was recorded is kept in mind.  So the summaries count what has
come to its end (`Recorded`), and a task whose caller has an answer was counted unless it was left.
-/

namespace LanguageHost

/-- The summaries tell how many tasks have come to their ends, and how many of them have failed. -/
def Profiler.Sums (p : Profiler) (ended : List Completion) : Prop :=
  ∀ runtime function,
    ((p.statsOf? runtime function).elim 0 CallStats.calls =
      ended.countP fun e => decide (e.key = key runtime function)) ∧
    ((p.statsOf? runtime function).elim 0 CallStats.errors =
      ended.countP fun e => decide (e.key = key runtime function) && Host.failed e.result)

/-- What the summaries tell includes how many tasks there were, and how many have failed. -/
theorem Profiler.Tells.sums {p : Profiler} {ended : List Completion} (h : p.Tells ended) :
    p.Sums ended := by
  intro runtime function
  have htally := h runtime function
  rw [List.countP_eq_length_filter]
  cases hs : p.statsOf? runtime function with
  | none =>
    rw [hs, Option.map_none] at htally
    have hnone := Tally.of?_eq_none.mp htally.symm
    refine ⟨by rw [hnone]; rfl, ?_⟩
    refine (List.countP_eq_zero.mpr fun e he hboth => ?_).symm
    obtain ⟨hkey, -⟩ := Bool.and_eq_true_iff.mp hboth
    exact List.filter_eq_nil_iff.mp hnone e he hkey
  | some s =>
    rw [hs, Option.map_some] at htally
    obtain ⟨-, hcalls, herrors⟩ := Tally.of?_of_mem htally.symm
    rw [List.countP_filter] at herrors
    refine ⟨hcalls, herrors.trans (List.countP_congr fun e _ => ?_)⟩
    rw [Bool.and_comm]

namespace Host

variable {h : Host} {x : Handing} {es : List HostEvent}
variable {handed : List Handing} {ended : List Completion} {left : List CallId}

/-! ### While the profiler is on -/

/-- All calls are on course, and the summaries tell what has ended. -/
structure Recorded (h : Host) (handed : List Handing) (ended : List Completion)
    (left : List CallId) : Prop where
  ids_nodup : (h.calls.map Call.id).Nodup
  ids_lt : ∀ k ∈ h.calls, k.id < h.asked
  handed_lt : ∀ x ∈ handed, x.call < h.asked
  handed_nodup : (handed.map Handing.call).Nodup
  ended_nodup : (ended.map Completion.call).Nodup
  ended_handed : ∀ e ∈ ended, ∃ x ∈ handed, x.call = e.call ∧ x.route.name? = some e.runtime ∧
    x.task.function = e.function
  left_handed : ∀ c ∈ left, ∃ x ∈ handed, x.call = c ∧ ∃ name, x.route = .bridged name
  enabled : h.profiler.enabled = true
  courses : ∀ k ∈ h.calls, Course handed ended left k
  sums : h.profiler.Sums ended

/-- A profiler that is not turned off stays on. -/
theorem enabled_run {config : HostConfig} {h₀ : Host} (hnew : new config = .ok h₀)
    (hon : .profile false ∉ es) (hr : h₀.run es = some h) : h.profiler.enabled = true := by
  refine plays.induction (motive := fun h => h.profiler.enabled = true) ?_ ?_ hr
  · obtain rfl := eq_of_new hnew
    rfl
  · intro mid event next hevent henabled hs
    cases steps_of_step hs with
    | ask request token =>
      let later : Host := { mid with asked := mid.asked + 1 }
      have hprofiler : (mid.ask request token).profiler = mid.profiler :=
        (leads_begin later mid.asked request token).settings_eq.1
      exact hprofiler ▸ henabled
    | @turn _ k t _ hk ht =>
      obtain ⟨hsame, hrecord⟩ := ht.profiler_eq hk
      change t.host.profiler.enabled = true
      cases he : mid.ended? event with
      | none => exact hsame he ▸ henabled
      | some e =>
        obtain ⟨d, hp⟩ := hrecord e he
        rw [hp]
        exact henabled
    | @drop _ k _ hk =>
      have hprofiler : (mid.drop k).profiler = mid.profiler := (quiet_leave mid k.stage).profiler_eq
      exact hprofiler ▸ henabled
    | aside _ hcalls hasked htasks hprofiler hprofile =>
      cases event with
      | profile enabled =>
        rw [hprofile enabled rfl]
        cases enabled with
        | true => rfl
        | false => exact absurd hevent hon
      | resetProfiler =>
        cases hs
        exact henabled
      | _ => exact hprofiler nofun nofun ▸ henabled

/-- Whatever is handed on while the profiler is on is timed. -/
theorem timings_eq_handings {config : HostConfig} {h₀ : Host} (hnew : new config = .ok h₀)
    (hon : .profile false ∉ es) (hr : h₀.run es = some h) : h₀.timings es = h₀.handings es := by
  refine plays.history (motive := fun es _ => .profile false ∉ es → h₀.timings es = h₀.handings es)
    (fun _ => rfl) ?_ hr hon
  intro es mid event next hrun ih hs hon
  have hbefore : .profile false ∉ es := fun hmem => hon (List.mem_append_left _ hmem)
  rw [timings, handings, plays.logged_concat hrun, plays.logged_concat hrun,
    timed?_of_on (enabled_run hnew hbefore hrun)]
  exact congrArg (· ++ _) (ih hbefore)

/-- Every run keeps the record, as long as the profiler is on and forgets nothing. -/
theorem recorded_run {config : HostConfig} {h₀ : Host} (hnew : new config = .ok h₀)
    (hon : .profile false ∉ es) (hkept : .resetProfiler ∉ es) (hr : h₀.run es = some h) :
    h.Recorded (h₀.handings es) (h₀.endings es) (h₀.leavings es) := by
  have htimed := timed_run hnew hr
  have htells := tells_run hnew hr
  rw [timings_eq_handings hnew hon hr] at htimed
  rw [recent_eq_endings hr hkept] at htells
  exact {
    ids_nodup := htimed.ids_nodup
    ids_lt := htimed.ids_lt
    handed_lt := htimed.handed_lt
    handed_nodup := htimed.handed_nodup
    ended_nodup := htimed.ended_nodup
    ended_handed := htimed.ended_timed
    left_handed := htimed.left_timed
    enabled := enabled_run hnew hon hr
    courses := htimed.courses
    sums := htells.sums }

/-- A task that was handed on under a name and has been answered was recorded with its answer, or it
was left. -/
theorem Recorded.answered (hr : h.Recorded handed ended left) {name : String}
    {result : Outcome Json} (hx : x ∈ handed) (hname : x.route.name? = some name)
    (hanswer : h.answer? x.call = some result) :
    (⟨x.call, name, x.task.function, result⟩ ∈ ended ∧ x.call ∉ left) ∨
      (x.route = .bridged name ∧ x.call ∈ left ∧ result = .error .operationCancelled ∧
        ∀ e ∈ ended, e.call ≠ x.call) := by
  have htimed : h.Timed handed handed ended left := {
    ids_nodup := hr.ids_nodup
    ids_lt := hr.ids_lt
    handed_lt := hr.handed_lt
    handed_nodup := hr.handed_nodup
    timed_sublist := .refl _
    ended_nodup := hr.ended_nodup
    ended_timed := hr.ended_handed
    left_timed := hr.left_handed
    courses := hr.courses }
  exact htimed.answered hx hname hanswer

/-! ### What is recorded -/

/-- As long as the profiler is on and forgets nothing, its summaries count what has come to its end,
each task at most once and under the name that it was handed on by.  A task that was handed on and
whose caller has an answer was counted, as a failure exactly if the answer is one, unless it came
through the bridge and the race there was over while it was under way: its caller is told that it
was cancelled, and nothing is recorded of it. -/
theorem recorded_once_unless_left {config : HostConfig} {h₀ : Host}
    (hnew : Host.new config = .ok h₀) (hon : .profile false ∉ es) (hkept : .resetProfiler ∉ es)
    (hr : h₀.run es = some h) :
    (∀ runtime function,
      ((h.profiler.statsOf? runtime function).elim 0 CallStats.calls =
        (h₀.endings es).countP fun e => decide (e.key = Profiler.key runtime function)) ∧
      ((h.profiler.statsOf? runtime function).elim 0 CallStats.errors =
        (h₀.endings es).countP fun e =>
          decide (e.key = Profiler.key runtime function) && failed e.result)) ∧
    ((h₀.endings es).map Completion.call).Nodup ∧
    (∀ e ∈ h₀.endings es, ∃ x ∈ h₀.handings es, x.call = e.call ∧
      x.route.name? = some e.runtime ∧ x.task.function = e.function) ∧
    ∀ x ∈ h₀.handings es, ∀ name result, x.route.name? = some name →
      h.answer? x.call = some result →
        (⟨x.call, name, x.task.function, result⟩ ∈ h₀.endings es ∧ x.call ∉ h₀.leavings es) ∨
        (x.route = .bridged name ∧ x.call ∈ h₀.leavings es ∧
          result = .error .operationCancelled ∧ ∀ e ∈ h₀.endings es, e.call ≠ x.call) := by
  have hrecorded := recorded_run hnew hon hkept hr
  exact ⟨hrecorded.sums, hrecorded.ended_nodup, hrecorded.ended_handed,
    fun x hx name result hname hanswer => hrecorded.answered hx hname hanswer⟩

/-- A task that fails under the name of an engine, and one through the bridge. -/
theorem recorded_once_of_two_calls :
    ∃ h₀ h, Host.new default = .ok h₀ ∧
      h₀.run [.make (.foreign "rust" "1") none, .register 0,
        .bridgeRegister "sum" (.exposed "rust" "add"),
        .ask (.dispatch "rust" (.call "add" [])) (.root 0), .ask (.bridge "sum" []) (.root 1),
        .acted 0 (.error (.io "overflow")), .acted 1 (.ok .null), .resume 1, .resume 0,
        .resume 1] = some h ∧
      h.answer? 0 = some (.error (.io "overflow")) ∧ h.answer? 1 = some (.ok .null) ∧
      (h.profiler.statsOf? "rust" "add").elim 0 CallStats.calls = 2 ∧
      (h.profiler.statsOf? "rust" "add").elim 0 CallStats.errors = 1 := by
  let es : List HostEvent := [.make (.foreign "rust" "1") none, .register 0,
    .bridgeRegister "sum" (.exposed "rust" "add"),
    .ask (.dispatch "rust" (.call "add" [])) (.root 0), .ask (.bridge "sum" []) (.root 1),
    .acted 0 (.error (.io "overflow")), .acted 1 (.ok .null), .resume 1, .resume 0, .resume 1]
  obtain ⟨h₀, h, hnew, hr, hfailed, hended, hlog⟩ : ∃ h₀ h, Host.new default = .ok h₀ ∧
      h₀.run es = some h ∧ h.answer? 0 = some (.error (.io "overflow")) ∧
      h.answer? 1 = some (.ok .null) ∧ h₀.endings es =
        [⟨1, "rust", "add", .ok .null⟩, ⟨0, "rust", "add", .error (.io "overflow")⟩] :=
    ⟨_, _, rfl, rfl, rfl, rfl, rfl⟩
  have hon : .profile false ∉ es := by simp [es]
  have hkept : .resetProfiler ∉ es := by simp [es]
  obtain ⟨hsums, -, -, -⟩ := recorded_once_unless_left hnew hon hkept hr
  obtain ⟨hcalls, herrors⟩ := hsums "rust" "add"
  rw [hlog] at hcalls herrors
  exact ⟨h₀, h, hnew, hr, hfailed, hended, hcalls.trans rfl, herrors.trans rfl⟩

/-- A task through the bridge that is cancelled while it is under way: its caller has an answer, and
nothing was recorded. -/
theorem not_recorded_after_fire :
    ∃ h₀ h, Host.new default = .ok h₀ ∧
      h₀.run [.make (.foreign "rust" "1") none, .register 0,
        .bridgeRegister "sum" (.exposed "rust" "add"), .ask (.bridge "sum" []) (.root 0),
        .fire (.root 0), .resume 0] = some h ∧
      h₀.handings [.make (.foreign "rust" "1") none, .register 0,
        .bridgeRegister "sum" (.exposed "rust" "add"), .ask (.bridge "sum" []) (.root 0),
        .fire (.root 0), .resume 0] = [⟨0, .bridged "rust", 0, .call "add" []⟩] ∧
      h.answer? 0 = some (.error .operationCancelled) ∧ h.profiler.enabled = true ∧
      h.profiler.statsOf? "rust" "add" = none :=
  ⟨_, _, rfl, rfl, rfl, rfl, rfl, rfl⟩

end Host

end LanguageHost
