import LanguageHost.Proofs.Host.Timing

/-!
# The summaries of the profiler

The profiler keeps a summary for each name that is made of a runtime and a function.  Whatever it is
told in between, each summary tells of the tasks under its name that were recorded since the profiler
forgot all (`Profiler.Tells`, `Host.recent`): of the runtime of the first one, of their number and of
the number of failures.  Two functions have the same name exactly if the one is the other with a dot
and what is before it moved between runtime and function (`Profiler.key_eq_iff`), and then they have
one summary.
-/

namespace LanguageHost

/-- What a summary tells of the calls that it counts, apart from their durations. -/
structure Tally where
  /-- The runtime of the first call. -/
  runtime : String
  calls : Nat
  errors : Nat
  deriving Repr, DecidableEq

/-- What a summary tells, apart from durations. -/
def CallStats.tally (s : CallStats) : Tally := ⟨s.runtime, s.calls, s.errors⟩

namespace Tally

/-- What is to be told of tasks, if there are any. -/
def of? : List Completion → Option Tally
  | [] => none
  | e :: rest =>
    some ⟨e.runtime, (e :: rest).length, (e :: rest).countP fun e => Host.failed e.result⟩

/-- One more task is counted. -/
def add (t : Tally) (failed : Bool) : Tally :=
  { t with calls := t.calls + 1, errors := if failed then t.errors + 1 else t.errors }

theorem of?_concat (l : List Completion) (e : Completion) :
    of? (l ++ [e]) = some (((of? l).getD ⟨e.runtime, 0, 0⟩).add (Host.failed e.result)) := by
  cases l with
  | nil => cases hfailed : Host.failed e.result <;> simp [of?, add, hfailed]
  | cons first rest =>
    have hcount : (first :: rest ++ [e]).countP (fun e => Host.failed e.result) =
        if Host.failed e.result = true then
          (first :: rest).countP (fun e => Host.failed e.result) + 1
        else (first :: rest).countP fun e => Host.failed e.result := by
      rw [List.countP_append, List.countP_singleton]
      split <;> rfl
    have hlength : (first :: rest ++ [e]).length = (first :: rest).length + 1 :=
      List.length_append
    change some (Tally.mk first.runtime (first :: rest ++ [e]).length
      ((first :: rest ++ [e]).countP fun e => Host.failed e.result)) = _
    rw [hcount, hlength]
    rfl

theorem of?_eq_none {l : List Completion} : of? l = none ↔ l = [] := by
  cases l with
  | nil => simp [of?]
  | cons e rest => simp [of?]

theorem of?_of_mem {l : List Completion} {t : Tally} (h : of? l = some t) :
    (∃ e ∈ l, e.runtime = t.runtime) ∧ t.calls = l.length ∧
      t.errors = l.countP fun e => Host.failed e.result := by
  cases l with
  | nil => cases h
  | cons e rest =>
    cases h
    exact ⟨⟨e, List.mem_cons_self, rfl⟩, rfl, rfl⟩

end Tally

theorem CallStats.tally_add (s : CallStats) (d : Duration) (failed : Bool) :
    (s.add d failed).tally = s.tally.add failed := rfl

/-- Two lists with the same mark in them are equal exactly if the parts are, or a part with a mark of
its own went from the one side to the other. -/
theorem append_cons_eq_append_cons {α : Type} (a : α) (l m l' m' : List α) :
    l ++ a :: m = l' ++ a :: m' ↔ l = l' ∧ m = m' ∨ (∃ s, l' = l ++ a :: s ∧ m = s ++ a :: m') ∨
      ∃ s, l = l' ++ a :: s ∧ m' = s ++ a :: m := by
  constructor
  · intro h
    rcases List.append_eq_append_iff.mp h with ⟨s, hl, hm⟩ | ⟨s, hl, hm⟩
    · cases s with
      | nil => exact .inl ⟨by simpa using hl.symm, (List.cons.inj hm).2⟩
      | cons b s =>
        obtain ⟨rfl, hrest⟩ := List.cons.inj hm
        exact .inr (.inl ⟨s, hl, hrest⟩)
    · cases s with
      | nil => exact .inl ⟨by simpa using hl, (List.cons.inj hm).2.symm⟩
      | cons b s =>
        obtain ⟨rfl, hrest⟩ := List.cons.inj hm
        exact .inr (.inr ⟨s, hl, hrest⟩)
  · rintro (⟨rfl, rfl⟩ | ⟨s, rfl, rfl⟩ | ⟨s, rfl, rfl⟩)
    · rfl
    · simp
    · simp

namespace Profiler

variable {p : Profiler} {ended : List Completion}

theorem toList_key (runtime function : String) :
    (key runtime function).toList = runtime.toList ++ '.' :: function.toList := by
  simp [key]

/-- Two functions have the same name exactly if they are the same, or a part of it with a dot counts
to the runtime of the one and to the function of the other. -/
theorem key_eq_iff (r f r' f' : String) :
    key r f = key r' f' ↔ r = r' ∧ f = f' ∨
      (∃ s, r' = r ++ "." ++ s ∧ f = s ++ "." ++ f') ∨
      ∃ s, r = r' ++ "." ++ s ∧ f' = s ++ "." ++ f := by
  rw [← String.toList_inj, toList_key, toList_key, append_cons_eq_append_cons]
  have hmoved : ∀ a b c d : String,
      (∃ s, a.toList = b.toList ++ '.' :: s ∧ c.toList = s ++ '.' :: d.toList) ↔
        ∃ s, a = b ++ "." ++ s ∧ c = s ++ "." ++ d := by
    intro a b c d
    constructor
    · rintro ⟨s, ha, hc⟩
      refine ⟨String.ofList s, ?_, ?_⟩
      · exact String.toList_inj.mp (by simp [ha])
      · exact String.toList_inj.mp (by simp [hc])
    · rintro ⟨s, rfl, rfl⟩
      exact ⟨s.toList, by simp, by simp⟩
  simp only [String.toList_inj, hmoved]

/-- Each summary tells of the tasks under its name, and there is none where there are no tasks. -/
def Tells (p : Profiler) (ended : List Completion) : Prop :=
  ∀ runtime function, (p.statsOf? runtime function).map CallStats.tally =
    Tally.of? (ended.filter fun e => decide (e.key = key runtime function))

/-- One more task has come to its end. -/
theorem Tells.record (h : p.Tells ended) (e : Completion) (d : Duration) :
    (p.record e.runtime e.function d (Host.failed e.result)).Tells (ended ++ [e]) := by
  intro runtime function
  rw [statsOf?_record, List.filter_append, List.filter_singleton]
  by_cases hkey : key runtime function = key e.runtime e.function
  · have hbefore := h e.runtime e.function
    have hcounts : decide (e.key = key e.runtime e.function) = true := decide_eq_true rfl
    rw [if_pos hkey, hkey, hcounts, cond_true, Tally.of?_concat, ← hbefore, Option.map_some,
      CallStats.tally_add]
    cases p.statsOf? e.runtime e.function with
    | none => rfl
    | some s => rfl
  · have hother : decide (e.key = key runtime function) = false :=
      decide_eq_false fun h => hkey h.symm
    rw [if_neg hkey, hother, cond_false, List.append_nil]
    exact h runtime function

/-- Where no other function has the same name, a summary tells of the tasks of its function. -/
theorem Tells.of_pair (h : p.Tells ended) {runtime function : String}
    (honly : ∀ e ∈ ended, e.key = key runtime function →
      e.runtime = runtime ∧ e.function = function) :
    ((∃ s, p.statsOf? runtime function = some s) ↔
      ∃ e ∈ ended, e.runtime = runtime ∧ e.function = function) ∧
    ∀ s, p.statsOf? runtime function = some s →
      s.runtime = runtime ∧
      (s.calls = ended.countP fun e => decide (e.runtime = runtime ∧ e.function = function)) ∧
      s.errors = ended.countP fun e =>
        decide (e.runtime = runtime ∧ e.function = function) && Host.failed e.result := by
  have hfilter : (ended.filter fun e => decide (e.key = key runtime function)) =
      ended.filter fun e => decide (e.runtime = runtime ∧ e.function = function) := by
    refine List.filter_congr fun e he => decide_eq_decide.mpr ⟨honly e he, ?_⟩
    rintro ⟨rfl, rfl⟩
    rfl
  have htally := h runtime function
  rw [hfilter] at htally
  constructor
  · constructor
    · rintro ⟨s, hs⟩
      rw [hs, Option.map_some] at htally
      obtain ⟨⟨e, he, -⟩, -, -⟩ := Tally.of?_of_mem htally.symm
      obtain ⟨hmem, hpair⟩ := List.mem_filter.mp he
      exact ⟨e, hmem, of_decide_eq_true hpair⟩
    · rintro ⟨e, he, hpair⟩
      cases hs : p.statsOf? runtime function with
      | some s => exact ⟨s, rfl⟩
      | none =>
        rw [hs, Option.map_none] at htally
        have hnone := Tally.of?_eq_none.mp htally.symm
        exact absurd (decide_eq_true hpair) (List.filter_eq_nil_iff.mp hnone e he)
  · intro s hs
    rw [hs, Option.map_some] at htally
    obtain ⟨⟨e, he, hruntime⟩, hcalls, herrors⟩ := Tally.of?_of_mem htally.symm
    obtain ⟨-, hpair⟩ := List.mem_filter.mp he
    refine ⟨hruntime.symm.trans (of_decide_eq_true hpair).1, ?_, ?_⟩
    · rw [List.countP_eq_length_filter]
      exact hcalls
    · rw [List.countP_filter] at herrors
      refine herrors.trans (List.countP_congr fun e _ => ?_)
      rw [Bool.and_comm]

end Profiler

/-- What changes the summaries. -/
inductive ProfilerEntry where
  | ended (e : Completion)
  /-- The profiler forgets all calls. -/
  | forgotten

/-- The tasks that the profiler keeps in mind after one more entry. -/
def ProfilerEntry.keep (ended : List Completion) : ProfilerEntry → List Completion
  | .ended e => ended ++ [e]
  | .forgotten => []

namespace Host

variable {h h' : Host} {c : CallId} {event : HostEvent} {es : List HostEvent}
variable {kept : List Completion}

/-- What an event changes about the summaries. -/
def entry? (h : Host) : HostEvent → Option ProfilerEntry
  | .resetProfiler => some .forgotten
  | event => (h.ended? event).map .ended

/-- The tasks that were recorded in the course of a run since the profiler forgot all calls. -/
def recent (h : Host) (es : List HostEvent) : List Completion :=
  (logged step entry? h es).foldl ProfilerEntry.keep []

theorem recent_concat {h₀ mid : Host} (hr : h₀.run es = some mid) (event : HostEvent) :
    h₀.recent (es ++ [event]) =
      (mid.entry? event).toList.foldl ProfilerEntry.keep (h₀.recent es) := by
  rw [recent, plays.logged_concat hr, List.foldl_append]
  rfl

/-- A profiler that is turned on or off keeps its summaries. -/
theorem tells_step (hr : h.profiler.Tells kept) (hs : h.step event = some h') :
    h'.profiler.Tells ((h.entry? event).toList.foldl ProfilerEntry.keep kept) := by
  cases steps_of_step hs with
  | ask request token =>
    let later : Host := { h with asked := h.asked + 1 }
    have hprofiler : (h.ask request token).profiler = h.profiler :=
      (leads_begin later h.asked request token).settings_eq.1
    rw [hprofiler]
    exact hr
  | @turn _ k t _ hk ht hmoves =>
    obtain ⟨hsame, hrecord⟩ := ht.profiler_eq hk
    have hentry : h.entry? event = (h.ended? event).map .ended := by
      cases ht with
      | ends hevent =>
        rcases hevent with ⟨rfl, -⟩ | hreport
        · rfl
        · cases event <;> first | rfl | cases hreport
      | _ => rfl
    rw [hentry]
    change t.host.profiler.Tells _
    cases he : h.ended? event with
    | none =>
      rw [hsame he]
      exact hr
    | some e =>
      obtain ⟨d, hp⟩ := hrecord e he
      rw [hp]
      exact hr.record e d
  | @drop _ k hevent hk =>
    have hprofiler : (h.drop k).profiler = h.profiler := (quiet_leave h k.stage).profiler_eq
    rw [hprofiler]
    rcases hevent with rfl | rfl <;> exact hr
  | aside hevent hcalls hasked htasks hprofiler hprofile =>
    cases event with
    | profile enabled =>
      rw [hprofile enabled rfl]
      exact hr
    | resetProfiler =>
      cases hs
      intro runtime function
      rfl
    | _ => first | exact hprofiler nofun nofun ▸ hr | cases hevent

/-- Every run of a new host keeps the summaries in step with what was recorded. -/
theorem tells_run {config : HostConfig} {h₀ : Host} (hnew : new config = .ok h₀)
    (hr : h₀.run es = some h) : h.profiler.Tells (h₀.recent es) := by
  refine plays.history (motive := fun es h => h.profiler.Tells (h₀.recent es)) ?_ ?_ hr
  · obtain rfl := eq_of_new hnew
    intro runtime function
    rfl
  · intro es mid event next hrun ih hs
    rw [recent_concat hrun]
    exact tells_step ih hs

/-- What the profiler keeps in mind was recorded. -/
theorem recent_sublist {h₀ : Host} (hr : h₀.run es = some h) :
    (h₀.recent es).Sublist (h₀.endings es) := by
  refine plays.history (motive := fun es _ => (h₀.recent es).Sublist (h₀.endings es)) .slnil ?_ hr
  intro es mid event next hrun ih hs
  rw [recent_concat hrun, endings, plays.logged_concat hrun]
  have hkept : ∀ e? : Option Completion, mid.entry? event = e?.map .ended →
      ((mid.entry? event).toList.foldl ProfilerEntry.keep (h₀.recent es)).Sublist
        (h₀.endings es ++ e?.toList) := by
    intro e? hentry
    rw [hentry]
    cases e? with
    | none => simpa using ih
    | some e => exact ih.append (List.Sublist.refl [e])
  cases event with
  | resetProfiler => exact List.nil_sublist _
  | _ => exact hkept _ rfl

/-- Without a reset, everything that was recorded is kept in mind. -/
theorem recent_eq_endings {h₀ : Host} (hr : h₀.run es = some h) (hkept : .resetProfiler ∉ es) :
    h₀.recent es = h₀.endings es := by
  refine plays.history (motive := fun es _ => .resetProfiler ∉ es → h₀.recent es = h₀.endings es)
    (fun _ => rfl) ?_ hr hkept
  intro es mid event next hrun ih hs hkept
  obtain ⟨hkept, hevent⟩ : .resetProfiler ∉ es ∧ event ≠ .resetProfiler := by
    simpa [eq_comm] using hkept
  have hentry : mid.entry? event = (mid.ended? event).map .ended := by
    cases event <;> first | rfl | exact absurd rfl hevent
  rw [recent_concat hrun, ih hkept, hentry, endings, endings, plays.logged_concat hrun]
  cases mid.ended? event with
  | none => simp
  | some e => rfl

/-! ### The summaries of a run -/

/-- Whatever a host does, and whenever its profiler is turned on or off or forgets all calls:  A
summary tells of the tasks under its name that were recorded since then, and where two functions that
were recorded have different names, it tells of one function.  Names are the same only if a part with
a dot goes from the runtime to the function.  Each task is recorded at most once, under what it was
handed on by.  One that was handed on while the profiler was on and whose caller has an answer was
recorded with that answer, unless it came through the bridge and was left there; one that was handed
on while the profiler was off never is. -/
theorem summaries_of_run {config : HostConfig} {h₀ : Host} (hnew : Host.new config = .ok h₀)
    (hr : h₀.run es = some h) :
    (∀ runtime function, (h.profiler.statsOf? runtime function).map CallStats.tally =
      Tally.of? ((h₀.recent es).filter fun e => decide (e.key = Profiler.key runtime function))) ∧
    (∀ runtime function, (∀ e ∈ h₀.recent es, e.key = Profiler.key runtime function →
        e.runtime = runtime ∧ e.function = function) →
      ((∃ s, h.profiler.statsOf? runtime function = some s) ↔
        ∃ e ∈ h₀.recent es, e.runtime = runtime ∧ e.function = function) ∧
      ∀ s, h.profiler.statsOf? runtime function = some s →
        s.runtime = runtime ∧
        (s.calls = (h₀.recent es).countP fun e =>
          decide (e.runtime = runtime ∧ e.function = function)) ∧
        s.errors = (h₀.recent es).countP fun e =>
          decide (e.runtime = runtime ∧ e.function = function) && failed e.result) ∧
    (∀ r f r' f', Profiler.key r f = Profiler.key r' f' ↔ r = r' ∧ f = f' ∨
      (∃ s, r' = r ++ "." ++ s ∧ f = s ++ "." ++ f') ∨
      ∃ s, r = r' ++ "." ++ s ∧ f' = s ++ "." ++ f) ∧
    ((h₀.recent es).Sublist (h₀.endings es) ∧ ((h₀.endings es).map Completion.call).Nodup ∧
      ∀ e ∈ h₀.endings es, ∃ x ∈ h₀.timings es, x.call = e.call ∧
        x.route.name? = some e.runtime ∧ x.task.function = e.function) ∧
    ∀ before event after mid x name result, es = before ++ event :: after →
      h₀.run before = some mid → mid.handed? event = some x → x.route.name? = some name →
      h.answer? x.call = some result →
      (mid.profiler.enabled = true →
        (⟨x.call, name, x.task.function, result⟩ ∈ h₀.endings es ∧ x.call ∉ h₀.leavings es) ∨
        (x.route = .bridged name ∧ x.call ∈ h₀.leavings es ∧
          result = .error .operationCancelled ∧ ∀ e ∈ h₀.endings es, e.call ≠ x.call)) ∧
      (mid.profiler.enabled = false → ∀ e ∈ h₀.endings es, e.call ≠ x.call) := by
  have htells := tells_run hnew hr
  have htimed := timed_run hnew hr
  refine ⟨htells, fun runtime function honly => htells.of_pair honly, Profiler.key_eq_iff,
    ⟨recent_sublist hr, htimed.ended_nodup, htimed.ended_timed⟩, ?_⟩
  rintro before event after mid x name result rfl hmid hx hname hanswer
  constructor
  · intro hon
    have htime : mid.timed? event = some x := (timed?_of_on hon event).trans hx
    exact htimed.answered (plays.mem_logged hmid htime) hname hanswer
  · intro hoff
    exact htimed.not_ended_of_untimed (plays.mem_logged hmid hx)
      (htimed.not_timed_of_off hmid hx hoff)

/-- Two tasks of one function while the profiler is on, and one while it is off. -/
theorem summaries_of_three_tasks :
    ∃ h₀ h s, Host.new default = .ok h₀ ∧
      h₀.run [.make (.foreign "rust" "1") none, .register 0,
        .ask (.dispatch "rust" (.call "add" [])) (.root 0), .acted 0 (.ok .null), .resume 0,
        .resetProfiler, .ask (.dispatch "rust" (.call "add" [])) (.root 1), .profile false,
        .ask (.dispatch "rust" (.call "add" [])) (.root 2), .profile true,
        .acted 1 (.error (.io "overflow")), .acted 2 (.ok .null), .resume 1] = some h ∧
      h.answer? 1 = some (.error (.io "overflow")) ∧ h.answer? 2 = some (.ok .null) ∧
      h.profiler.statsOf? "rust" "add" = some s ∧
      s.runtime = "rust" ∧ s.calls = 1 ∧ s.errors = 1 := by
  let es : List HostEvent := [.make (.foreign "rust" "1") none, .register 0,
    .ask (.dispatch "rust" (.call "add" [])) (.root 0), .acted 0 (.ok .null), .resume 0,
    .resetProfiler, .ask (.dispatch "rust" (.call "add" [])) (.root 1), .profile false,
    .ask (.dispatch "rust" (.call "add" [])) (.root 2), .profile true,
    .acted 1 (.error (.io "overflow")), .acted 2 (.ok .null), .resume 1]
  obtain ⟨h₀, h, s, hnew, hr, hfirst, hsecond, hstats, hlog⟩ : ∃ h₀ h s,
      Host.new default = .ok h₀ ∧ h₀.run es = some h ∧
      h.answer? 1 = some (.error (.io "overflow")) ∧ h.answer? 2 = some (.ok .null) ∧
      h.profiler.statsOf? "rust" "add" = some s ∧
      h₀.recent es = [⟨1, "rust", "add", .error (.io "overflow")⟩] :=
    ⟨_, _, _, rfl, rfl, rfl, rfl, rfl, rfl⟩
  obtain ⟨-, hpairs, -⟩ := summaries_of_run hnew hr
  have honly : ∀ e ∈ h₀.recent es, e.key = Profiler.key "rust" "add" →
      e.runtime = "rust" ∧ e.function = "add" := by
    intro e he _
    rw [hlog] at he
    obtain rfl := List.mem_singleton.mp he
    exact ⟨rfl, rfl⟩
  obtain ⟨-, htold⟩ := hpairs "rust" "add" honly
  obtain ⟨hruntime, hcalls, herrors⟩ := htold s hstats
  rw [hlog] at hcalls herrors
  exact ⟨h₀, h, s, hnew, hr, hfirst, hsecond, hstats, hruntime, hcalls.trans rfl,
    herrors.trans rfl⟩

/-- One function was called, and there is a summary of another one that never was: it has the same
name with a dot in the other place. -/
theorem summary_of_other_function :
    ∃ h₀ h s, Host.new default = .ok h₀ ∧
      h₀.run [.make (.foreign "a.b" "1") none, .register 0, .make (.foreign "a" "1") none,
        .register 1, .ask (.dispatch "a.b" (.call "c" [])) (.root 0), .acted 0 (.ok .null),
        .resume 0] = some h ∧
      h₀.recent [.make (.foreign "a.b" "1") none, .register 0, .make (.foreign "a" "1") none,
        .register 1, .ask (.dispatch "a.b" (.call "c" [])) (.root 0), .acted 0 (.ok .null),
        .resume 0] = [⟨0, "a.b", "c", .ok .null⟩] ∧
      h.profiler.statsOf? "a" "b.c" = some s ∧ s.runtime = "a.b" ∧ s.calls = 1 :=
  ⟨_, _, _, rfl, rfl, rfl, rfl, rfl, rfl⟩

end Host

end LanguageHost
