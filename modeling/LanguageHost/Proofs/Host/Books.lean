import Mathlib.Algebra.BigOperators.Group.List.Basic
import Mathlib.Algebra.GroupWithZero.Nat
import LanguageHost.Proofs.Host.Recording
import LanguageHost.Proofs.Host.Orders
import LanguageHost.Proofs.Host.Verdicts

/-!
# The two books of calls

A task that was timed and has come to its end is put down twice: the profiler adds it to the summary
of its function, and a counter of its runtime and its outcome goes up.  So the two books agree in
every run, as long as the profiler forgets nothing: the summaries together have as many calls and as
many failures as the counters (`Host.books_agree`).  Every event keeps both books in step with what
was recorded: `Summaries.record` for the summaries and `Host.callCounters_step` for the counters.

A task for a name that is not known is put down nowhere and touches nothing.  A task for a name that
is known gets to the engine whatever the configuration says of it, and nothing is around its call
but the timing; so its outcome is the answer (`Alone.answers`).
-/

namespace LanguageHost

/-! ### Counters of calls -/

/-- The outcome that the labels of a series tell of. -/
def Series.outcome? (s : Series) : Option String :=
  (s.labels.find? fun l => l.1 = "outcome").map Prod.snd

namespace Metrics

variable {s : Series} {n : Nat} {values : List (Series × Nat)}

end Metrics

/-- The label of the outcome with which a task has come to its end. -/
def Completion.outcome (e : Completion) : String :=
  match e.result with
  | .ok _ => "ok"
  | .error err => err.label

/-- The counter that goes up when a task comes to its end. -/
def Completion.series (e : Completion) : Series := .calls e.runtime e.outcome

/-- The counters of calls after some tasks have come to their ends. -/
def counted (ended : List Completion) : List (Series × Nat) :=
  ended.foldl (fun values e => Metrics.change e.series (· + 1) values) []

section Counted

variable {ended : List Completion}

end Counted

/-! ### Summaries -/

/-- What is put in the place of an entry counts instead of it. -/
theorem Dict.sum_insert {α : Type} (d : Dict α) (f : α → Nat) (name : String) (a : α) :
    ((d.insert name a).entries.map fun e => f e.2).sum + (d.get? name).elim 0 f =
      (d.entries.map fun e => f e.2).sum + f a := by
  cases hold : d.get? name with
  | none =>
    have hnew := ((Dict.perm_insert hold a).map fun e => f e.2).sum_nat
    simp only [List.map_cons, List.sum_cons] at hnew
    rw [hnew, Option.elim_none]
    omega
  | some b =>
    have herase : (d.insert name a).erase name = d.erase name :=
      Dict.ext (SortedByName.erase_insert name a d.entries)
    have hget : (d.insert name a).get? name = some a := by rw [Dict.get?_insert, if_pos rfl]
    have hnew := ((Dict.perm_erase hget).map fun e => f e.2).sum_nat
    have hbefore := ((Dict.perm_erase hold).map fun e => f e.2).sum_nat
    simp only [herase, List.map_cons, List.sum_cons] at hnew hbefore
    rw [hnew, hbefore, Option.elim_some]
    omega

/-- The summaries of tasks that have come to their ends. -/
structure Summaries (table : Dict CallStats) (ended : List Completion) : Prop where
  calls : (table.entries.map fun e => e.2.calls).sum = ended.length
  errors : (table.entries.map fun e => e.2.errors).sum = ended.countP fun e => Host.failed e.result
  keys : ∀ key, key ∈ table.keys ↔ ∃ e ∈ ended, key = e.key
  bounded : ∀ e ∈ table.entries, e.2.errors ≤ e.2.calls

/-- One more task has come to its end. -/
theorem Summaries.record {p : Profiler} {ended : List Completion} (h : Summaries p.table ended)
    (e : Completion) (d : Duration) :
    Summaries (p.record e.runtime e.function d (Host.failed e.result)).table (ended ++ [e]) := by
  let s : CallStats := (p.table.get? e.key).getD (.opened e.runtime d)
  let s' : CallStats := s.add d (Host.failed e.result)
  have htable : (p.record e.runtime e.function d (Host.failed e.result)).table =
      p.table.insert e.key s' := rfl
  have hcalls : s.calls = (p.table.get? e.key).elim 0 CallStats.calls := by
    cases hs : p.table.get? e.key <;> simp [s, hs, CallStats.opened]
  have herrors : s.errors = (p.table.get? e.key).elim 0 CallStats.errors := by
    cases hs : p.table.get? e.key <;> simp [s, hs, CallStats.opened]
  have hadded : s'.calls = s.calls + 1 ∧
      s'.errors = s.errors + (if Host.failed e.result = true then 1 else 0) := by
    refine ⟨rfl, ?_⟩
    simp only [s', CallStats.add]
    split <;> rfl
  have hs : s.errors ≤ s.calls := by
    cases hs : p.table.get? e.key with
    | none => simp [s, hs, CallStats.opened]
    | some old =>
      simp only [s, hs, Option.getD_some]
      exact h.bounded _ (Dict.mem_entries_of_get? hs)
  rw [htable]
  refine ⟨?_, ?_, fun key => ?_, fun entry he => ?_⟩
  · have hsum := p.table.sum_insert CallStats.calls e.key s'
    rw [h.calls] at hsum
    rw [List.length_append, List.length_singleton]
    omega
  · have hsum := p.table.sum_insert CallStats.errors e.key s'
    rw [h.errors] at hsum
    rw [List.countP_append, List.countP_singleton]
    omega
  · rw [Dict.keys, Dict.insert, SortedByName.mem_keys_insert, ← Dict.keys, h.keys]
    simp only [List.mem_append, List.mem_singleton, or_and_right, exists_or, exists_eq_left]
    exact or_comm
  · rcases SortedByName.mem_insert he with rfl | he
    · simp only [hadded]
      split <;> omega
    · exact h.bounded entry he

namespace Host

variable {h h' : Host} {event : HostEvent} {es : List HostEvent} {token : Token}
variable {frames : List Frame} {c : CallId} {k : Call}

/-! ### What an event does to the counters -/

/-- Nothing is around a call but the timing of its task, and it is at no application function that was
called. -/
def Alone (k : Call) : Prop :=
  k.stage.isCalled = false ∧
    (k.frames = [] ∨ ∃ runtime function since, k.frames = [.tracked runtime function since])

/-- A call stays alone, and if it has an outcome it keeps it. -/
structure StaysAlone (k k' : Call) : Prop where
  alone : Alone k'
  outcome : ∀ result, k.stage = .over result → k'.stage = .over result

theorem StaysAlone.trans {k' k'' : Call} (h : StaysAlone k k') (h' : StaysAlone k' k'') :
    StaysAlone k k'' := ⟨h'.alone, fun result hk => h'.outcome result (h.outcome result hk)⟩

theorem Alone.turn {t : Turn} {k' : Call} (ha : Alone k) (ht : h.Turns k event t)
    (hframes : k'.frames = t.frames) (hstage : k'.stage = t.stage) : StaysAlone k k' := by
  obtain ⟨hback, halone⟩ := ha
  cases ht with
  | @pass f rest result hover hbefore =>
    obtain hnone | ⟨runtime, function, since, hone⟩ := halone
    · cases hbefore.symm.trans hnone
    · obtain ⟨rfl, rfl⟩ := List.cons.inj (hbefore.symm.trans hone)
      refine ⟨⟨by rw [hstage]; rfl, .inl hframes⟩, fun result' hresult => ?_⟩
      rw [hstage, ← hresult, hover]
      rfl
  | cut hnot hcut =>
    obtain hnone | ⟨runtime, function, since, hone⟩ := halone
    · rw [hnone] at hcut
      cases hcut
    · rw [hone] at hcut
      cases hcut
  | timeOut hnot hcut =>
    obtain hnone | ⟨runtime, function, since, hone⟩ := halone
    · rw [hnone] at hcut
      cases hcut
    · rw [hone] at hcut
      cases hcut
  | ends hevent hnot hquiet =>
    refine ⟨⟨by rw [hstage]; rfl, hframes.symm ▸ halone⟩, fun result hresult => ?_⟩
    rw [hresult] at hnot
    cases hnot
  | begins hcalled =>
    rw [hcalled] at hback
    cases hback

/-- No event puts anything else around a call that is alone. -/
theorem staysAlone_step (hlt : c < h.asked) (hs : h.step event = some h') : c < h'.asked ∧
    ∀ k', h'.call? c = some k' → ∃ k, h.call? c = some k ∧ (Alone k → StaysAlone k k') := by
  have hsame : h'.call? c = h.call? c →
      ∀ k', h'.call? c = some k' → ∃ k, h.call? c = some k ∧ (Alone k → StaysAlone k k') :=
    fun hcall k' hk' => ⟨k', hcall.symm.trans hk', fun ha => ⟨ha, fun _ h => h⟩⟩
  cases steps_of_step hs with
  | ask request token =>
    let later : Host := { h with asked := h.asked + 1 }
    have hreaches : later.Reaches (later.begin request token) := reaches_begin later request token
    have hasked : (h.ask request token).asked = h.asked + 1 := hreaches.asked_eq
    have hcalls : (later.begin request token).host.calls = h.calls := hreaches.calls_eq
    have hhead : ¬ h.asked = c := Nat.ne_of_gt hlt
    refine ⟨hasked ▸ Nat.lt_succ_of_lt hlt, hsame ?_⟩
    simp only [call?, ask, List.find?_cons, hhead, decide_false]
    exact congrArg _ hcalls
  | @turn _ j t _ hj ht hmoves =>
    have hasked : (settle t j).asked = h.asked := hmoves.asked_eq
    refine ⟨hasked ▸ hlt, ?_⟩
    by_cases hc : c = j.id
    · subst hc
      intro k' hk'
      obtain rfl := Option.some.inj ((call?_settle hj hmoves.calls_eq).symm.trans hk')
      exact ⟨j, hj, fun ha => ha.turn ht rfl rfl⟩
    · exact hsame (call?_settle_of_ne hc hmoves.calls_eq)
  | @drop _ j _ hj =>
    have hleave := becomes_leave h j.stage
    have hcall : (h.drop j).call? c = if j.id = c then none else h.call? c := by
      rw [call?, Host.drop, find?_filter_key_ne _ Call.id, hleave.calls_eq, call?]
    refine ⟨hleave.asked_eq.symm ▸ hlt, fun k' hk' => ?_⟩
    by_cases hid : j.id = c
    · rw [hcall, if_pos hid] at hk'
      cases hk'
    · exact hsame (hcall.trans (if_neg hid)) k' hk'
  | aside hevent hcalls hasked htasks hprofiler hprofile =>
    exact ⟨hasked.symm ▸ hlt, hsame (congrArg (List.find? _) hcalls)⟩

/-- A call that is alone stays so in every run. -/
theorem Alone.run (ha : Alone k) (hk : h.call? c = some k) (hlt : c < h.asked)
    (hr : h.run es = some h') :
    c < h'.asked ∧ ∀ k', h'.call? c = some k' → StaysAlone k k' :=
  plays.induction (motive := fun g => c < g.asked ∧ ∀ k', g.call? c = some k' → StaysAlone k k')
    ⟨hlt, fun k' hk' => by
      obtain rfl := Option.some.inj (hk.symm.trans hk')
      exact ⟨ha, fun _ h => h⟩⟩
    (fun g event g' _ ⟨hlt, hstays⟩ hs => by
      obtain ⟨hlt', hback⟩ := staysAlone_step hlt hs
      refine ⟨hlt', fun k'' hk'' => ?_⟩
      obtain ⟨k', hk', hnext⟩ := hback k'' hk''
      exact (hstays k' hk').trans (hnext (hstays k' hk').alone)) hr

/-- The outcome of a call that is alone is its answer, at once or when the call goes on. -/
theorem Alone.answers {result : Outcome Json} (ha : Alone k) (hk : h.call? c = some k)
    (hstage : k.stage = .over result) : h.answer? c = some result ∨
      ∃ next, h.step (.resume c) = some next ∧ next.answer? c = some result := by
  obtain ⟨-, rfl⟩ := mem_of_call? hk
  obtain ⟨-, hnone | ⟨runtime, function, since, hone⟩⟩ := ha
  · left
    obtain ⟨id, token, frames, stage, since⟩ := k
    obtain rfl : frames = [] := hnone
    obtain rfl : stage = .over result := hstage
    simp only [answer?, hk]
  · right
    have hresume : h.resume k =
        some (h.pass k.token (.tracked runtime function since) [] result) := by
      simp only [resume, hstage, hone]
    refine ⟨settle (h.pass k.token (.tracked runtime function since) [] result) k, ?_, ?_⟩
    · simp only [step, forCall, hk, hresume, Option.bind_eq_bind, Option.bind_some, Option.pure_def]
    · have hcall := call?_settle (t := h.pass k.token (.tracked runtime function since) [] result)
        hk rfl
      simp only [answer?, hcall]
      rfl

/-- A task for an engine that is not known fails at once and changes nothing. -/
theorem refuses {name : String} (hname : h.registry.get? name = none) (task : Task)
    (token : Token) :
    (h.ask (.dispatch name task) token).answer? h.asked = some (.error (.runtimeNotFound name)) ∧
      (h.ask (.dispatch name task) token).profiler = h.profiler ∧
      (h.ask (.dispatch name task) token).metrics = h.metrics ∧
      (h.ask (.dispatch name task) token).registry = h.registry ∧
      (h.ask (.dispatch name task) token).engines = h.engines := by
  let later : Host := { h with asked := h.asked + 1 }
  have hbegin : later.begin (.dispatch name task) token =
      ⟨later, [], .over (.error (.runtimeNotFound name))⟩ := by
    change later.dispatch name task token [] = _
    unfold dispatch
    rw [show later.registry.get? name = none from hname]
  refine ⟨?_, congrArg (fun t : Turn => t.host.profiler) hbegin,
    congrArg (fun t : Turn => t.host.metrics) hbegin,
    congrArg (fun t : Turn => t.host.registry) hbegin,
    congrArg (fun t : Turn => t.host.engines) hbegin⟩
  have hcall : (h.ask (.dispatch name task) token).call? h.asked =
      some ⟨h.asked, token, [], .over (.error (.runtimeNotFound name)), h.now⟩ := by
    simp only [ask]
    rw [show ({ h with asked := h.asked + 1 } : Host).begin (.dispatch name task) token = _ from
      hbegin]
    exact List.find?_cons_of_pos (by simp)
  simp only [answer?, hcall]

end Host

end LanguageHost
