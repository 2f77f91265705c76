import LanguageHost.Proofs.Host.Starts
import LanguageHost.Proofs.Keyed

/-!
# The starts that are under way in a host

The starts that are under way are the calls that prepare engines, at most one for each engine, and
every engine is one that its users have reached from the beginning: `Host.Tracked`.  Each event
keeps it so (`Host.tracked_step`), and hence every run (`Host.tracked_run`), where it is said which
starts were dropped while they were under way (`Host.droppedStart`).
-/

namespace LanguageHost

namespace Host

variable {h h' mid : Host} {r : EngineId} {e : Engine} {was is lost : EngineId → Bool}
variable {drops : Bool} {t : Turn} {c : CallId} {call : Call} {event : HostEvent}
variable {es : List HostEvent}

/-! ### Calls and their identities -/

theorem mem_of_call? (hc : h.call? c = some call) : call ∈ h.calls ∧ call.id = c :=
  ⟨List.mem_of_find?_eq_some hc, by simpa using List.find?_some hc⟩

theorem preparing_pos (hc : call ∈ h.calls) (hr : call.stage.prepares r = true) :
    0 < h.preparing r :=
  List.countP_pos_iff.mpr ⟨call, hc, hr⟩

/-- The calls that prepare an engine, one call beside the others. -/
theorem preparing_eq (hids : (h.calls.map Call.id).Nodup) (hc : call ∈ h.calls) :
    h.preparing r = (h.calls.filter fun k => k.id ≠ call.id).countP (fun k => k.stage.prepares r)
      + (call.stage.prepares r).toNat := by
  rw [preparing, (perm_cons_filter_key hids hc).countP_eq, List.countP_cons]
  cases call.stage.prepares r <;> rfl

theorem preparing_settle (hids : (h.calls.map Call.id).Nodup) (hc : call ∈ h.calls)
    (hcalls : t.host.calls = h.calls) :
    (settle t call).preparing r + (call.stage.prepares r).toNat =
      h.preparing r + (t.stage.prepares r).toNat := by
  have hsettled := map_key_perm
    (fun _ => ({ call with frames := t.frames, stage := t.stage, since := t.host.now } : Call))
    hids hc
  rw [preparing_eq hids hc, preparing, settle, hcalls, hsettled.countP_eq, List.countP_cons]
  cases t.stage.prepares r with
  | false => simp
  | true => simp; omega

theorem ids_settle (t : Turn) (call : Call) :
    (settle t call).calls.map Call.id = t.host.calls.map Call.id := by
  rw [settle, List.map_map]
  refine List.map_congr_left fun k _ => ?_
  simp only [Function.comp_apply]
  split
  · next hk => exact hk.symm
  · rfl

/-! ### Starts that are under way -/

/-- Every engine is one that its users have reached from the beginning: its start is under way while
a call prepares it, and it is said whether one was dropped. -/
structure Tracked (h : Host) (lost : EngineId → Bool) : Prop where
  ids_nodup : (h.calls.map Call.id).Nodup
  ids_lt : ∀ k ∈ h.calls, k.id < h.asked
  engines : ∀ r e, h.engine? r = some e →
    ∃ starting, EngineUsers.Reached e starting (lost r) ∧ h.preparing r = starting.toNat
  absent : ∀ r, h.engine? r = none → h.preparing r = 0 ∧ lost r = false

/-- A new host has its configuration and its memory, and nothing has happened to it. -/
theorem eq_of_new {config : HostConfig} (hnew : new config = .ok h) :
    h = { config, memory := .new config.memory .usual, now := 0, engines := [],
          registry := Dict.empty, enforcers := [], bridge := .empty, profiler := .new,
          metrics := .empty, scopes := 0, fired := [], asked := 0, calls := [], notes := [] } := by
  unfold new at hnew
  cases hvalid : config.validate with
  | error err =>
    rw [hvalid] at hnew
    cases hnew
  | ok =>
    rw [hvalid] at hnew
    cases hnew
    rfl

/-- A new host has no engines and no calls. -/
theorem tracked_new {config : HostConfig} (hnew : new config = .ok h) :
    h.Tracked fun _ => false := by
  obtain rfl := eq_of_new hnew
  exact ⟨.nil, nofun, fun r e he => by simp [engine?] at he, fun _ _ => ⟨rfl, rfl⟩⟩

/-- The starts that begin and end are those of the calls that come to prepare an engine and leave
that stage. -/
theorem Tracked.becomes (ht : h.Tracked lost) (hb : Becomes was is drops h mid)
    (hengines : h'.engines = mid.engines) (hnodup : (h'.calls.map Call.id).Nodup)
    (hlt : ∀ k ∈ h'.calls, k.id < h'.asked)
    (hwas : ∀ r, was r = true → 0 < h.preparing r)
    (hcount : ∀ r, h'.preparing r + (was r).toNat = h.preparing r + (is r).toNat) :
    h'.Tracked fun r => lost r || (drops && was r) := by
  have hsame : ∀ r, h'.engine? r = mid.engine? r := fun r => by rw [engine?, engine?, hengines]
  refine ⟨hnodup, hlt, fun r e' he' => ?_, fun r hnone => ?_⟩
  · obtain ⟨e, he, hshift⟩ := hb.engine_before (hsame r ▸ he')
    obtain ⟨starting, hreached, hprepares⟩ := ht.engines r e he
    -- A call that leaves the stage was counted there, so the start is under way that it ends.
    have hunder : was r = true → starting = true := fun hw => by
      have hpos := hwas r hw
      rw [hprepares] at hpos
      cases starting with
      | false => cases hpos
      | true => rfl
    obtain ⟨starting', hreached', hsum⟩ := hshift starting (lost r) hreached hunder
    refine ⟨starting', hreached', ?_⟩
    have hr := hcount r
    omega
  · have he : h.engine? r = none := hb.no_engine_before (hsame r ▸ hnone)
    obtain ⟨hzero, hlost⟩ := ht.absent r he
    -- No call prepares an engine that is not there.
    have hnot : was r = false := by
      by_contra hw
      have hpos := hwas r (by simpa using hw)
      omega
    have hr := hcount r
    rw [hnot, hb.absent r he, hzero] at hr
    exact ⟨hr, by rw [hlost, hnot, Bool.and_false, Bool.or_false]⟩

theorem Tracked.goes (ht : h.Tracked lost) (hg : h.Goes h') : h'.Tracked lost := by
  have hbecomes : Becomes (fun _ => false) (fun _ => false) false h h' := hg.becomes
  have htracked := ht.becomes hbecomes rfl (hg.calls_eq ▸ ht.ids_nodup)
    (fun k hk => hg.asked_eq ▸ ht.ids_lt k (hg.calls_eq ▸ hk)) nofun
    fun r => by rw [preparing, preparing, hg.calls_eq]
  simpa only [Bool.and_false, Bool.or_false] using htracked

/-- A call gets from one stage to another. -/
theorem Tracked.settle (ht : h.Tracked lost) (hc : h.call? c = some call)
    (hm : h.Moves call.stage t drops) :
    (settle t call).Tracked fun r => lost r || (drops && call.stage.prepares r) := by
  obtain ⟨hmem, -⟩ := mem_of_call? hc
  have hids : (Host.settle t call).calls.map Call.id = h.calls.map Call.id := by
    rw [ids_settle, hm.calls_eq]
  refine ht.becomes hm rfl (hids ▸ ht.ids_nodup) (fun k hk => ?_)
    (fun r hr => preparing_pos hmem hr)
    fun r => preparing_settle ht.ids_nodup hmem hm.calls_eq
  have hk' : k.id ∈ h.calls.map Call.id := hids ▸ List.mem_map_of_mem hk
  obtain ⟨j, hj, hjk⟩ := List.mem_map.mp hk'
  rw [← hjk]
  exact Nat.lt_of_lt_of_eq (ht.ids_lt j hj) hm.asked_eq.symm

/-- A call comes. -/
theorem Tracked.ask (ht : h.Tracked lost) (request : Request) (token : Token) :
    (h.ask request token).Tracked lost := by
  let later : Host := { h with asked := h.asked + 1 }
  have hlater : later.Tracked lost :=
    ⟨ht.ids_nodup, fun k hk => Nat.lt_succ_of_lt (ht.ids_lt k hk), ht.engines, ht.absent⟩
  have hb : later.Reaches (later.begin request token) := reaches_begin _ _ _
  have hcalls : (later.begin request token).host.calls = h.calls := hb.calls_eq
  have hasked : (h.ask request token).asked = h.asked + 1 := hb.asked_eq
  have hnodup : ((h.ask request token).calls.map Call.id).Nodup := by
    change (h.asked :: (later.begin request token).host.calls.map Call.id).Nodup
    rw [hcalls]
    refine List.nodup_cons.mpr ⟨fun hmem => ?_, ht.ids_nodup⟩
    obtain ⟨k, hk, hid⟩ := List.mem_map.mp hmem
    have hlt := ht.ids_lt k hk
    rw [hid] at hlt
    exact Nat.lt_irrefl _ hlt
  have hlt : ∀ k ∈ (h.ask request token).calls, k.id < (h.ask request token).asked := by
    intro k hk
    rw [hasked]
    rcases List.mem_cons.mp hk with rfl | hk
    · exact Nat.lt_succ_self _
    · exact Nat.lt_succ_of_lt (ht.ids_lt k (hcalls ▸ hk))
  have hcount : ∀ r, (h.ask request token).preparing r + 0 =
      h.preparing r + ((later.begin request token).stage.prepares r).toNat := by
    intro r
    change List.countP _ (_ :: (later.begin request token).host.calls) + 0 = _
    rw [hcalls, List.countP_cons, preparing]
    cases (later.begin request token).stage.prepares r <;> rfl
  have hengines : (h.ask request token).engines = (later.begin request token).host.engines := rfl
  have htracked := hlater.becomes hb hengines hnodup hlt nofun hcount
  simpa only [Bool.false_and, Bool.or_false] using htracked

/-- A caller goes away. -/
theorem Tracked.drop (ht : h.Tracked lost) (hc : h.call? c = some call) :
    (h.drop call).Tracked fun r => lost r || call.stage.prepares r := by
  obtain ⟨hmem, -⟩ := mem_of_call? hc
  have hb := becomes_leave h call.stage
  have hcalls : (h.drop call).calls = h.calls.filter fun k => k.id ≠ call.id := by
    rw [Host.drop, hb.calls_eq]
  have hnodup : ((h.drop call).calls.map Call.id).Nodup := by
    rw [hcalls]
    exact ht.ids_nodup.sublist (List.filter_sublist.map _)
  have hlt : ∀ k ∈ (h.drop call).calls, k.id < (h.drop call).asked := by
    intro k hk
    rw [hcalls] at hk
    exact Nat.lt_of_lt_of_eq (ht.ids_lt k (List.mem_of_mem_filter hk)) hb.asked_eq.symm
  have hcount : ∀ r, (h.drop call).preparing r + (call.stage.prepares r).toNat =
      h.preparing r + 0 := by
    intro r
    rw [preparing_eq ht.ids_nodup hmem, preparing, hcalls]
    rfl
  have hengines : (h.drop call).engines = (h.leave call.stage).engines := rfl
  have htracked := ht.becomes hb hengines hnodup hlt (fun r hr => preparing_pos hmem hr) hcount
  simpa only [Bool.true_and] using htracked

/-- An engine that nobody has used is added. -/
theorem Tracked.make (ht : h.Tracked lost) (hnew : e.lifecycle = .new e.name)
    (guard? : Option EnforcerId) : (h.make e guard?).2.Tracked lost := by
  refine ⟨ht.ids_nodup, ht.ids_lt, fun r e' he' => ?_, fun r hnone => ht.absent r ?_⟩
  · simp only [engine?, Host.make, List.getElem?_append] at he'
    split at he'
    · exact ht.engines r e' he'
    · next hlen =>
      have habsent : h.engine? r = none := by
        rw [engine?, List.getElem?_eq_none (by omega), Option.map_none]
      obtain ⟨hzero, hlost⟩ := ht.absent r habsent
      obtain ⟨g, hg, rfl⟩ := Option.map_eq_some_iff.mp he'
      obtain rfl : g = ⟨e, guard?⟩ := by simpa using List.mem_of_getElem? hg
      refine ⟨false, ?_, hzero⟩
      rw [hlost]
      exact EngineUsers.reached_new hnew
  · simp only [engine?, Host.make, Option.map_eq_none_iff, List.getElem?_eq_none_iff,
      List.length_append] at hnone
    rw [engine?, List.getElem?_eq_none (by omega), Option.map_none]

/-! ### Starts that are dropped -/

/-- Whether an event drops the start of an engine that is under way. -/
def dropsStart (h : Host) (r : EngineId) : HostEvent → Bool
  | .timeOut c | .drop c => (h.call? c).any fun k => k.stage.prepares r
  | .resume c =>
    (h.call? c).any fun k => (cutRace h.hasFired k.frames).isSome && k.stage.prepares r
  | _ => false

/-- Whether a start of an engine is dropped in the course of a run. -/
def droppedStart (h : Host) (r : EngineId) : List HostEvent → Bool
  | [] => false
  | e :: rest => h.dropsStart r e || (h.step e).any fun h => h.droppedStart r rest

/-- A call does something. -/
theorem Tracked.forCall {f : Call → Option Turn} (moved : Call → Bool) (ht : h.Tracked lost)
    (hf : ∀ call t, f call = some t → h.Moves call.stage t (moved call))
    (hs : h.forCall c f = some h') :
    h'.Tracked fun r => lost r || (h.call? c).any fun k => moved k && k.stage.prepares r := by
  simp only [Host.forCall, Option.bind_eq_bind, Option.bind_eq_some_iff, Option.pure_def,
    Option.some.injEq] at hs
  obtain ⟨call, hc, t, hturn, rfl⟩ := hs
  rw [hc]
  exact ht.settle hc (hf call t hturn)

/-- A call does something that drops no start. -/
theorem Tracked.forCall_of_kept {f : Call → Option Turn} (ht : h.Tracked lost)
    (hf : ∀ call t, f call = some t → h.Moves call.stage t false)
    (hs : h.forCall c f = some h') : h'.Tracked lost := by
  have htracked := ht.forCall (fun _ => false) hf hs
  have hnone : ∀ call? : Option Call, (call?.any fun _ => false) = false := fun call? => by
    cases call? <;> rfl
  simpa only [Bool.false_and, hnone, Bool.or_false] using htracked

/-- Every event keeps track of the starts. -/
theorem tracked_step (ht : h.Tracked lost)
    (hmade : ∀ e guard?, event = .make e guard? → e.lifecycle = .new e.name)
    (hs : h.step event = some h') : h'.Tracked fun r => lost r || h.dropsStart r event := by
  -- Most events drop nothing.
  have hkept : h'.Tracked lost → h'.Tracked fun r => lost r || false := fun hkept => by
    simpa only [Bool.or_false] using hkept
  cases event with
  | ask request token =>
    cases hs
    exact hkept (ht.ask request token)
  | fire token =>
    cases hs
    exact hkept (ht.goes (goes_fire h token))
  | resume c => exact ht.forCall _ (fun _ _ => moves_resume) hs
  | timeOut c =>
    have htracked := ht.forCall (fun _ => true) (fun _ _ => moves_timeOut) hs
    simp only [Bool.true_and] at htracked
    exact htracked
  | drop c =>
    obtain ⟨call, hc, rfl⟩ := Option.map_eq_some_iff.mp hs
    simp only [dropsStart, hc]
    exact ht.drop hc
  | acted c result => exact hkept (ht.forCall_of_kept (fun _ _ => moves_acted) hs)
  | prepared c report => exact hkept (ht.forCall_of_kept (fun _ _ => moves_prepared) hs)
  | returned c => exact hkept (ht.forCall_of_kept (fun _ _ => moves_returned) hs)
  | finished c result => exact hkept (ht.forCall_of_kept (fun _ _ => moves_finished) hs)
  | panicked c =>
    obtain ⟨call, f, token, args, hc, hstage, rfl⟩ := of_step_panicked hs
    refine hkept ?_
    have htracked := ht.drop hc
    rcases hstage with hstage | hstage <;>
      simpa only [hstage, Stage.prepares, Bool.or_false] using htracked
  | pool r pe =>
    simp only [step] at hs
    split at hs
    · next hinner =>
      have hwithin : pe.isWithin = true := by cases pe <;> first | rfl | cases hinner
      exact hkept (ht.goes (goes_forEngine (fun _ _ => Engine.goes_poolStep hwithin) hs))
    · cases hs
  | workEnds r ticket report =>
    exact hkept (ht.goes (goes_forEngine (fun _ _ => Engine.goes_workEnds) hs))
  | make e guard? =>
    cases hs
    exact hkept (ht.make (hmade e guard? rfl) guard?)
  | register r =>
    cases hs
    refine hkept (ht.goes ?_)
    unfold register
    split
    · exact Goes.refl h
    · split
      · exact Goes.refl h
      · exact goes_of_eq rfl rfl rfl
  | wait time =>
    simp only [step] at hs
    split at hs
    · cases hs
      exact hkept (ht.goes (goes_wait h time))
    · cases hs
  | _ =>
    cases hs
    exact hkept (ht.goes (goes_of_eq rfl rfl rfl))

theorem tracked_run (ht : h.Tracked lost)
    (hmade : ∀ e guard?, .make e guard? ∈ es → e.lifecycle = .new e.name)
    (hr : h.run es = some h') : h'.Tracked fun r => lost r || h.droppedStart r es := by
  induction es generalizing h lost with
  | nil =>
    cases hr
    simpa only [droppedStart, Bool.or_false] using ht
  | cons event es ih =>
    obtain ⟨next, hs, hrest⟩ := Option.bind_eq_some_iff.mp hr
    have hnext := tracked_step ht
      (fun e guard? he => hmade e guard? (he ▸ List.mem_cons_self)) hs
    have hlast := ih hnext (fun e guard? he => hmade e guard? (List.mem_cons_of_mem _ he)) hrest
    simpa only [droppedStart, hs, Option.any_some, Bool.or_assoc] using hlast

end Host

end LanguageHost
