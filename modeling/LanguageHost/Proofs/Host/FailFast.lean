import LanguageHost.Proofs.ByteOrder
import LanguageHost.Proofs.Host.StartingInOrder

/-!
# Starting stops at the first failure

`Host.fails_fast` puts together what a start of all engines does, wherever its call stands and
however other requests go on in between.  The entries of the configuration that are enabled are
begun with in the order of the octets of their names, each at most once; every engine of which
there is an entry behind another one was told to start only after all engines in front of it had
succeeded; and the answer says how far that came.  Nothing is taken back: the names stay registered,
and an engine that has replied is left alone.
-/

namespace LanguageHost

namespace StartCourse

variable {before now : Dict EngineId} {entries : List (String × RuntimeSettings)}
variable {os : List Order} {ps : List Reply} {frames : List Frame} {stage : Stage}
variable {result : Outcome Json}

/-- An order without a reply is what the call waits for. -/
theorem waits_of_open {o : Order} {entry : String × RuntimeSettings}
    (hc : StartCourse before now entries os ps frames stage) (ho : os[ps.length]? = some o)
    (hentry : entries[ps.length]? = some entry) :
    ∃ rest, frames = [startFrame o.time entry rest] ∧ stage.awaitsEngine = true := by
  induction hc with
  | finished => cases ho
  | missing => cases ho
  | @waits entry' rest o' ho' hprogress =>
    obtain rfl : o' = o := Option.some.inj ho
    obtain rfl : entry' = entry := Option.some.inj hentry
    exact ⟨rest, rfl, Host.awaits_of_progress hprogress⟩
  | replied => cases ho
  | failed => cases ho
  | next _ _ _ _ ih => exact ih ho hentry

/-- A reply that comes late comes after the limit of its entry. -/
theorem fits (hc : StartCourse before now entries os ps frames stage) :
    List.Forall₂ (fun (started : (String × RuntimeSettings) × Order) p =>
      Reply.Fits p started.2 started.1.2) ((entries.zip os).take ps.length) ps := by
  induction hc with
  | finished => exact .nil
  | missing => exact .nil
  | waits => exact .nil
  | replied _ hp => exact .cons hp .nil
  | failed _ hp => exact .cons hp .nil
  | next _ hp _ _ ih => exact .cons hp ih

end StartCourse

/-- A start has gone well where there is an order and a reply for every entry, and every engine has
succeeded. -/
theorem StartEnds.ok_iff {before : Dict EngineId} {entries : List (String × RuntimeSettings)}
    {os : List Order} {ps : List Reply} {result : Outcome Json}
    (hends : StartEnds before entries os ps result) : result = .ok .null ↔
      os.length = entries.length ∧ ps.length = entries.length ∧ ∀ p ∈ ps, p.Succeeds := by
  cases hends with
  | all horders hreplies hok => exact ⟨fun _ => ⟨horders, hreplies, hok⟩, fun _ => rfl⟩
  | missing done hentries horders =>
    refine ⟨nofun, fun ⟨hlen, _⟩ => ?_⟩
    rw [horders, hentries, List.length_append, List.length_cons] at hlen
    omega
  | failed done ps' hentries horders hreplies hdone hok herr =>
    refine ⟨nofun, fun ⟨_, _, hall⟩ => ?_⟩
    obtain ⟨v, hv⟩ := hall _ (hreplies ▸ List.mem_append_right _ (List.mem_singleton_self _))
    cases herr.symm.trans hv

namespace Host

variable {h h' g mid next : Host} {k : Call} {c : CallId} {token : Token} {es : List HostEvent}
variable {event : HostEvent} {os : List Order} {ps : List Reply} {config : HostConfig} {h₀ : Host}
variable {es₀ : List HostEvent}

/-! ### What an event about a start leaves alone -/

/-- An event about a start leaves the registry alone, and all engines but the one that it tells to
start and the one whose preparations come to their end by it: so it leaves every engine alone that
has replied. -/
structure StartSpares (h : Host) (c : CallId) (os : List Order) (ps : List Reply)
    (event : HostEvent) (h' : Host) : Prop where
  registry_eq : h'.registry = h.registry
  others : ∀ r, (∀ o, h.order? event = some o → o.engine ≠ r) →
    (∀ k, h.call? c = some k → k.stage.prepares r = false) → h'.engines[r]? = h.engines[r]?
  started : ∀ i o, i < ps.length → os[i]? = some o →
    h'.engines[o.engine]? = h.engines[o.engine]?

/-- The caller of a start goes away. -/
theorem engines_drop {before now : Dict EngineId} {entries : List (String × RuntimeSettings)}
    (hc : StartCourse before now entries os ps k.frames k.stage) (hk : h.call? k.id = some k)
    (hs : h.step (.drop k.id) = some h') : h'.engines = h.engines := by
  obtain ⟨j, hj, rfl⟩ := Option.map_eq_some_iff.mp hs
  obtain rfl : k = j := Option.some.inj (hk.symm.trans hj)
  have hleave : h.leave k.stage = h := by
    refine leave_of_not_pooled fun r ticket hstage => ?_
    rcases hc.stands with ⟨-, result, hover⟩ | ⟨o, -, -, -, -, hover | ⟨-, hawaits⟩⟩
    · cases hstage.symm.trans hover
    · obtain ⟨result, hover⟩ := hover
      cases hstage.symm.trans hover
    · rw [hstage] at hawaits
      cases hawaits
  rw [drop, hleave]

theorem startSpares_ask (h : Host) (token : Token) :
    h.StartSpares h.asked [] [] (.ask .start token) (h.ask .start token) where
  registry_eq :=
    (gives_begin { h with asked := h.asked + 1 } h.asked .start token).tells.registry_eq
  others := fun _ hr _ =>
    engines_startNext (h := { h with asked := h.asked + 1 }) (fun o ho => hr o ho) []
  started := nofun

/-- The entries that are started have distinct names. -/
theorem names_nodup (config : HostConfig) : (config.enabledRuntimes.map Prod.fst).Nodup :=
  config.languages.keys_nodup.sublist (List.filter_sublist.map Prod.fst)

theorem StartGoesOn.spares {ps' : List Reply} {frames : List Frame}
    {stage : Stage} (hg : h.StartGoesOn mid os ps k.frames k.stage)
    (hnext : h.StartGoesOn next (os ++ (mid.order? event).toList) ps' frames stage)
    (hk : mid.call? k.id = some k) (hevent : event.call? = some k.id)
    (hs : mid.step event = some next) : mid.StartSpares k.id os ps event next := by
  have honce : ((os ++ (mid.order? event).toList).map Order.engine).Nodup :=
    hnext.course.engines_nodup (names_nodup h.config) fun _ _ _ => hnext.named.inj
  have hregistry : next.registry = mid.registry := by
    cases obeys_of_step hs with
    | tells htells => exact htells.registry_eq
    | make => cases hevent
    | register => cases hevent
  rcases turn_of_step hs hevent with ⟨hleaves, -⟩ | ⟨j, t, hj, -, ht, rfl, -⟩
  · have hleft : next.engines = mid.engines :=
      engines_drop hg.course hk (step_drop_of_leaves hleaves hs)
    exact ⟨hregistry, fun r _ _ => by rw [hleft], fun i o _ _ => by rw [hleft]⟩
  · obtain rfl : k = j := Option.some.inj (hk.symm.trans hj)
    exact ⟨hregistry,
      fun r horder hnot => hg.course.leaves rfl rfl hk hevent ht (hnot k hk) horder,
      fun i o hi ho => hg.course.leaves_replied hk hevent ht honce hi ho⟩

/-- In a run, an event about a start leaves alone what it should. -/
theorem startSpares_run (hn : h.Named) {before : List HostEvent}
    (hr : h.run (.ask .start token :: before) = some mid) (hs : mid.step event = some next)
    (hevent : event.call? = some h.asked) :
    mid.StartSpares h.asked (h.ordersOf (.ask .start token :: before) h.asked)
      (h.repliesOf (.ask .start token :: before) h.asked) event next := by
  obtain ⟨k, hk, hid⟩ : ∃ k, mid.call? h.asked = some k ∧ k.id = h.asked := by
    rcases turn_of_step hs hevent with ⟨hleaves, -⟩ | ⟨k, -, hk, hid, -⟩
    · obtain ⟨k, hk, -⟩ := Option.map_eq_some_iff.mp (step_drop_of_leaves hleaves hs)
      exact ⟨k, hk, (mem_of_call? hk).2⟩
    · exact ⟨k, hk, hid⟩
  obtain ⟨frames, stage, hgoes, hcall⟩ := startGoesOn_run hn hr
  obtain ⟨rfl, rfl⟩ := hcall k hk
  have hlonger : h.run (.ask .start token :: (before ++ [event])) = some next :=
    plays.concat_eq_some.mpr ⟨mid, hr, hs⟩
  obtain ⟨frames', stage', hnext, -⟩ := startGoesOn_run hn hlonger
  rw [← List.cons_append, (logsOf_concat hr (by rw [hevent, Option.getD_some])).1] at hnext
  exact hid ▸ hgoes.spares hnext (hid.symm ▸ hk) (hid.symm ▸ hevent) hs

/-! ### The answer -/

/-- What a start that came to `h` has done when `es` have followed it: these orders were given for
it, and these replies came to it. -/
structure FailsFast (h : Host) (token : Token) (es : List HostEvent) (g : Host) (os : List Order)
    (ps : List Reply) : Prop where
  /-- The entries that are to be started, in the order of the octets of their names. -/
  sorted : (h.config.enabledRuntimes.map Prod.fst).Pairwise fun a b => octets a < octets b
  enabled : ∀ name settings, (name, settings) ∈ h.config.enabledRuntimes ↔
    h.config.languages.get? name = some settings ∧ settings.enabled = true
  /-- The first of them were begun with, each as its entry says. -/
  begun : List.Forall₂ (fun entry o => o.Starts g.registry entry)
    (h.config.enabledRuntimes.take os.length) os
  once : (os.map Order.engine).Nodup
  /-- The engines were told so, and none was told anything that is not in the log of the run. -/
  told : g.told = ((h.orders (.ask .start token :: es)).map fun o => (o.engine, o.op)).reverse ++
    h.told
  /-- Every engine but the last one has replied that it has succeeded. -/
  inTurn : ps.length ≤ os.length ∧ os.length ≤ ps.length + 1 ∧
    ∀ i p, i + 1 < os.length → ps[i]? = some p → p.Succeeds
  fits : List.Forall₂ (fun (started : (String × RuntimeSettings) × Order) p =>
    Reply.Fits p started.2 started.1.2) ((h.config.enabledRuntimes.zip os).take ps.length) ps
  ends : ∀ result, g.answer? h.asked = some result →
    StartEnds h.registry h.config.enabledRuntimes os ps result
  ok_iff : ∀ result, g.answer? h.asked = some result → (result = .ok .null ↔
    os.length = h.config.enabledRuntimes.length ∧ ps.length = h.config.enabledRuntimes.length ∧
      ∀ p ∈ ps, p.Succeeds)
  /-- No event about the start takes anything back. -/
  spares : ∀ before event after mid next, es = before ++ event :: after →
    h.run (.ask .start token :: before) = some mid → mid.step event = some next →
    event.call? = some h.asked →
    mid.StartSpares h.asked (h.ordersOf (.ask .start token :: before) h.asked)
      (h.repliesOf (.ask .start token :: before) h.asked) event next
  spares_ask : h.StartSpares h.asked [] [] (.ask .start token) (h.ask .start token)
  /-- An engine that has not replied when its limit is over can be given up. -/
  late : ∀ k o entry limit, g.call? h.asked = some k → os[ps.length]? = some o →
    h.config.enabledRuntimes[ps.length]? = some entry → entry.2.timeout? = some limit →
    o.time + limit.toMillis ≤ g.now → ∃ g', g.run [.timeOut h.asked, .resume h.asked] = some g' ∧
      g'.answer? h.asked =
        some (.error (.initializationFailed entry.1 (.initTimeout limit)))
  /-- Whatever the engines answer, the start comes to its end. -/
  finishes : ∀ answers k, g.call? h.asked = some k →
    ∃ own g' result, (∀ event ∈ own, GoesBy answers h.asked event) ∧ g.run own = some g' ∧
      g'.answer? h.asked = some result

/-- The limit on a start is over before the engine has replied, and the start fails with that. -/
theorem late_of_awaits {time : Nat} {entry : String × RuntimeSettings} {limit : Duration}
    {rest : List (String × RuntimeSettings)} (hk : h.call? k.id = some k)
    (hframes : k.frames = [startFrame time entry rest]) (hstage : k.stage.awaitsEngine = true)
    (hlimit : entry.2.timeout? = some limit) (hover : time + limit.toMillis ≤ h.now) :
    ∃ h', h.run [.timeOut k.id, .resume k.id] = some h' ∧ h'.answer? k.id =
      some (.error (.initializationFailed entry.1 (.initTimeout limit))) := by
  let frames : List Frame := [startFrame time entry rest]
  let t : Turn := ⟨h.leave k.stage, frames, .over (.error (.initTimeout limit))⟩
  have hcut : cutStart h.now k.frames = some (limit, frames) := by
    simp only [hframes, frames, startFrame, hlimit, Option.map_some, cutStart, if_pos hover]
  have ht : h.timeOut k = some t := by
    unfold timeOut
    split
    · next result hresult =>
      rw [hresult] at hstage
      cases hstage
    · rw [hcut, Option.map_some]
  have hs : h.step (.timeOut k.id) = some (settle t k) := step_forCall hk ht
  let k' : Call := { k with frames, stage := t.stage, since := t.host.now }
  have hk' : (settle t k).call? k'.id = some k' := call?_settle hk (moves_timeOut ht).calls_eq
  let t' : Turn := ⟨settle t k, [],
    .over (.error (.initializationFailed entry.1 (.initTimeout limit)))⟩
  have ht' : (settle t k).resume k' = some t' := rfl
  have hs' : (settle t k).step (.resume k.id) = some (settle t' k') := step_resume (k := k') hk' ht'
  refine ⟨settle t' k', plays.cons_eq_some.mpr ⟨_, hs, plays.cons_eq_some.mpr ⟨_, hs', rfl⟩⟩, ?_⟩
  have hanswer : (settle t' k').call? k.id =
      some { k' with frames := t'.frames, stage := t'.stage, since := t'.host.now } :=
    call?_settle hk' (moves_resume ht').calls_eq
  exact answer?_of_call? hanswer rfl rfl

/-- A start goes through the enabled entries in the order of their names and stops at the first
failure, whatever the engines answer and whatever else happens in between. -/
theorem fails_fast (hnew : Host.new config = .ok h₀) (hbefore : h₀.run es₀ = some h)
    (hr : h.run (.ask .start token :: es) = some g) :
    h.FailsFast token es g (h.ordersOf (.ask .start token :: es) h.asked)
      (h.repliesOf (.ask .start token :: es) h.asked) := by
  have hn : h.Named := named_run (named_new hnew) hbefore
  obtain ⟨frames, stage, hgoes, hcall⟩ := startGoesOn_run hn hr
  have hends : ∀ result, g.answer? h.asked = some result → StartEnds h.registry
      h.config.enabledRuntimes (h.ordersOf (.ask .start token :: es) h.asked)
      (h.repliesOf (.ask .start token :: es) h.asked) result := by
    intro result hanswer
    obtain ⟨k, hk, hframes, hstage⟩ := call?_of_answer? hanswer
    obtain ⟨rfl, rfl⟩ := hcall k hk
    exact hgoes.course.ends hframes hstage
  refine ⟨?_, ?_, hgoes.course.orders_prefix, ?_, told_of_run hr, hgoes.course.replies_of_orders,
    hgoes.course.fits, hends, fun result hanswer => (hends result hanswer).ok_iff, ?_,
    startSpares_ask h token, ?_, ?_⟩
  · have hsorted := h.config.languages.sorted.sublist
      (List.filter_sublist (p := fun e => e.2.enabled).map Prod.fst)
    exact hsorted.imp fun hlt => (octets_lt_iff _ _).mpr hlt
  · intro name settings
    rw [HostConfig.enabledRuntimes, List.mem_filter, Dict.mem_entries_iff]
  · exact hgoes.course.engines_nodup (names_nodup h.config) fun _ _ _ => hgoes.named.inj
  · rintro before event after mid next rfl hmid hs hevent
    exact startSpares_run hn hmid hs hevent
  · intro k o entry limit hk ho hentry hlimit hover
    obtain ⟨rfl, rfl⟩ := hcall k hk
    obtain ⟨rest, hframes, hstage⟩ := hgoes.course.waits_of_open ho hentry
    have hid : k.id = h.asked := (mem_of_call? hk).2
    exact hid ▸ late_of_awaits (hid.symm ▸ hk) hframes hstage hlimit hover
  · intro answers k hk
    obtain ⟨rfl, rfl⟩ := hcall k hk
    have hid : k.id = h.asked := (mem_of_call? hk).2
    rw [← hid] at hk ⊢
    rcases hgoes.course.stands with ⟨hnil, result, hover⟩ |
      ⟨o, entry, rest, hf, ho, hover | ⟨hstage, hawaits⟩⟩
    · exact ⟨[], g, result, List.forall_mem_nil _, rfl, answer?_of_call? hk hnil hover⟩
    · exact finishes_of_round answers hk hf rfl (.inl hover)
    · refine finishes_of_round answers hk hf rfl (.inr ⟨hawaits, fun r hr => ?_⟩)
      obtain ⟨rfl, -⟩ := prepares_stageOf_iff.mp (hstage ▸ hr)
      obtain ⟨e, he, -⟩ := hgoes.named entry.1 o.engine ho.engine
      exact ⟨e, he⟩

/-- Three entries are enabled; the first engine succeeds, the second runs out of time, and so the
third is not begun with. -/
theorem fails_fast_after_timeOut :
    ∃ h₀ h g os ps, Host.new ((((default : HostConfig).enable "c" "1").enable "b" "1").enable
        "a" "1") = .ok h₀ ∧
      h₀.run [.make (.foreign "a" "1") none, .register 0, .make (.foreign "b" "1") none,
        .register 1, .make (.foreign "c" "1") none, .register 2] = some h ∧
      h.run [.ask .start (.root 0), .acted 0 (.ok .null), .resume 0, .wait 30000, .timeOut 0,
        .resume 0] = some g ∧
      os.map Order.engine = [0, 1] ∧ ps.map Reply.late? = [none, some (.ofSecs 30)] ∧
      h.FailsFast (.root 0) [.acted 0 (.ok .null), .resume 0, .wait 30000, .timeOut 0, .resume 0]
        g os ps ∧
      g.answer? 0 = some (.error (.initializationFailed "b" (.initTimeout (.ofSecs 30)))) ∧
      StartEnds h.registry h.config.enabledRuntimes os ps
        (.error (.initializationFailed "b" (.initTimeout (.ofSecs 30)))) := by
  obtain ⟨h₀, h, g, hnew, hbefore, hr, hasked, hengines, hlate, hanswer⟩ :
      ∃ h₀ h g, Host.new ((((default : HostConfig).enable "c" "1").enable "b" "1").enable
          "a" "1") = .ok h₀ ∧
        h₀.run [.make (.foreign "a" "1") none, .register 0, .make (.foreign "b" "1") none,
          .register 1, .make (.foreign "c" "1") none, .register 2] = some h ∧
        h.run [.ask .start (.root 0), .acted 0 (.ok .null), .resume 0, .wait 30000, .timeOut 0,
          .resume 0] = some g ∧ h.asked = 0 ∧
        (h.ordersOf [.ask .start (.root 0), .acted 0 (.ok .null), .resume 0, .wait 30000,
          .timeOut 0, .resume 0] 0).map Order.engine = [0, 1] ∧
        (h.repliesOf [.ask .start (.root 0), .acted 0 (.ok .null), .resume 0, .wait 30000,
          .timeOut 0, .resume 0] 0).map Reply.late? = [none, some (.ofSecs 30)] ∧
        g.answer? 0 =
          some (.error (.initializationFailed "b" (.initTimeout (.ofSecs 30)))) :=
    ⟨_, _, _, rfl, rfl, rfl, rfl, rfl, rfl, rfl⟩
  have hfast := fails_fast hnew hbefore hr
  rw [hasked] at hfast
  exact ⟨h₀, h, g, _, _, hnew, hbefore, hr, hengines, hlate, hfast, hanswer,
    hfast.ends _ (hasked.symm ▸ hanswer)⟩

end Host

end LanguageHost
