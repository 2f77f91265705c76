import LanguageHost.Proofs.Host.Rounds

/-!
# Starting all engines

A start of all engines goes through the entries of the configuration that are enabled, in the order
of their names.  It looks up the engine of an entry, tells it to start and waits for the reply; it
ends with the first entry that is not registered or that fails.

`StartCourse` says how far a start has come with its entries, by the orders that were given for it
and the replies that came to it.  Every event keeps it so (`StartCourse.turn` for an event about the
call, and no other event matters).
-/

namespace LanguageHost

/-- An engine was told to start as an entry of the configuration says. -/
structure Order.Starts (o : Order) (registry : Dict EngineId) (entry : String × RuntimeSettings) :
    Prop where
  engine : registry.get? entry.1 = some o.engine
  op : o.op = .start entry.2

/-- A reply comes late only if the limit that the settings set was over since the order. -/
def Reply.Fits (p : Reply) (o : Order) (settings : RuntimeSettings) : Prop :=
  ∀ limit, p.late? = some limit → settings.timeout? = some limit ∧
    o.time + limit.toMillis ≤ p.time ∧ p.result = .error (.initTimeout limit)

/-- A start or a stop of an engine that has succeeded. -/
def Reply.Succeeds (p : Reply) : Prop := ∃ v, p.result = .ok v

/-- What is left to do around the start of an engine. -/
def startFrame (time : Nat) (entry : String × RuntimeSettings)
    (rest : List (String × RuntimeSettings)) : Frame :=
  .starting entry.1 (entry.2.timeout?.map fun d => ⟨time + d.toMillis, d⟩) rest

/-- How far a start has come with the entries that are left, where these names were registered when
it came and these are now: by its orders, the replies to it and where its call stands. -/
inductive StartCourse (before now : Dict EngineId) : List (String × RuntimeSettings) →
    List Order → List Reply → List Frame → Stage → Prop where
  /-- There is nothing left to start. -/
  | finished : StartCourse before now [] [] [] [] (.over (.ok .null))
  /-- Nothing is registered under a name. -/
  | missing {entry : String × RuntimeSettings} {rest : List (String × RuntimeSettings)}
      (hname : before.get? entry.1 = none) :
      StartCourse before now (entry :: rest) [] [] []
        (.over (.error (.runtimeNotRegistered entry.1)))
  /-- An engine was told to start and has not replied. -/
  | waits {entry : String × RuntimeSettings} {rest : List (String × RuntimeSettings)} {o : Order}
      (ho : o.Starts now entry)
      (hprogress : o.progress = .acting ∨ o.progress = .preparing entry.2) :
      StartCourse before now (entry :: rest) [o] [] [startFrame o.time entry rest]
        (Host.stageOf o.engine o.op o.progress)
  /-- An engine has replied. -/
  | replied {entry : String × RuntimeSettings} {rest : List (String × RuntimeSettings)} {o : Order}
      {p : Reply} (ho : o.Starts now entry) (hp : p.Fits o entry.2) :
      StartCourse before now (entry :: rest) [o] [p] [startFrame o.time entry rest]
        (.over p.result)
  /-- An engine has failed to start. -/
  | failed {entry : String × RuntimeSettings} {rest : List (String × RuntimeSettings)} {o : Order}
      {p : Reply} {err : HostError} (ho : o.Starts now entry) (hp : p.Fits o entry.2)
      (herr : p.result = .error err) :
      StartCourse before now (entry :: rest) [o] [p] []
        (.over (.error (.initializationFailed entry.1 err)))
  /-- An engine was started, and then the rest. -/
  | next {entry : String × RuntimeSettings} {rest : List (String × RuntimeSettings)} {o : Order}
      {p : Reply} {os : List Order} {ps : List Reply} {frames : List Frame} {stage : Stage}
      (ho : o.Starts now entry) (hp : p.Fits o entry.2) (hok : p.Succeeds)
      (hrest : StartCourse before now rest os ps frames stage) :
      StartCourse before now (entry :: rest) (o :: os) (p :: ps) frames stage

/-- How a start of all these entries has ended, by its orders and the replies to it. -/
inductive StartEnds (before : Dict EngineId) (entries : List (String × RuntimeSettings))
    (os : List Order) (ps : List Reply) : Outcome Json → Prop where
  /-- Every engine was started. -/
  | all (horders : os.length = entries.length) (hreplies : ps.length = entries.length)
      (hok : ∀ p ∈ ps, p.Succeeds) : StartEnds before entries os ps (.ok .null)
  /-- Every engine in front of an entry was started, and nothing is registered under its name. -/
  | missing (done : List (String × RuntimeSettings)) {rest : List (String × RuntimeSettings)}
      {entry : String × RuntimeSettings} (hentries : entries = done ++ entry :: rest)
      (horders : os.length = done.length) (hreplies : ps.length = done.length)
      (hok : ∀ p ∈ ps, p.Succeeds) (hname : before.get? entry.1 = none) :
      StartEnds before entries os ps (.error (.runtimeNotRegistered entry.1))
  /-- Every engine in front of an entry was started, and its own has failed or came too late. -/
  | failed (done : List (String × RuntimeSettings)) (ps' : List Reply)
      {rest : List (String × RuntimeSettings)} {entry : String × RuntimeSettings} {p : Reply}
      {err : HostError} (hentries : entries = done ++ entry :: rest)
      (horders : os.length = done.length + 1) (hreplies : ps = ps' ++ [p])
      (hdone : ps'.length = done.length) (hok : ∀ q ∈ ps', q.Succeeds)
      (herr : p.result = .error err) :
      StartEnds before entries os ps (.error (.initializationFailed entry.1 err))

namespace StartCourse

variable {before now now' : Dict EngineId} {entries : List (String × RuntimeSettings)}
variable {os : List Order} {ps : List Reply} {frames : List Frame} {stage : Stage}

/-- More names may have been registered. -/
theorem mono (hc : StartCourse before now entries os ps frames stage)
    (hnow : ∀ name r, now.get? name = some r → now'.get? name = some r) :
    StartCourse before now' entries os ps frames stage := by
  have hstarts : ∀ {o : Order} {entry}, o.Starts now entry → o.Starts now' entry :=
    fun ho => ⟨hnow _ _ ho.engine, ho.op⟩
  induction hc with
  | finished => exact .finished
  | missing hname => exact .missing hname
  | waits ho hprogress => exact .waits (hstarts ho) hprogress
  | replied ho hp => exact .replied (hstarts ho) hp
  | failed ho hp herr => exact .failed (hstarts ho) hp herr
  | next ho hp hok _ ih => exact .next (hstarts ho) hp hok ih

/-- The orders are for the first of the entries, one for each. -/
theorem orders_prefix (hc : StartCourse before now entries os ps frames stage) :
    List.Forall₂ (fun entry o => o.Starts now entry) (entries.take os.length) os := by
  induction hc with
  | finished => exact .nil
  | missing => exact .nil
  | waits ho => exact .cons ho .nil
  | replied ho => exact .cons ho .nil
  | failed ho => exact .cons ho .nil
  | next ho _ _ _ ih => exact .cons ho ih

/-- Every order but the last has a reply that it has succeeded. -/
theorem replies_of_orders (hc : StartCourse before now entries os ps frames stage) :
    ps.length ≤ os.length ∧ os.length ≤ ps.length + 1 ∧
      ∀ i p, i + 1 < os.length → ps[i]? = some p → p.Succeeds := by
  induction hc with
  | finished => exact ⟨Nat.le_refl _, Nat.zero_le _, fun i p hi => by simp at hi⟩
  | missing => exact ⟨Nat.le_refl _, Nat.zero_le _, fun i p hi => by simp at hi⟩
  | waits => exact ⟨Nat.zero_le _, Nat.le_refl _, fun i p hi => by simp at hi⟩
  | replied => exact ⟨Nat.le_refl _, Nat.le_succ _, fun i p hi => by simp at hi⟩
  | failed => exact ⟨Nat.le_refl _, Nat.le_succ _, fun i p hi => by simp at hi⟩
  | next ho hp hok hrest ih =>
    obtain ⟨hle, hlt, hbefore⟩ := ih
    refine ⟨Nat.succ_le_succ hle, Nat.succ_le_succ hlt, fun i q hi hq => ?_⟩
    cases i with
    | zero =>
      obtain rfl := Option.some.inj hq
      exact hok
    | succ i => exact hbefore i q (Nat.lt_of_succ_lt_succ hi) hq

/-- A start whose caller has an answer has ended. -/
theorem ends (hc : StartCourse before now entries os ps frames stage) {result : Outcome Json}
    (hframes : frames = []) (hstage : stage = .over result) :
    StartEnds before entries os ps result := by
  induction hc with
  | finished =>
    obtain rfl := Stage.over.inj hstage
    exact .all rfl rfl nofun
  | missing hname =>
    obtain rfl := Stage.over.inj hstage
    exact .missing [] rfl rfl rfl nofun hname
  | waits => cases hframes
  | replied => cases hframes
  | failed ho hp herr =>
    obtain rfl := Stage.over.inj hstage
    exact .failed [] [] rfl rfl rfl rfl nofun herr
  | @next first rest o p _ _ _ _ ho hp hok hrest ih =>
    cases ih hframes hstage with
    | all horders hreplies hall =>
      exact .all (congrArg Nat.succ horders) (congrArg Nat.succ hreplies)
        (List.forall_mem_cons.mpr ⟨hok, hall⟩)
    | missing done hentries horders hreplies hall hname =>
      exact .missing (first :: done) (congrArg (List.cons first) hentries)
        (congrArg Nat.succ horders) (congrArg Nat.succ hreplies)
        (List.forall_mem_cons.mpr ⟨hok, hall⟩) hname
    | failed done ps' hentries horders hreplies hdone hall herr =>
      exact .failed (first :: done) (p :: ps') (congrArg (List.cons first) hentries)
        (congrArg Nat.succ horders) (congrArg (List.cons p) hreplies) (congrArg Nat.succ hdone)
        (List.forall_mem_cons.mpr ⟨hok, hall⟩) herr

end StartCourse

namespace Host

variable {h h' g : Host} {r : EngineId} {e : Engine} {t : Turn} {c : CallId} {k : Call} {o : Order}
variable {before now : Dict EngineId} {entries : List (String × RuntimeSettings)}
variable {os : List Order} {ps : List Reply} {result : Outcome Json} {event : HostEvent}
variable {es : List HostEvent} {token : Token}

/-! ### A start goes on -/

/-- A start that is not over at once waits for the engine. -/
theorem awaits_of_progress {op : EngineOp} {progress : Progress} {settings : RuntimeSettings}
    (hprogress : progress = .acting ∨ progress = .preparing settings) :
    (stageOf r op progress).awaitsEngine = true := by
  rcases hprogress with rfl | rfl
  · rfl
  · rfl

/-- The entries that are left are begun with: the engine of the first one is told to start, if it is
registered. -/
theorem course_startNext (hn : h.Named) (c : CallId) (token : Token)
    (entries : List (String × RuntimeSettings))
    (hbefore : ∀ name r, before.get? name = some r → h.registry.get? name = some r) :
    StartCourse before h.registry entries (h.startOrder? c token entries).toList
      ((h.startOrder? c token entries).bind Order.reply?).toList
      (h.startNext token entries []).frames (h.startNext token entries []).stage := by
  cases entries with
  | nil => exact .finished
  | cons entry rest =>
    obtain ⟨name, settings⟩ := entry
    cases hname : h.registry.get? name with
    | none =>
      have hgone : before.get? name = none := by
        cases hb : before.get? name with
        | none => rfl
        | some r => cases hname.symm.trans (hbefore name r hb)
      simp only [startOrder?, startNext, hname]
      exact .missing hgone
    | some r =>
      obtain ⟨e, he, -⟩ := hn name r hname
      let o : Order := ⟨c, r, .start settings,
        (e.ask (.start settings) token (h.hasFired token) h.now).1, h.now⟩
      have horder : h.startOrder? c token ((name, settings) :: rest) = some o := by
        simp only [startOrder?, hname, Option.bind_some, orderTo?, he, Option.map_some]
        rfl
      have hturn : h.startNext token ((name, settings) :: rest) [] =
          ⟨(h.note (.asked r (.start settings) (h.hasFired token))).setEngine r
            (e.ask (.start settings) token (h.hasFired token) h.now).2,
          [startFrame h.now (name, settings) rest], stageOf r (.start settings) o.progress⟩ := by
        simp only [startNext, hname]
        exact askEngine_of_not_run rfl he token _
      have ho : o.Starts h.registry (name, settings) := ⟨hname, rfl⟩
      rw [horder, hturn]
      rcases e.progress_start settings token (h.hasFired token) h.now with
        ⟨result, hdone⟩ | hwaits
      · have hprogress : o.progress = .done result := hdone
        have hreply : o.reply? = some ⟨c, result, none, h.now⟩ := by
          rw [Order.reply?, hprogress]
        rw [Option.bind_some, hreply, hprogress]
        exact .replied ho fun _ hl => by cases hl
      · have hreply : o.reply? = none := by
          unfold Order.reply?
          split
          · next result hdone =>
            rcases hwaits with hwaits | hwaits
            · cases hwaits.symm.trans hdone
            · cases hwaits.symm.trans hdone
          · rfl
        rw [Option.bind_some, hreply]
        exact .waits ho hwaits

theorem engines_startNext (horder : ∀ o, h.startOrder? c token entries = some o → o.engine ≠ r)
    (frames : List Frame) :
    (h.startNext token entries frames).host.engines[r]? = h.engines[r]? := by
  cases entries with
  | nil => rfl
  | cons entry rest =>
    obtain ⟨name, settings⟩ := entry
    simp only [startOrder?] at horder
    simp only [startNext]
    cases hname : h.registry.get? name with
    | none => rfl
    | some s =>
      rw [hname, Option.bind_some] at horder
      exact engines_askEngine_of_not_run rfl horder _

end Host

namespace StartCourse

variable {h : Host} {k : Call} {t : Turn} {event : HostEvent} {r : EngineId}
variable {before now : Dict EngineId} {entries : List (String × RuntimeSettings)}
variable {os : List Order} {ps : List Reply} {frames : List Frame} {stage : Stage}

/-- Where the call of a start stands: it has an answer, or an engine is being started. -/
theorem stands (hc : StartCourse before now entries os ps frames stage) :
    (frames = [] ∧ ∃ result, stage = .over result) ∨
      ∃ (o : Order) (entry : String × RuntimeSettings) (rest : List (String × RuntimeSettings)),
        frames = [startFrame o.time entry rest] ∧ o.Starts now entry ∧
        ((∃ result, stage = .over result) ∨ stage = Host.stageOf o.engine o.op o.progress ∧
          stage.awaitsEngine = true) := by
  induction hc with
  | finished => exact .inl ⟨rfl, _, rfl⟩
  | missing => exact .inl ⟨rfl, _, rfl⟩
  | @waits entry rest o ho hprogress =>
    exact .inr ⟨o, entry, rest, rfl, ho, .inr ⟨rfl, Host.awaits_of_progress hprogress⟩⟩
  | @replied entry rest o p ho hp => exact .inr ⟨o, entry, rest, rfl, ho, .inl ⟨_, rfl⟩⟩
  | failed => exact .inl ⟨rfl, _, rfl⟩
  | next _ _ _ _ ih => exact ih

/-- Every event about a start gets it further on its course. -/
theorem turn
    (hc : StartCourse before h.registry entries os ps frames stage) (hframes : k.frames = frames)
    (hstage : k.stage = stage) (hn : h.Named)
    (hbefore : ∀ name r, before.get? name = some r → h.registry.get? name = some r)
    (hk : h.call? k.id = some k) (hevent : event.call? = some k.id)
    (ht : h.turn? k event = some t) :
    StartCourse before h.registry entries (os ++ (h.order? event).toList)
      (ps ++ (h.reply? event).toList) t.frames t.stage := by
  induction hc with
  | finished => cases (Host.turn?_of_answered hframes hstage).symm.trans ht
  | missing => cases (Host.turn?_of_answered hframes hstage).symm.trans ht
  | failed => cases (Host.turn?_of_answered hframes hstage).symm.trans ht
  | @waits entry rest o ho hprogress =>
    have hawaits : k.stage.awaitsEngine = true := hstage ▸ Host.awaits_of_progress hprogress
    obtain ⟨p, hp⟩ := Host.hears_of_awaits hk hevent hframes nofun hawaits ht
    have hfits : p.Fits o entry.2 := by
      intro limit hlate
      obtain ⟨⟨around, hcut⟩, htime, hresult⟩ := hp.late limit hlate
      rw [hframes, startFrame] at hcut
      cases hlimit : entry.2.timeout? with
      | none => simp [hlimit, cutStart] at hcut
      | some d =>
        simp only [hlimit, Option.map_some, cutStart] at hcut
        split at hcut
        · next hover =>
          obtain ⟨rfl, -⟩ := Prod.mk.inj (Option.some.inj hcut)
          exact ⟨rfl, htime ▸ hover, hresult⟩
        · cases hcut
    rw [hp.order, hp.reply, hp.frames_eq, hframes, hp.stage_eq]
    exact .replied ho hfits
  | @replied entry rest o p ho hp =>
    obtain ⟨c, f, outer, rfl, hf, rfl⟩ := Host.turn?_of_over hstage ht
    obtain rfl := Option.some.inj hevent
    obtain ⟨rfl, rfl⟩ := List.cons.inj (hframes.symm.trans hf)
    obtain ⟨horder, hreply⟩ := Host.logs_of_over hk hstage hframes
    rw [hreply, horder]
    cases hresult : p.result with
    | error err => exact .failed ho hp hresult
    | ok v =>
      have hnext := Host.course_startNext hn k.id k.token rest hbefore
      exact .next ho hp ⟨v, hresult⟩ hnext
  | next ho hp hok _ ih => exact .next ho hp hok (ih hframes hstage)

/-- An event about a start touches no engine but the one that it tells to start, or whose
preparations come to their end by it. -/
theorem leaves
    (hc : StartCourse before h.registry entries os ps frames stage) (hframes : k.frames = frames)
    (hstage : k.stage = stage) (hk : h.call? k.id = some k) (hevent : event.call? = some k.id)
    (ht : h.turn? k event = some t) (hnot : k.stage.prepares r = false)
    (horder : ∀ o, h.order? event = some o → o.engine ≠ r) :
    t.host.engines[r]? = h.engines[r]? := by
  rcases hc.stands with ⟨hnil, result, hover⟩ |
    ⟨o, entry, rest, hf, -, hover | ⟨-, hawaits⟩⟩
  · cases (Host.turn?_of_answered (hframes.trans hnil) (hstage.trans hover)).symm.trans ht
  · obtain ⟨result, hover⟩ := hover
    obtain ⟨c, f, outer, rfl, hf', rfl⟩ := Host.turn?_of_over (hstage.trans hover) ht
    obtain rfl := Option.some.inj hevent
    obtain ⟨rfl, rfl⟩ := List.cons.inj ((hframes.trans hf).symm.trans hf')
    rw [(Host.logs_of_over hk (hstage.trans hover) hf').1] at horder
    cases result with
    | error err => rfl
    | ok v =>
      exact Host.engines_startNext (fun o ho => horder o ho) []
  · obtain ⟨p, hp⟩ := Host.hears_of_awaits hk hevent (hframes.trans hf) nofun (hstage ▸ hawaits) ht
    exact hp.engines r hnot

/-- Every order is for one of the entries. -/
theorem starts_of_mem (hc : StartCourse before now entries os ps frames stage) {o : Order}
    (ho : o ∈ os) : ∃ entry ∈ entries, o.Starts now entry := by
  induction hc with
  | finished => cases ho
  | missing => cases ho
  | @waits entry rest o' ho' =>
    obtain rfl := List.mem_singleton.mp ho
    exact ⟨entry, List.mem_cons_self, ho'⟩
  | @replied entry rest o' p ho' =>
    obtain rfl := List.mem_singleton.mp ho
    exact ⟨entry, List.mem_cons_self, ho'⟩
  | @failed entry rest o' p err ho' =>
    obtain rfl := List.mem_singleton.mp ho
    exact ⟨entry, List.mem_cons_self, ho'⟩
  | @next first rest o' p os ps frames stage ho' hp hok hrest ih =>
    rcases List.mem_cons.mp ho with rfl | ho
    · exact ⟨first, List.mem_cons_self, ho'⟩
    · obtain ⟨entry, hentry, hstarts⟩ := ih ho
      exact ⟨entry, List.mem_cons_of_mem _ hentry, hstarts⟩

/-- No engine is told to start twice, if none is registered under two names. -/
theorem engines_nodup (hc : StartCourse before now entries os ps frames stage)
    (hnames : (entries.map Prod.fst).Nodup)
    (hinj : ∀ name name' r, now.get? name = some r → now.get? name' = some r → name = name') :
    (os.map Order.engine).Nodup := by
  induction hc with
  | finished => exact .nil
  | missing => exact .nil
  | waits => exact List.nodup_singleton _
  | replied => exact List.nodup_singleton _
  | failed => exact List.nodup_singleton _
  | @next first rest o p os ps frames stage ho hp hok hrest ih =>
    obtain ⟨hfirst, hnames⟩ := List.nodup_cons.mp hnames
    refine List.nodup_cons.mpr ⟨fun hmem => hfirst ?_, ih hnames⟩
    obtain ⟨o', ho', hsame⟩ := List.mem_map.mp hmem
    obtain ⟨entry, hentry, hstarts⟩ := hrest.starts_of_mem ho'
    have hname : first.1 = entry.1 :=
      hinj _ _ o.engine ho.engine (hsame ▸ hstarts.engine)
    exact hname ▸ List.mem_map_of_mem hentry

/-- The engine that is being prepared for a start is the one whose reply is missing. -/
theorem order_of_prepares (hc : StartCourse before now entries os ps frames stage)
    (hr : stage.prepares r = true) : ∃ o, os[ps.length]? = some o ∧ o.engine = r := by
  induction hc with
  | finished => cases hr
  | missing => cases hr
  | @waits entry rest o ho hprogress =>
    exact ⟨o, rfl, (Host.prepares_stageOf_iff.mp hr).1⟩
  | replied => cases hr
  | failed => cases hr
  | next _ _ _ _ ih => exact ih hr

/-- An event about a start leaves every engine alone that has replied. -/
theorem leaves_replied (hc : StartCourse before h.registry entries os ps k.frames k.stage)
    (hk : h.call? k.id = some k) (hevent : event.call? = some k.id)
    (ht : h.turn? k event = some t)
    (honce : ((os ++ (h.order? event).toList).map Order.engine).Nodup) {i : Nat} {o : Order}
    (hi : i < ps.length) (ho : os[i]? = some o) :
    t.host.engines[o.engine]? = h.engines[o.engine]? := by
  rw [List.map_append, List.nodup_append] at honce
  obtain ⟨hnodup, -, hdisjoint⟩ := honce
  refine hc.leaves rfl rfl hk hevent ht ?_ fun o' ho' heq => ?_
  · by_contra hprepares
    obtain ⟨o', ho', hsame⟩ := hc.order_of_prepares (by simpa using hprepares)
    have hlt : ps.length < (os.map Order.engine).length := by
      rw [List.length_map]
      exact (List.getElem?_eq_some_iff.mp ho').1
    have hequal : (os.map Order.engine)[i]? = (os.map Order.engine)[ps.length]? := by
      rw [List.getElem?_map, List.getElem?_map, ho, ho', Option.map_some, Option.map_some, hsame]
    have hindex := (List.getElem?_inj (Nat.lt_trans hi hlt) hnodup).mp hequal
    exact Nat.ne_of_lt hi hindex
  · refine hdisjoint o.engine (List.mem_map_of_mem (List.mem_of_getElem? ho)) o'.engine ?_ heq.symm
    rw [ho']
    exact List.mem_map_of_mem (List.mem_singleton_self o')

end StartCourse

namespace Host

variable {h h' g mid : Host} {k : Call} {c : CallId} {token : Token} {es : List HostEvent}
variable {event : HostEvent} {answers : EngineId → Outcome StartReport}

/-! ### Starts in a run -/

/-- A start that came to one host is on its course in another. -/
structure StartGoesOn (h g : Host) (os : List Order) (ps : List Reply) (frames : List Frame)
    (stage : Stage) : Prop where
  named : g.Named
  kept : ∀ name r, h.registry.get? name = some r → g.registry.get? name = some r
  course : StartCourse h.registry g.registry h.config.enabledRuntimes os ps frames stage

theorem startGoesOn_ask (hn : h.Named) (token : Token) :
    h.StartGoesOn (h.ask .start token) (h.order? (.ask .start token)).toList
      (h.reply? (.ask .start token)).toList
      ({ h with asked := h.asked + 1 }.begin .start token).frames
      ({ h with asked := h.asked + 1 }.begin .start token).stage := by
  let later : Host := { h with asked := h.asked + 1 }
  have hregistry : (h.ask .start token).registry = h.registry :=
    (gives_begin later h.asked .start token).tells.registry_eq
  have hcourse : StartCourse h.registry h.registry h.config.enabledRuntimes
      (h.startOrder? h.asked token h.config.enabledRuntimes).toList
      ((h.startOrder? h.asked token h.config.enabledRuntimes).bind Order.reply?).toList
      (later.begin .start token).frames (later.begin .start token).stage :=
    course_startNext (h := later) hn h.asked token h.config.enabledRuntimes fun _ _ => id
  have hs : h.step (.ask .start token) = some (h.ask .start token) := rfl
  refine ⟨named_step hn hs, fun name r hname => ?_, ?_⟩
  · rw [hregistry]
    exact hname
  · rw [hregistry]
    exact hcourse

theorem StartGoesOn.step {os : List Order} {ps : List Reply} {frames : List Frame} {stage : Stage}
    (hg : h.StartGoesOn mid os ps frames stage) (hs : mid.step event = some g) :
    h.StartGoesOn g os ps frames stage where
  named := named_step hg.named hs
  kept := fun name r hname => registry_step hs (hg.kept name r hname)
  course := hg.course.mono fun _ _ hname => registry_step hs hname

theorem StartGoesOn.turn {t : Turn} {os : List Order} {ps : List Reply}
    (hg : h.StartGoesOn mid os ps k.frames k.stage) (hk : mid.call? k.id = some k)
    (hevent : event.call? = some k.id) (ht : mid.turn? k event = some t)
    (hs : mid.step event = some (settle t k)) :
    h.StartGoesOn (settle t k) (os ++ (mid.order? event).toList) (ps ++ (mid.reply? event).toList)
      t.frames t.stage where
  named := named_step hg.named hs
  kept := fun name r hname => registry_step hs (hg.kept name r hname)
  course := (hg.course.turn rfl rfl hg.named hg.kept hk hevent ht).mono
    fun _ _ hname => registry_step hs hname

/-- A start is on its course in every run, as long as its caller stays. -/
theorem startGoesOn_run (hn : h.Named) (hr : h.run (.ask .start token :: es) = some g) :
    ∃ frames stage, h.StartGoesOn g (h.ordersOf (.ask .start token :: es) h.asked)
        (h.repliesOf (.ask .start token :: es) h.asked) frames stage ∧
      ∀ k, g.call? h.asked = some k → k.frames = frames ∧ k.stage = stage := by
  have hothers : ∀ mid event next os ps frames stage, mid.step event = some next →
      h.StartGoesOn mid os ps frames stage → h.StartGoesOn next os ps frames stage :=
    fun mid event next os ps frames stage hs hg => hg.step hs
  exact (course_of_run (startGoesOn_ask hn token) hothers
    (fun mid event k t os ps hk hevent ht hs hg => hg.turn hk hevent ht hs) hr).2

end Host

end LanguageHost
