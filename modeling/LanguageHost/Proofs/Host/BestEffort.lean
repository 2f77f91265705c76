import LanguageHost.Proofs.ByteOrder
import LanguageHost.Proofs.Host.Retry
import LanguageHost.Proofs.Host.Rounds
import LanguageHost.Proofs.Host.Stopped

/-!
# Stopping all engines

A stop of all engines goes through the engines that were registered when it came, in the order of
their names.  It tells each of them to stop and waits for the reply, and it notes a failure and goes
on.  `StopCourse` says how far it has come, by the orders that were given for it and the replies to
it; `Host.stops_all` says what it has done once its caller has the answer.
-/

namespace LanguageHost

/-- The failure that an engine has replied with, under its name. -/
def Reply.failure (p : Reply) (name : String) : List (String × HostError) :=
  match p.result with
  | .ok _ => []
  | .error err => [(name, err)]

/-- An engine was told to stop. -/
structure Order.Stops (o : Order) (entry : String × EngineId) : Prop where
  engine : o.engine = entry.2
  op : o.op = .stop

theorem engines_of_stops {entries : List (String × EngineId)} {os : List Order}
    (h : List.Forall₂ (fun entry o => Order.Stops o entry) entries os) :
    os.map Order.engine = entries.map Prod.snd ∧ ∀ o ∈ os, o.op = .stop := by
  induction h with
  | nil => exact ⟨rfl, nofun⟩
  | cons ho _ ih =>
    refine ⟨?_, List.forall_mem_cons.mpr ⟨ho.op, ih.2⟩⟩
    rw [List.map_cons, List.map_cons, ho.engine, ih.1]

/-- The answer to a stop with these failures. -/
def stopAnswer (failures : List (String × HostError)) : Outcome Json :=
  if failures.isEmpty then .ok .null else .error (.shutdownFailed failures)

/-- How far a stop has come with the engines that are left, after these failures: by its orders, the
replies to it and where its call stands. -/
inductive StopCourse : List (String × HostError) → List (String × EngineId) → List Order →
    List Reply → List Frame → Stage → Prop where
  /-- There is nothing left to stop. -/
  | finished {failures : List (String × HostError)} :
      StopCourse failures [] [] [] [] (.over (stopAnswer failures))
  /-- An engine was told to stop and has not replied. -/
  | waits {failures : List (String × HostError)} {entry : String × EngineId}
      {rest : List (String × EngineId)} {o : Order} (ho : o.Stops entry)
      (hprogress : o.progress = .acting) :
      StopCourse failures (entry :: rest) [o] [] [.stopping entry.1 rest failures]
        (Host.stageOf o.engine o.op o.progress)
  /-- An engine has replied. -/
  | replied {failures : List (String × HostError)} {entry : String × EngineId}
      {rest : List (String × EngineId)} {o : Order} {p : Reply} (ho : o.Stops entry)
      (hp : p.late? = none) :
      StopCourse failures (entry :: rest) [o] [p] [.stopping entry.1 rest failures]
        (.over p.result)
  /-- An engine has replied, whatever it was, and then the rest was gone through. -/
  | next {failures : List (String × HostError)} {entry : String × EngineId}
      {rest : List (String × EngineId)} {o : Order} {p : Reply} {os : List Order}
      {ps : List Reply} {frames : List Frame} {stage : Stage} (ho : o.Stops entry)
      (hp : p.late? = none)
      (hrest : StopCourse (failures ++ p.failure entry.1) rest os ps frames stage) :
      StopCourse failures (entry :: rest) (o :: os) (p :: ps) frames stage

/-- The answer is a success where every engine has replied and none has failed. -/
theorem stopAnswer_eq_ok_iff {entries : List (String × EngineId)} {ps : List Reply}
    (hlength : ps.length = entries.length) :
    stopAnswer ((entries.zip ps).flatMap fun replied => replied.2.failure replied.1.1) =
      .ok .null ↔ ∀ p ∈ ps, ∃ v, p.result = .ok v := by
  have hfailure : ∀ (p : Reply) name, p.failure name = [] ↔ ∃ v, p.result = .ok v := by
    intro p name
    unfold Reply.failure
    split
    · next v hv => exact ⟨fun _ => ⟨v, hv⟩, fun _ => rfl⟩
    · next err herr => exact ⟨nofun, fun ⟨v, hv⟩ => by cases herr.symm.trans hv⟩
  have hanswer : ∀ failures, stopAnswer failures = .ok .null ↔ failures = [] := by
    intro failures
    cases failures with
    | nil => exact ⟨fun _ => rfl, fun _ => rfl⟩
    | cons failure rest => exact ⟨nofun, nofun⟩
  rw [hanswer, List.flatMap_eq_nil_iff]
  constructor
  · intro hnone p hp
    obtain ⟨i, hi, rfl⟩ := List.mem_iff_getElem.mp hp
    have hzip : (entries.get ⟨i, hlength ▸ hi⟩, ps.get ⟨i, hi⟩) ∈ entries.zip ps :=
      List.mem_iff_getElem.mpr ⟨i, by simpa [← hlength] using hi, by simp⟩
    exact (hfailure _ _).mp (hnone _ hzip)
  · rintro hok ⟨entry, p⟩ hmem
    exact (hfailure p _).mpr (hok p (List.of_mem_zip hmem).2)

namespace StopCourse

variable {failures : List (String × HostError)} {entries : List (String × EngineId)}
variable {os : List Order} {ps : List Reply} {frames : List Frame} {stage : Stage}
variable {result : Outcome Json}

/-- The orders are for the first of the engines, one for each. -/
theorem orders_prefix (hc : StopCourse failures entries os ps frames stage) :
    List.Forall₂ (fun entry o => o.Stops entry) (entries.take os.length) os := by
  induction hc with
  | finished => exact .nil
  | waits ho => exact .cons ho .nil
  | replied ho => exact .cons ho .nil
  | next ho _ _ ih => exact .cons ho ih

/-- Every order but the last has a reply, and none came late. -/
theorem replies_of_orders (hc : StopCourse failures entries os ps frames stage) :
    ps.length ≤ os.length ∧ os.length ≤ ps.length + 1 ∧ ∀ p ∈ ps, p.late? = none := by
  induction hc with
  | finished => exact ⟨Nat.le_refl _, Nat.zero_le _, nofun⟩
  | waits => exact ⟨Nat.zero_le _, Nat.le_refl _, nofun⟩
  | replied _ hp =>
    exact ⟨Nat.le_refl _, Nat.le_succ _, fun q hq => List.mem_singleton.mp hq ▸ hp⟩
  | next _ hp _ ih =>
    exact ⟨Nat.succ_le_succ ih.1, Nat.succ_le_succ ih.2.1, List.forall_mem_cons.mpr ⟨hp, ih.2.2⟩⟩

/-- Once its caller has the answer, a stop has gone through all engines, and the answer lists the
failures of those that have failed. -/
theorem ends (hc : StopCourse failures entries os ps frames stage) (hframes : frames = [])
    (hstage : stage = .over result) : os.length = entries.length ∧ ps.length = entries.length ∧
      result = stopAnswer (failures ++
        (entries.zip ps).flatMap fun replied => replied.2.failure replied.1.1) := by
  induction hc with
  | finished =>
    obtain rfl := Stage.over.inj hstage
    refine ⟨rfl, rfl, ?_⟩
    rw [List.zip_nil_left, List.flatMap_nil, List.append_nil]
  | waits => cases hframes
  | replied => cases hframes
  | next _ _ _ ih =>
    obtain ⟨horders, hreplies, hresult⟩ := ih hframes hstage
    refine ⟨congrArg Nat.succ horders, congrArg Nat.succ hreplies, ?_⟩
    rw [hresult, List.zip_cons_cons, List.flatMap_cons, List.append_assoc]

/-- Where the call of a stop stands: it has the answer, or an engine is being stopped. -/
theorem stands (hc : StopCourse failures entries os ps frames stage) :
    (frames = [] ∧ ∃ result, stage = .over result) ∨
      ∃ name rest failures', frames = [.stopping name rest failures'] ∧
        ((∃ result, stage = .over result) ∨
          stage.awaitsEngine = true ∧ ∀ r, stage.prepares r = false) := by
  induction hc with
  | finished => exact .inl ⟨rfl, _, rfl⟩
  | @waits failures entry rest o _ hprogress =>
    refine .inr ⟨entry.1, rest, failures, rfl, .inr ?_⟩
    rw [hprogress]
    exact ⟨rfl, fun _ => rfl⟩
  | @replied failures entry rest o p => exact .inr ⟨entry.1, rest, failures, rfl, .inl ⟨_, rfl⟩⟩
  | next _ _ _ ih => exact ih

end StopCourse

namespace Host

variable {h h₀ g mid next : Host} {k : Call} {c : CallId} {token : Token} {es es₀ : List HostEvent}
variable {event : HostEvent} {config : HostConfig} {entries : List (String × EngineId)}
variable {failures : List (String × HostError)} {os : List Order} {ps : List Reply} {t : Turn}
variable {frames : List Frame} {stage : Stage}

/-! ### A stop goes on -/

/-- The engines that are left are begun with: the first one is told to stop. -/
theorem course_stopNext (c : CallId) (token : Token)
    (hentries : ∀ entry ∈ entries, ∃ e, h.engine? entry.2 = some e)
    (failures : List (String × HostError)) :
    StopCourse failures entries (h.stopOrder? c token entries).toList
      ((h.stopOrder? c token entries).bind Order.reply?).toList
      (h.stopNext token entries failures []).frames
      (h.stopNext token entries failures []).stage := by
  cases entries with
  | nil => exact .finished
  | cons entry rest =>
    obtain ⟨name, r⟩ := entry
    obtain ⟨e, he⟩ : ∃ e, h.engine? r = some e := hentries (name, r) List.mem_cons_self
    let o : Order := ⟨c, r, .stop, (e.ask .stop token (h.hasFired token) h.now).1, h.now⟩
    have horder : h.stopOrder? c token ((name, r) :: rest) = some o := by
      simp only [stopOrder?, orderTo?, he, Option.map_some, o]
    have hturn : h.stopNext token ((name, r) :: rest) failures [] =
        ⟨(h.note (.asked r .stop (h.hasFired token))).setEngine r
          (e.ask .stop token (h.hasFired token) h.now).2,
        [.stopping name rest failures], stageOf r .stop o.progress⟩ := by
      rw [stopNext]
      exact askEngine_of_not_run rfl he token _
    have ho : o.Stops (name, r) := ⟨rfl, rfl⟩
    rw [horder, hturn]
    rcases e.progress_stop token (h.hasFired token) h.now with hdone | hacting
    · have hprogress : o.progress = .done (.ok .null) := hdone
      have hreply : o.reply? = some ⟨c, .ok .null, none, h.now⟩ := by
        rw [Order.reply?, hprogress]
      rw [Option.bind_some, hreply, hprogress]
      exact .replied ho rfl
    · have hprogress : o.progress = .acting := hacting
      have hreply : o.reply? = none := by rw [Order.reply?, hprogress]
      rw [Option.bind_some, hreply]
      exact .waits ho hprogress

/-- Every event about a stop gets it further on its course. -/
theorem turn_stop (hc : StopCourse failures entries os ps k.frames k.stage)
    (hentries : ∀ entry ∈ entries, ∃ e, h.engine? entry.2 = some e) (hk : h.call? k.id = some k)
    (hevent : event.call? = some k.id) (ht : h.turn? k event = some t) :
    StopCourse failures entries (os ++ (h.order? event).toList)
      (ps ++ (h.reply? event).toList) t.frames t.stage := by
  generalize hframes : k.frames = frames at hc
  generalize hstage : k.stage = stage at hc
  induction hc with
  | finished => cases (turn?_of_answered hframes hstage).symm.trans ht
  | @waits failures entry rest o ho hprogress =>
    have hawaits : k.stage.awaitsEngine = true := by
      rw [hstage, hprogress]
      rfl
    obtain ⟨p, hp⟩ := hears_of_awaits hk hevent hframes nofun hawaits ht
    have hlate : p.late? = none := by
      cases hlate : p.late? with
      | none => rfl
      | some limit =>
        -- There is no limit on a stop.
        obtain ⟨⟨around, hcut⟩, -⟩ := hp.late limit hlate
        rw [hframes] at hcut
        cases hcut
    rw [hp.order, hp.reply, hp.frames_eq, hframes, hp.stage_eq]
    exact .replied ho hlate
  | @replied failures entry rest o p ho hp =>
    obtain ⟨c, f, outer, rfl, hf, rfl⟩ := turn?_of_over hstage ht
    obtain rfl := Option.some.inj hevent
    obtain ⟨rfl, rfl⟩ := List.cons.inj (hframes.symm.trans hf)
    obtain ⟨horder, hreply⟩ := logs_of_over hk hstage hframes
    have hnext := course_stopNext k.id k.token
      (fun entry hentry => hentries entry (List.mem_cons_of_mem _ hentry))
      (failures ++ p.failure entry.1)
    have hpass : h.pass k.token (.stopping entry.1 rest failures) [] p.result =
        h.stopNext k.token rest (failures ++ p.failure entry.1) [] := by
      unfold Reply.failure
      cases p.result with
      | ok v =>
        rw [List.append_nil]
        rfl
      | error err => rfl
    rw [hreply, horder, hpass]
    exact .next ho hp hnext
  | next ho hp _ ih =>
    exact .next ho hp (ih (fun entry hentry => hentries entry (List.mem_cons_of_mem _ hentry))
      hframes hstage)

/-! ### Stops in a run -/

/-- A stop that came to one host is on its course in another, and all engines are still there. -/
structure StopGoesOn (h g : Host) (os : List Order) (ps : List Reply) (frames : List Frame)
    (stage : Stage) : Prop where
  engines : ∀ entry ∈ h.registry.entries, ∃ e, g.engine? entry.2 = some e
  course : StopCourse [] h.registry.entries os ps frames stage

theorem StopGoesOn.step (hg : h.StopGoesOn mid os ps frames stage)
    (hs : mid.step event = some next) : h.StopGoesOn next os ps frames stage where
  engines := fun entry hentry => by
    obtain ⟨e, he⟩ := hg.engines entry hentry
    obtain ⟨e', he', -⟩ := remains_step hs he
    exact ⟨e', he'⟩
  course := hg.course

theorem engines_of_named (hn : h.Named) :
    ∀ entry ∈ h.registry.entries, ∃ e, h.engine? entry.2 = some e := by
  rintro ⟨name, r⟩ hentry
  obtain ⟨e, he, -⟩ := hn name r (Dict.mem_entries_iff.mp hentry)
  exact ⟨e, he⟩

/-- A stop is on its course in every run, as long as its caller stays. -/
theorem stopGoesOn_run (hn : h.Named) (hr : h.run (.ask .stop token :: es) = some g) :
    ∃ frames stage, h.StopGoesOn g (h.ordersOf (.ask .stop token :: es) h.asked)
        (h.repliesOf (.ask .stop token :: es) h.asked) frames stage ∧
      ∀ k, g.call? h.asked = some k → k.frames = frames ∧ k.stage = stage := by
  let later : Host := { h with asked := h.asked + 1 }
  have hcourse : StopCourse [] h.registry.entries
      (h.stopOrder? h.asked token h.registry.entries).toList
      ((h.stopOrder? h.asked token h.registry.entries).bind Order.reply?).toList
      (later.begin .stop token).frames (later.begin .stop token).stage := by
    rw [begin_stop]
    exact course_stopNext (h := later) h.asked token (engines_of_named hn) []
  have hfirst : h.StopGoesOn h (h.order? (.ask .stop token)).toList
      (h.reply? (.ask .stop token)).toList (later.begin .stop token).frames
      (later.begin .stop token).stage := ⟨engines_of_named hn, hcourse⟩
  have hs : h.step (.ask .stop token) = some (h.ask .stop token) := rfl
  exact (course_of_run (hfirst.step hs)
    (fun mid event next os ps frames stage hs hg => hg.step hs)
    (fun mid event k t os ps hk hevent ht hs hg =>
      StopGoesOn.step ⟨hg.engines, turn_stop hg.course hg.engines hk hevent ht⟩ hs) hr).2

/-! ### What a stop leaves behind -/

/-- No engine is told to stop twice, since none is registered under two names. -/
theorem engines_nodup (hn : h.Named) : (h.registry.entries.map Prod.snd).Nodup := by
  refine List.Nodup.map_on ?_ (List.Nodup.of_map Prod.fst h.registry.keys_nodup)
  rintro ⟨name, r⟩ hentry ⟨name', r'⟩ hentry' hsame
  obtain rfl : r = r' := hsame
  rw [hn.inj (Dict.mem_entries_iff.mp hentry) (Dict.mem_entries_iff.mp hentry')]

/-- An engine that does by itself what it is told was stopped when it was told so. -/
theorem stopped_of_order {o : Order} {e : Engine} (ho : o ∈ h.orders es) (hop : o.op = .stop)
    (hr : h.run es = some g) (he : g.engine? o.engine = some e)
    (hkind : ∀ version, e.kind ≠ .foreign version) : e.lifecycle.stopped = true := by
  obtain ⟨before, event, after, mid, next, -, -, hs, horder, hafter⟩ :=
    plays.step_of_mem_logged hr ho
  obtain ⟨e₁, token, fired, now, he₁, -, hnext⟩ := engine_of_order hs horder
  obtain ⟨e₂, he₂, hremains⟩ := remains_run hnext hafter
  obtain rfl : e = e₂ := Option.some.inj (he.symm.trans he₂)
  have hkind₁ : ∀ version, e₁.kind ≠ .foreign version := by
    intro version hforeign
    have hsame : e₁.ask o.op token fired now = (.acting, e₁) := by
      simp only [Engine.ask, hforeign]
    exact hkind version (hremains.kind_eq.trans (by rw [hsame]; exact hforeign))
  refine hremains.stopped ?_
  rw [hop, (Engine.ask_of_not_foreign hkind₁ token fired now).2.2]
  exact e₁.stopped_stop

/-- What a stop that came to `h` has done when `es` have followed it: these orders were given for
it, and these replies came to it. -/
structure StopsAll (h : Host) (token : Token) (es : List HostEvent) (g : Host) (os : List Order)
    (ps : List Reply) : Prop where
  /-- The engines that were registered, in the order of the octets of their names. -/
  sorted : (h.registry.entries.map Prod.fst).Pairwise fun a b => octets a < octets b
  registered : ∀ name r, (name, r) ∈ h.registry.entries ↔ h.registry.get? name = some r
  /-- The first of them were told to stop, each once. -/
  begun : List.Forall₂ (fun entry o => o.Stops entry) (h.registry.entries.take os.length) os
  once : (os.map Order.engine).Nodup
  /-- The engines were told so, and none was told anything that is not in the log of the run. -/
  told : g.told = ((h.orders (.ask .stop token :: es)).map fun o => (o.engine, o.op)).reverse ++
    h.told
  inTurn : ps.length ≤ os.length ∧ os.length ≤ ps.length + 1 ∧ ∀ p ∈ ps, p.late? = none
  /-- All of them have replied before the answer comes, and it lists those that have failed. -/
  ends : ∀ result, g.answer? h.asked = some result →
    os.length = h.registry.entries.length ∧ ps.length = h.registry.entries.length ∧
      result = stopAnswer
        ((h.registry.entries.zip ps).flatMap fun replied => replied.2.failure replied.1.1)
  ok_iff : ∀ result, g.answer? h.asked = some result →
    (result = .ok .null ↔ ∀ p ∈ ps, ∃ v, p.result = .ok v)
  /-- Whatever the engines answer, the stop comes to its end. -/
  finishes : ∀ answers k, g.call? h.asked = some k →
    ∃ own g' result, (∀ event ∈ own, GoesBy answers h.asked event) ∧ g.run own = some g' ∧
      g'.answer? h.asked = some result
  /-- Once the answer is there, the engines that do by themselves what they are told are gone for
  good. -/
  refuses : ∀ result, g.answer? h.asked = some result → ∀ name r e,
    (name, r) ∈ h.registry.entries → g.engine? r = some e →
    (∀ version, e.kind ≠ .foreign version) →
    ∀ later g', g.run later = some g' → g'.Refuses r name

/-- A stop that has its answer has reached every engine that was registered when it came. -/
theorem refuses_of_answer {e : Engine} {result : Outcome Json} {name : String} {r : EngineId}
    {later : List HostEvent} {g' : Host} (hn : h.Named)
    (hr : h.run (.ask .stop token :: es) = some g) (hp : g.Parted)
    (hanswer : g.answer? h.asked = some result) (hentry : (name, r) ∈ h.registry.entries)
    (he : g.engine? r = some e) (hkind : ∀ version, e.kind ≠ .foreign version)
    (hlabel : e.lifecycle.name = e.name) (hlater : g.run later = some g') : g'.Refuses r name := by
  obtain ⟨frames, stage, hgoes, hcall⟩ := stopGoesOn_run hn hr
  obtain ⟨k, hk, hframes, hstage⟩ := call?_of_answer? hanswer
  obtain ⟨rfl, rfl⟩ := hcall k hk
  obtain ⟨hlength, -, -⟩ := hgoes.course.ends hframes hstage
  have hbegun := hgoes.course.orders_prefix
  rw [hlength, List.take_length] at hbegun
  obtain ⟨hengines, hops⟩ := engines_of_stops hbegun
  obtain ⟨o, ho, rfl⟩ : ∃ o ∈ h.ordersOf (.ask .stop token :: es) h.asked, o.engine = r := by
    have hmem : r ∈ h.registry.entries.map Prod.snd := List.mem_map_of_mem (f := Prod.snd) hentry
    rw [← hengines] at hmem
    exact List.mem_map.mp hmem
  have hstopped : e.lifecycle.stopped = true :=
    stopped_of_order (List.mem_of_mem_filter ho) (hops o ho) hr he hkind
  have hgone : g'.GoneAt o.engine := (hp o.engine e he hstopped).run hlater
  obtain ⟨e', he', hremains⟩ := remains_run he hlater
  have hname : e'.lifecycle.name = name := by
    obtain ⟨e₁, he₁, rfl⟩ := (named_run hn hr) name o.engine
      (registry_run (Dict.mem_entries_iff.mp hentry) hr)
    obtain rfl : e = e₁ := Option.some.inj (he.symm.trans he₁)
    exact hremains.label_eq.trans hlabel
  refine hgone.refuses he' hname fun version hforeign => ?_
  exact hkind version (hremains.kind_eq.symm.trans hforeign)

/-- A stop goes through all engines that were registered when it came, whatever each of them
answers.  If no stop was ever told to an engine while somebody was starting it, the engines are gone
for good once the answer is there. -/
theorem stops_all (hnew : Host.new config = .ok h₀)
    (hmade : MakesNew (es₀ ++ .ask .stop token :: es))
    (hapart : h₀.Apart (es₀ ++ .ask .stop token :: es)) (hbefore : h₀.run es₀ = some h)
    (hr : h.run (.ask .stop token :: es) = some g) :
    h.StopsAll token es g (h.ordersOf (.ask .stop token :: es) h.asked)
      (h.repliesOf (.ask .stop token :: es) h.asked) := by
  have hn : h.Named := named_run (named_new hnew) hbefore
  have hall : h₀.run (es₀ ++ .ask .stop token :: es) = some g :=
    plays.append_eq_some.mpr ⟨h, hbefore, hr⟩
  have hlabels : ∀ e guard?, .make e guard? ∈ es₀ ++ .ask .stop token :: es →
      e.lifecycle = .new e.name := fun e guard? hmem => (hmade e guard? hmem).1
  obtain ⟨frames, stage, hgoes, hcall⟩ := stopGoesOn_run hn hr
  have hbegun := hgoes.course.orders_prefix
  refine ⟨?_, fun name r => Dict.mem_entries_iff, hbegun, ?_, told_of_run hr,
    hgoes.course.replies_of_orders, ?_, ?_, ?_, ?_⟩
  · exact h.registry.sorted.imp fun hlt => (octets_lt_iff _ _).mpr hlt
  · rw [(engines_of_stops hbegun).1]
    exact (engines_nodup hn).sublist ((List.take_sublist _ _).map _)
  · intro result hanswer
    obtain ⟨k, hk, hframes, hstage⟩ := call?_of_answer? hanswer
    obtain ⟨rfl, rfl⟩ := hcall k hk
    exact hgoes.course.ends hframes hstage
  · intro result hanswer
    obtain ⟨k, hk, hframes, hstage⟩ := call?_of_answer? hanswer
    obtain ⟨rfl, rfl⟩ := hcall k hk
    obtain ⟨-, hreplies, hresult⟩ := hgoes.course.ends hframes hstage
    rw [hresult, List.nil_append, stopAnswer_eq_ok_iff hreplies]
  · intro answers k hk
    obtain ⟨rfl, rfl⟩ := hcall k hk
    have hid : k.id = h.asked := (mem_of_call? hk).2
    rw [← hid] at hk ⊢
    rcases hgoes.course.stands with ⟨hnil, result, hover⟩ |
      ⟨name, rest, failures, hf, hover | ⟨hwaits, hnone⟩⟩
    · exact ⟨[], g, result, List.forall_mem_nil _, rfl, answer?_of_call? hk hnil hover⟩
    · exact finishes_of_round answers hk hf rfl (.inl hover)
    · refine finishes_of_round answers hk hf rfl (.inr ⟨hwaits, fun r hr => ?_⟩)
      cases (hnone r).symm.trans hr
  · intro result hanswer name r e hentry he hkind later g' hlater
    have htracked := tracked_run (tracked_new hnew) hlabels hall
    exact refuses_of_answer hn hr (parted_run hnew hmade hapart hall) hanswer hentry he hkind
      (htracked.name_eq he) hlater

/-- Three engines are stopped, and the last one fails; the first one was started before, and the
second one was not. -/
theorem stops_all_of_three :
    ∃ h₀ h g os ps, Host.new default = .ok h₀ ∧
      h₀.run [.make (.native "one" "1" Dict.empty) none, .register 0,
        .make (.interpreter .python) none, .register 1, .make (.foreign "x" "1") none, .register 2,
        .ask (.engine 0 (.start (.new "one" "1"))) (.root 0)] = some h ∧
      h.run [.ask .stop (.root 1), .resume 1, .resume 1, .acted 1 (.error (.io "stuck")),
        .resume 1] = some g ∧
      os.map Order.engine = [0, 1, 2] ∧
      h.StopsAll (.root 1) [.resume 1, .resume 1, .acted 1 (.error (.io "stuck")), .resume 1] g
        os ps ∧
      g.answer? 1 = some (.error (.shutdownFailed [("x", .io "stuck")])) ∧
      g.Refuses 0 "one" ∧ g.Refuses 1 "python" := by
  let before : List HostEvent := [.make (.native "one" "1" Dict.empty) none, .register 0,
    .make (.interpreter .python) none, .register 1, .make (.foreign "x" "1") none, .register 2,
    .ask (.engine 0 (.start (.new "one" "1"))) (.root 0)]
  let after : List HostEvent := [.resume 1, .resume 1, .acted 1 (.error (.io "stuck")), .resume 1]
  have hmade : MakesNew (before ++ .ask .stop (.root 1) :: after) := by
    intro e guard? he
    have heq : e = .native "one" "1" Dict.empty ∨ e = .interpreter .python ∨
        e = .foreign "x" "1" := by
      simp only [before, after, List.cons_append, List.nil_append, List.mem_cons,
        HostEvent.make.injEq, reduceCtorEq, false_or, or_false, List.not_mem_nil] at he
      rcases he with he | he | he
      · exact .inl he.1
      · exact .inr (.inl he.1)
      · exact .inr (.inr he.1)
    rcases heq with rfl | rfl | rfl
    · exact ⟨rfl, rfl⟩
    · exact ⟨rfl, rfl⟩
    · exact ⟨rfl, rfl⟩
  obtain ⟨h₀, h, g, e₀, e₁, hnew, hbefore, hr, hasked, hapart, hengines, hanswer, hone, hpython,
      he₀, he₁, hkind₀, hkind₁⟩ :
      ∃ h₀ h g e₀ e₁, Host.new default = .ok h₀ ∧ h₀.run before = some h ∧
        h.run (.ask .stop (.root 1) :: after) = some g ∧ h.asked = 1 ∧
        h₀.Apart (before ++ .ask .stop (.root 1) :: after) ∧
        (h.ordersOf (.ask .stop (.root 1) :: after) 1).map Order.engine = [0, 1, 2] ∧
        g.answer? 1 = some (.error (.shutdownFailed [("x", .io "stuck")])) ∧
        h.registry.get? "one" = some 0 ∧ h.registry.get? "python" = some 1 ∧
        g.engine? 0 = some e₀ ∧ g.engine? 1 = some e₁ ∧
        e₀.kind = .native "1" Dict.empty ∧ e₁.kind = .interpreter .python :=
    ⟨_, _, _, _, _, rfl, rfl, rfl, rfl, rfl, rfl, rfl, rfl, rfl, rfl, rfl, rfl, rfl⟩
  have hstops := stops_all hnew hmade hapart hbefore hr
  rw [hasked] at hstops
  have hrefuses := hstops.refuses _ (hasked.symm ▸ hanswer)
  refine ⟨h₀, h, g, _, _, hnew, hbefore, hr, hengines, hstops, hanswer, ?_, ?_⟩
  · exact hrefuses "one" 0 e₀ (Dict.mem_entries_iff.mpr hone) he₀ (by simp [hkind₀]) [] g rfl
  · exact hrefuses "python" 1 e₁ (Dict.mem_entries_iff.mpr hpython) he₁ (by simp [hkind₁]) [] g rfl

end Host

end LanguageHost
