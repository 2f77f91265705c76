import LanguageHost.Proofs.Host.StartingInOrder
import LanguageHost.Service

/-!
# Requests that are driven through all engines

The service drives a start or a stop of all engines to its answer, step by step (`Host.drive`).
Where the engines are interpreters, what comes of it is known from the preparations and the room for
workers alone (`Preparation.startAll`): a start tells the engines of the entries one after the
other, up to the first entry that fails or makes the program break down (`Host.answer_start`), and a
stop tells all of them and succeeds (`Host.answer_stop`).

Both are inductions on the entries that are left.  Between two entries the call stands where
`Host.startNext` or `Host.stopNext` has brought it (`Host.ArrivedAt`), and what lies behind is what
the engines were asked (`Host.Asking`).
-/

namespace LanguageHost

/-- What an engine was asked, with a token that had fired or not. -/
structure Ask where
  name : String
  op : EngineOp
  fired : Bool

namespace Preparation

/-- What the start of an interpreter comes to: the preparations may fail, or the limit that its
settings put on them is over before they have ended, and then there may be no room for the workers
of the interpreter. -/
def outcome (prepare : Preparation) (room : Room) (language : Language)
    (settings : RuntimeSettings) : Except NoStart StartReport :=
  let p := prepare language settings
  match settings.timeout?.filter fun limit => limit.toMillis < p.spent with
  | some limit => .error (.failed (.initTimeout limit))
  | none =>
    match p.breakdown? room settings with
    | some b => .error (.brokenDown b)
    | none => p.report.mapError .failed

/-- The entries whose engines are told to start, one after the other, and what comes of that: it
ends with the first entry that has no engine, whose engine fails, or whose workers have no room. -/
def startAll (prepare : Preparation) (room : Room) : List (String × RuntimeSettings) →
    List (String × RuntimeSettings) × Except NoStart Unit
  | [] => ([], .ok ())
  | entry :: rest =>
    match Service.language? entry.1 with
    | none => ([], .error (.failed (.runtimeNotRegistered entry.1)))
    | some language =>
      match prepare.outcome room language entry.2 with
      | .error (.failed err) => ([entry], .error (.failed (.initializationFailed entry.1 err)))
      | .error (.brokenDown b) => ([entry], .error (.brokenDown b))
      | .ok _ => (entry :: (prepare.startAll room rest).1, (prepare.startAll room rest).2)

end Preparation

theorem Service.language?_eq_some_iff {name : String} {language : Language} :
    language? name = some language ↔ language.name = name := by
  constructor
  · intro h
    exact of_decide_eq_true (Option.filter_eq_some_iff.mp h).2
  · rintro rfl
    cases language with
    | _ => rfl

/-- What an outcome says of a start, it says of the outcome that failed in the same way. -/
theorem NoStart.mapError_inj {α : Type} {x y : Outcome α}
    (h : x.mapError failed = y.mapError failed) : x = y := by
  cases x with
  | error e =>
    cases y with
    | error e' => exact congrArg Except.error (failed.inj (Except.error.inj h))
    | ok => cases h
  | ok v =>
    cases y with
    | error => cases h
    | ok v' => exact congrArg Except.ok (Except.ok.inj h)

theorem NoStart.mapError_ne {α : Type} (x : Outcome α) (b : Breakdown) :
    x.mapError failed ≠ .error (brokenDown b) := by
  intro h
  cases x with
  | _ => cases h

/-- What an engine is. -/
def Engine.what (e : Engine) : String × EngineKind := (e.name, e.kind)

namespace Engine

variable {e e' : Engine}

theorem Remains.what_eq (h : e.Remains e') : e'.what = e.what :=
  Prod.ext h.name_eq h.kind_eq

theorem remains_ask (e : Engine) (op : EngineOp) (token : Token) (fired : Bool) (now : Nat) :
    e.Remains (e.ask op token fired now).2 := by
  rcases e.keeps_or_stops op token fired now with hkeeps | ⟨-, hstop⟩
  · exact hkeeps.remains
  · rw [hstop]
    exact e.remains_stop

end Engine

namespace Host

variable {room : Room} {prepare : Preparation} {h h' g : Host} {r : EngineId} {e e' : Engine}
variable {c : CallId}
variable {token : Token} {t : Turn} {f : Frame} {result : Outcome Json} {fuel : Nat}
variable {asked asked' : List Ask}

/-! ### What engines were asked -/

/-- What a note says that an engine was asked. -/
def askOf? (h : Host) : HostNote → Option Ask
  | .asked r op fired => (h.engine? r).map fun e => ⟨e.name, op, fired⟩
  | _ => none

/-- What the engines were asked, the first one first. -/
def asks (h : Host) : List Ask := h.notes.reverse.filterMap h.askOf?

/-- A host gets to another one by asking its engines these, and leaves everything else alone that
such requests depend on. -/
structure Asking (h : Host) (asked : List Ask) (h' : Host) : Prop where
  config_eq : h'.config = h.config
  registry_eq : h'.registry = h.registry
  scopes_eq : h'.scopes = h.scopes
  fired_eq : h'.fired = h.fired
  what_eq : ∀ r, (h'.engine? r).map Engine.what = (h.engine? r).map Engine.what
  asks_eq : h'.asks = h.asks ++ asked

theorem Asking.hasFired_eq (ha : h.Asking asked h') (token : Token) :
    h'.hasFired token = h.hasFired token := by
  rw [hasFired, ha.fired_eq, hasFired]

theorem Asking.trans (ha : h.Asking asked h') (hb : h'.Asking asked' g) :
    h.Asking (asked ++ asked') g where
  config_eq := hb.config_eq.trans ha.config_eq
  registry_eq := hb.registry_eq.trans ha.registry_eq
  scopes_eq := hb.scopes_eq.trans ha.scopes_eq
  fired_eq := hb.fired_eq.trans ha.fired_eq
  what_eq := fun r => (hb.what_eq r).trans (ha.what_eq r)
  asks_eq := by rw [hb.asks_eq, ha.asks_eq, List.append_assoc]

theorem askOf?_eq (hwhat : ∀ r, (h'.engine? r).map Engine.what = (h.engine? r).map Engine.what) :
    h'.askOf? = h.askOf? := by
  funext n
  cases n with
  | asked r op fired =>
    have hname := congrArg (Option.map fun what => (⟨what.1, op, fired⟩ : Ask)) (hwhat r)
    rw [Option.map_map, Option.map_map] at hname
    exact hname
  | _ => rfl

/-- A change that asks no engine. -/
theorem asking_nil (hconfig : h'.config = h.config) (hregistry : h'.registry = h.registry)
    (hscopes : h'.scopes = h.scopes) (hfired : h'.fired = h.fired) (hnotes : h'.notes = h.notes)
    (hwhat : ∀ r, (h'.engine? r).map Engine.what = (h.engine? r).map Engine.what) :
    h.Asking [] h' :=
  ⟨hconfig, hregistry, hscopes, hfired, hwhat, by
    rw [asks, askOf?_eq hwhat, hnotes, List.append_nil, asks]⟩

theorem asking_of_engines_eq (hconfig : h'.config = h.config) (hregistry : h'.registry = h.registry)
    (hscopes : h'.scopes = h.scopes) (hfired : h'.fired = h.fired) (hnotes : h'.notes = h.notes)
    (hengines : h'.engines = h.engines) : h.Asking [] h' :=
  asking_nil hconfig hregistry hscopes hfired hnotes fun r => by rw [engine?, hengines, engine?]

theorem what_setEngine (he : h.engine? r = some e) (hwhat : e'.what = e.what) (s : EngineId) :
    ((h.setEngine r e').engine? s).map Engine.what = (h.engine? s).map Engine.what := by
  rw [engine?_setEngine]
  split
  · next heq =>
    rw [heq, he, Option.map_some, Option.map_some, Option.map_some, hwhat]
  · rfl

theorem asking_setEngine (he : h.engine? r = some e) (hwhat : e'.what = e.what) :
    h.Asking [] (h.setEngine r e') :=
  asking_nil rfl rfl rfl rfl rfl (what_setEngine he hwhat)

theorem engine?_wait (h : Host) (time : Nat) (r : EngineId) :
    (h.wait time).engine? r = (h.engine? r).map fun e => e.wait time := by
  simp only [engine?, wait, List.getElem?_map, Option.map_map]
  rfl

theorem asking_wait (h : Host) (time : Nat) : h.Asking [] (h.wait time) :=
  asking_nil rfl rfl rfl rfl rfl fun r => by
    rw [engine?_wait, Option.map_map]
    rfl

/-- An engine is told something. -/
theorem asking_askEngine {op : EngineOp} (hop : op.isRun = false) (he : h.engine? r = some e)
    (token : Token) (frames : List Frame) :
    h.Asking [⟨e.name, op, h.hasFired token⟩] (h.askEngine r op token frames).host := by
  rw [askEngine_of_not_run hop he]
  let n : HostNote := .asked r op (h.hasFired token)
  have hset : (h.note n).Asking []
      ((h.note n).setEngine r (e.ask op token (h.hasFired token) h.now).2) :=
    asking_setEngine he (e.remains_ask op token (h.hasFired token) h.now).what_eq
  refine ⟨rfl, rfl, rfl, rfl, hset.what_eq, ?_⟩
  have hask : h.askOf? n = some ⟨e.name, op, h.hasFired token⟩ := by
    rw [askOf?, he, Option.map_some]
  have hnote : (h.note n).asks = h.asks ++ [⟨e.name, op, h.hasFired token⟩] := by
    have heq : (h.note n).asks = (n :: h.notes).reverse.filterMap h.askOf? := rfl
    rw [heq, List.reverse_cons, List.filterMap_append, List.filterMap_cons, hask,
      List.filterMap_nil]
    rfl
  rw [hset.asks_eq, hnote, List.append_nil]

/-! ### Where a call has got -/

/-- A call that a turn has just got somewhere. -/
structure ArrivedAt (g : Host) (c : CallId) (token : Token) (t : Turn) : Prop where
  call : ∃ since, g.call? c = some ⟨c, token, t.frames, t.stage, since⟩
  host : ∃ calls, g = { t.host with calls }

theorem ArrivedAt.asking (hg : g.ArrivedAt c token t) : t.host.Asking [] g := by
  obtain ⟨-, calls, rfl⟩ := hg
  exact asking_of_engines_eq rfl rfl rfl rfl rfl rfl

theorem ArrivedAt.engine?_eq (hg : g.ArrivedAt c token t) (r : EngineId) :
    g.engine? r = t.host.engine? r := by
  obtain ⟨-, calls, rfl⟩ := hg
  rfl

theorem ArrivedAt.now_eq (hg : g.ArrivedAt c token t) : g.now = t.host.now := by
  obtain ⟨-, calls, rfl⟩ := hg
  rfl

theorem arrivedAt_ask (h : Host) (request : Request) (token : Token) :
    (h.ask request token).ArrivedAt h.asked token
      ({ h with asked := h.asked + 1 }.begin request token) :=
  ⟨⟨_, call?_ask h request token⟩, _, rfl⟩

theorem arrivedAt_settle {k : Call} (hk : h.call? k.id = some k) (hcalls : t.host.calls = h.calls) :
    (settle t k).ArrivedAt k.id k.token t :=
  ⟨⟨_, call?_settle hk hcalls⟩, _, rfl⟩

theorem drive_succ (hs : g.driveOnce room prepare c = .ok (some h)) (fuel : Nat) :
    drive room prepare c (fuel + 1) g = drive room prepare c fuel h := by
  rw [drive, hs]

theorem drive_brokenDown {b : Breakdown} (hs : g.driveOnce room prepare c = .error b)
    (fuel : Nat) : drive room prepare c (fuel + 1) g = (some b, g) := by
  rw [drive, hs]

/-- A call with an answer is driven no further. -/
theorem ArrivedAt.answered (room : Room) (prepare : Preparation)
    (hg : g.ArrivedAt c token ⟨h, [], .over result⟩) (fuel : Nat) :
    drive room prepare c fuel g = (none, g) ∧
      Host.answered c (none, g) = result.mapError .failed := by
  obtain ⟨since, hcall⟩ := hg.call
  have hstop : g.driveOnce room prepare c = .ok none := by
    simp only [driveOnce, hcall, step, forCall, Option.bind_eq_bind, Option.bind_some, resume,
      Option.bind_none]
  constructor
  · cases fuel with
    | zero => rfl
    | succ fuel => rw [drive, hstop]
  · rw [Host.answered, answer?_of_call? hcall rfl rfl, Option.getD_some]

/-- An outcome goes through the frame of a call. -/
theorem ArrivedAt.passes (room : Room) (prepare : Preparation)
    (hg : g.ArrivedAt c token ⟨h, [f], .over result⟩) :
    ∃ g', g.driveOnce room prepare c = .ok (some g') ∧
      g'.ArrivedAt c token (g.pass token f [] result) := by
  obtain ⟨since, hcall⟩ := hg.call
  let k : Call := ⟨c, token, [f], .over result, since⟩
  have hk : g.call? k.id = some k := hcall
  have hturn : g.resume k = some (g.pass token f [] result) := rfl
  refine ⟨settle (g.pass token f [] result) k, ?_,
    arrivedAt_settle hk (moves_resume hturn).calls_eq⟩
  have hstep : g.step (.resume c) = _ := step_resume hk hturn
  simp only [driveOnce, hcall, hstep]

/-- Preparations that take longer than the limit on them are given up when it is over. -/
theorem endPreparations_of_late {k : Call} {frames : List Frame} {settings : RuntimeSettings}
    {limit : Duration} {p : Prepared} (hk : g.call? k.id = some k)
    (hstage : k.stage = .preparing r settings)
    (hlimit : (limitOf k).filter (fun l => l.deadline < g.now + p.spent) =
      some ⟨g.now + limit.toMillis, limit⟩)
    (hcut : cutStart (g.now + limit.toMillis) k.frames = some (limit, frames)) :
    ∃ g', g.endPreparations room k settings p = .ok (some g') ∧
      g'.ArrivedAt k.id k.token ⟨g.wait (g.now + limit.toMillis), frames,
        .over (.error (.initTimeout limit))⟩ := by
  let later := g.wait (g.now + limit.toMillis)
  let t : Turn := ⟨later, frames, .over (.error (.initTimeout limit))⟩
  have hk' : later.call? k.id = some k := hk
  have hcut' : cutStart later.now k.frames = some (limit, frames) := hcut
  have hturn : later.timeOut k = some t := by
    simp only [timeOut, hstage, hcut', Option.map_some, leave, t]
  refine ⟨settle t k, ?_, arrivedAt_settle hk' rfl⟩
  rw [endPreparations, hlimit]
  exact congrArg Except.ok (step_forCall hk' hturn)

/-- Preparations that the limit leaves enough time come to their end, where there is room for the
workers. -/
theorem endPreparations_of_inTime {k : Call} {settings : RuntimeSettings} {p : Prepared}
    (hk : g.call? k.id = some k) (hstage : k.stage = .preparing r settings)
    (he : g.engine? r = some e)
    (hlimit : (limitOf k).filter (fun l => l.deadline < g.now + p.spent) = none)
    (hroom : p.breakdown? room settings = none) :
    ∃ g' e', g.endPreparations room k settings p = .ok (some g') ∧ e'.what = e.what ∧
      g'.ArrivedAt k.id k.token ⟨(g.wait (g.now + p.spent)).setEngine r e', k.frames,
        .over (p.report.map fun _ => .null)⟩ := by
  let later := g.wait (g.now + p.spent)
  let waited := e.wait (g.now + p.spent)
  let e' := (waited.prepared settings p.report later.now).2
  have hk' : later.call? k.id = some k := hk
  have he' : later.engine? r = some waited := by rw [engine?_wait, he, Option.map_some]
  have hresult : waited.prepared settings p.report later.now =
      (p.report.map fun _ => .null, e') := by
    cases hreport : p.report with
    | _ => simp only [e', hreport, Engine.prepared, Except.map]
  have hturn : later.prepared k p.report = some ⟨later.setEngine r e', k.frames,
      .over (p.report.map fun _ => .null)⟩ := by
    simp only [Host.prepared, hstage, he', Option.map_some, hresult]
  refine ⟨settle _ k, e', ?_,
    (waited.keeps_prepared settings p.report later.now).remains.what_eq, arrivedAt_settle hk' rfl⟩
  rw [endPreparations, hlimit, hroom]
  exact congrArg Except.ok (step_forCall hk' hturn)

/-- The program breaks down where the preparations have succeeded in time and there is no room for
the workers. -/
theorem endPreparations_of_noRoom {k : Call} {settings : RuntimeSettings} {p : Prepared}
    {b : Breakdown} (hlimit : (limitOf k).filter (fun l => l.deadline < g.now + p.spent) = none)
    (hroom : p.breakdown? room settings = some b) :
    g.endPreparations room k settings p = .error b := by
  rw [endPreparations, hlimit, hroom]

/-- The call that waits for the preparations of an interpreter.  The deadline was set when the
engine was told to start, and no time has passed since. -/
theorem ArrivedAt.preparing (room : Room) (prepare : Preparation)
    {entry : String × RuntimeSettings} {rest : List (String × RuntimeSettings)}
    {language : Language}
    (hg : g.ArrivedAt c token ⟨h, [startFrame h.now entry rest], .preparing r entry.2⟩)
    (he : h.engine? r = some e) (hkind : e.kind = .interpreter language) :
    ∃ since, let k : Call := ⟨c, token, [startFrame g.now entry rest], .preparing r entry.2, since⟩
      let p := prepare language entry.2
      g.call? c = some k ∧
      g.driveOnce room prepare c = g.endPreparations room k entry.2 p ∧
      (limitOf k).filter (fun l => l.deadline < g.now + p.spent) =
        (entry.2.timeout?.filter fun d => d.toMillis < p.spent).map fun d =>
          ⟨g.now + d.toMillis, d⟩ := by
  obtain ⟨since, hk⟩ := hg.call
  have hnow : h.now = g.now := hg.now_eq.symm
  rw [hnow] at hk
  refine ⟨since, hk, ?_, ?_⟩
  · have he' : g.engine? r = some e := (hg.engine?_eq r).trans he
    simp only [driveOnce, hk, he', Option.map_some, hkind]
  · have heq : limitOf ⟨c, token, [startFrame g.now entry rest], .preparing r entry.2, since⟩ =
        entry.2.timeout?.map fun d => ⟨g.now + d.toMillis, d⟩ := rfl
    rw [heq, Option.filter_map]
    simp only [Function.comp_def, Nat.add_lt_add_iff_left]

/-- The preparations that a start waits for come to their end, or the limit on them is over. -/
theorem ArrivedAt.prepares {entry : String × RuntimeSettings}
    {rest : List (String × RuntimeSettings)} {language : Language} {report : Outcome StartReport}
    (hg : g.ArrivedAt c token ⟨h, [startFrame h.now entry rest], .preparing r entry.2⟩)
    (he : h.engine? r = some e) (hkind : e.kind = .interpreter language)
    (houtcome : prepare.outcome room language entry.2 = report.mapError .failed) :
    ∃ g' mid, g.driveOnce room prepare c = .ok (some g') ∧
      g'.ArrivedAt c token ⟨mid, [startFrame h.now entry rest],
        .over (report.map fun _ => .null)⟩ ∧
      h.Asking [] mid ∧
      ∀ s, s ≠ r → mid.engine? s = (h.engine? s).map fun other => other.wait mid.now := by
  obtain ⟨since, hk, honce, hlimit⟩ := hg.preparing room prepare he hkind
  let k : Call := ⟨c, token, [startFrame g.now entry rest], .preparing r entry.2, since⟩
  let p := prepare language entry.2
  have he' : g.engine? r = some e := (hg.engine?_eq r).trans he
  have hwait : ∀ time, h.Asking [] (g.wait time) := fun time => hg.asking.trans (asking_wait g time)
  have hother : ∀ time s, (g.wait time).engine? s = (h.engine? s).map fun e => e.wait time := by
    intro time s
    rw [engine?_wait, hg.engine?_eq s]
  have hnow : h.now = g.now := hg.now_eq.symm
  rw [honce, hnow]
  rw [Preparation.outcome] at houtcome
  cases hlate : entry.2.timeout?.filter fun d => d.toMillis < p.spent with
  | some limit =>
    rw [hlate] at houtcome
    obtain rfl : .error (.initTimeout limit) = report := NoStart.mapError_inj houtcome
    have hlimited : entry.2.timeout? = some limit := (Option.filter_eq_some_iff.mp hlate).1
    have hcut : cutStart (g.now + limit.toMillis) k.frames = some (limit, k.frames) := by
      simp only [k, startFrame, hlimited, Option.map_some, cutStart, Nat.le_refl, if_true]
    rw [hlate, Option.map_some] at hlimit
    obtain ⟨g', hend, hg'⟩ := endPreparations_of_late (k := k) hk rfl hlimit hcut
    exact ⟨g', _, hend, hg', hwait _, fun s _ => hother _ s⟩
  | none =>
    rw [hlate] at houtcome
    rw [hlate, Option.map_none] at hlimit
    cases hroom : (prepare language entry.2).breakdown? room entry.2 with
    | some b =>
      simp only [hroom] at houtcome
      exact absurd houtcome.symm (NoStart.mapError_ne report b)
    | none =>
      simp only [hroom] at houtcome
      obtain rfl : (prepare language entry.2).report = report := NoStart.mapError_inj houtcome
      obtain ⟨g', e', hend, hwhat, hg'⟩ :=
        endPreparations_of_inTime (k := k) hk rfl he' hlimit hroom
      have hmid : (g.wait (g.now + p.spent)).engine? r = some (e.wait (g.now + p.spent)) := by
        rw [hother, he, Option.map_some]
      refine ⟨g', _, hend, hg', (hwait _).trans (asking_setEngine hmid hwhat), fun s hne => ?_⟩
      rw [engine?_setEngine, if_neg hne]
      exact hother _ s

/-- The program breaks down where the preparations that a start waits for have succeeded in time and
there is no room for the workers. -/
theorem ArrivedAt.driveOnce_of_noRoom {entry : String × RuntimeSettings}
    {rest : List (String × RuntimeSettings)} {language : Language} {b : Breakdown}
    (hg : g.ArrivedAt c token ⟨h, [startFrame h.now entry rest], .preparing r entry.2⟩)
    (he : h.engine? r = some e) (hkind : e.kind = .interpreter language)
    (houtcome : prepare.outcome room language entry.2 = .error (.brokenDown b)) :
    g.driveOnce room prepare c = .error b := by
  obtain ⟨since, -, honce, hlimit⟩ := hg.preparing room prepare he hkind
  rw [Preparation.outcome] at houtcome
  cases hlate : entry.2.timeout?.filter fun d => d.toMillis < (prepare language entry.2).spent with
  | some limit =>
    rw [hlate] at houtcome
    cases houtcome
  | none =>
    rw [hlate] at houtcome
    rw [hlate, Option.map_none] at hlimit
    cases hroom : (prepare language entry.2).breakdown? room entry.2 with
    | none =>
      simp only [hroom] at houtcome
      exact absurd houtcome (NoStart.mapError_ne _ b)
    | some b' =>
      simp only [hroom] at houtcome
      obtain rfl : b' = b := NoStart.brokenDown.inj (Except.error.inj houtcome)
      rw [honce]
      exact endPreparations_of_noRoom hlimit hroom

/-! ### Stopping all engines -/

/-- A stop of interpreters goes through all of them and succeeds. -/
theorem ArrivedAt.stops (room : Room) (prepare : Preparation) {entries : List (String × EngineId)}
    (hg : g.ArrivedAt c token (h.stopNext token entries [] []))
    (hkept : ∀ entry ∈ entries, ∃ language,
      (h.engine? entry.2).map Engine.what = some (entry.1, .interpreter language))
    (hfuel : entries.length ≤ fuel) :
    Host.answered c (drive room prepare c fuel g) = .ok .null ∧
      h.Asking (entries.map fun e => ⟨e.1, .stop, h.hasFired token⟩)
        (drive room prepare c fuel g).2 := by
  induction entries generalizing h g fuel with
  | nil =>
    obtain ⟨hend, hanswer⟩ := hg.answered room prepare fuel
    rw [hend]
    exact ⟨hanswer, hg.asking⟩
  | cons entry rest ih =>
    obtain ⟨language, hentry⟩ := hkept entry List.mem_cons_self
    obtain ⟨e, he, hwhat⟩ := Option.map_eq_some_iff.mp hentry
    obtain ⟨hname, hkind⟩ := Prod.mk.inj hwhat
    obtain ⟨fuel, rfl⟩ := Nat.exists_eq_succ_of_ne_zero (Nat.ne_of_gt
      (Nat.lt_of_lt_of_le (Nat.succ_pos rest.length) hfuel))
    let frames : List Frame := [.stopping entry.1 rest []]
    have hturn : h.askEngine entry.2 .stop token frames = _ := askEngine_of_not_run rfl he token _
    have hdone : e.ask .stop token (h.hasFired token) h.now = (.done (.ok .null), e.stop) := by
      simp only [Engine.ask, hkind]
    have htold : h.Asking _ (h.askEngine entry.2 .stop token frames).host :=
      asking_askEngine rfl he token _
    rw [hname] at htold
    have hasked := htold.trans hg.asking
    rw [List.append_nil] at hasked
    simp only [stopNext] at hg
    rw [hturn, hdone] at hg
    obtain ⟨g', honce, hg'⟩ := hg.passes room prepare
    have hrest : ∀ entry ∈ rest, ∃ language,
        (g.engine? entry.2).map Engine.what = some (entry.1, .interpreter language) := by
      intro entry hmem
      obtain ⟨language, hkept⟩ := hkept entry (List.mem_cons_of_mem _ hmem)
      exact ⟨language, (hasked.what_eq entry.2).trans hkept⟩
    obtain ⟨hanswer, hlater⟩ := ih hg' hrest (Nat.le_of_succ_le_succ hfuel)
    rw [drive_succ honce]
    rw [hasked.hasFired_eq] at hlater
    exact ⟨hanswer, hasked.trans hlater⟩

/-! ### Starting all engines -/

/-- Under the name of a language its interpreter is registered, which has not been asked for
anything yet; under any other name nothing is. -/
def Unstarted (h : Host) (name : String) : Prop :=
  match Service.language? name with
  | none => h.registry.get? name = none
  | some language =>
    ∃ r, h.registry.get? name = some r ∧ h.engine? r = some (.interpreter language)

/-- Interpreters that have not been asked for anything stay so while another engine is started. -/
theorem Unstarted.of_other {name : String} {language : Language} (hu : h.Unstarted name)
    (he : h.engine? r = some (.interpreter language)) (hname : language.name ≠ name)
    (hregistry : g.registry = h.registry) {time : Nat}
    (hother : ∀ s, s ≠ r → g.engine? s = (h.engine? s).map fun e => e.wait time) :
    g.Unstarted name := by
  unfold Unstarted at hu ⊢
  rw [hregistry]
  cases hl : Service.language? name with
  | none => simpa only [hl] using hu
  | some other =>
    simp only [hl] at hu
    obtain ⟨s, hs, hengine⟩ := hu
    have hne : s ≠ r := by
      rintro rfl
      obtain rfl : language = other :=
        EngineKind.interpreter.inj (congrArg Engine.kind (Option.some.inj (he.symm.trans hengine)))
      exact hname (Service.language?_eq_some_iff.mp hl)
    refine ⟨s, hs, ?_⟩
    rw [hother s hne, hengine]
    rfl

/-- The engine of the first entry that is left is told to start. -/
theorem startNext_of_unstarted (h : Host) (token : Token) {entry : String × RuntimeSettings}
    (rest : List (String × RuntimeSettings)) {language : Language}
    (hr : h.registry.get? entry.1 = some r) (he : h.engine? r = some (.interpreter language))
    (hname : language.name = entry.1) (hfired : h.hasFired token = false) :
    ∃ told begun, h.startNext token (entry :: rest) [] =
        ⟨told, [startFrame told.now entry rest], .preparing r entry.2⟩ ∧
      told.engine? r = some begun ∧ begun.kind = .interpreter language ∧
      h.Asking [⟨entry.1, .start entry.2, false⟩] told ∧
      told.now = h.now ∧ ∀ s, s ≠ r → told.engine? s = h.engine? s := by
  let e : Engine := .interpreter language
  let begun : Engine := { e with lifecycle := { e.lifecycle with claimed := true } }
  let told := (h.note (.asked r (.start entry.2) false)).setEngine r begun
  have hask : e.ask (.start entry.2) token false h.now = (.preparing entry.2, begun) := rfl
  let frames := [startFrame h.now entry rest]
  have hturn : h.askEngine r (.start entry.2) token frames = _ :=
    askEngine_of_not_run rfl he token _
  rw [hfired, hask] at hturn
  have hasking : h.Asking _ (h.askEngine r (.start entry.2) token frames).host :=
    asking_askEngine rfl he token _
  rw [hturn, hfired] at hasking
  refine ⟨told, begun, ?_, ?_, rfl, hname ▸ hasking, rfl, fun s hne => ?_⟩
  · simp only [startNext, hr]
    exact hturn
  · rw [engine?_setEngine, if_pos rfl]
    exact congrArg (Option.map fun _ => begun) he
  · rw [engine?_setEngine, if_neg hne]
    rfl

/-- The engine of the first entry that is left is told to start, and replies. -/
theorem ArrivedAt.begins {entry : String × RuntimeSettings}
    {rest : List (String × RuntimeSettings)} {language : Language}
    (hg : g.ArrivedAt c token (h.startNext token (entry :: rest) [])) (report : Outcome StartReport)
    (hr : h.registry.get? entry.1 = some r) (he : h.engine? r = some (.interpreter language))
    (hname : language.name = entry.1) (hfired : h.hasFired token = false)
    (houtcome : prepare.outcome room language entry.2 = report.mapError .failed) :
    ∃ g' mid, g.driveOnce room prepare c = .ok (some g') ∧
      g'.ArrivedAt c token ⟨mid, [startFrame h.now entry rest],
        .over (report.map fun _ => .null)⟩ ∧
      h.Asking [⟨entry.1, .start entry.2, false⟩] g' ∧
      ∀ s, s ≠ r → g'.engine? s = (h.engine? s).map fun other => other.wait mid.now := by
  obtain ⟨told, begun, hbegun, hengine, hkind, htold, hnow, hothers⟩ :=
    startNext_of_unstarted h token rest hr he hname hfired
  rw [hbegun] at hg
  obtain ⟨g', mid, honce, hg', hmid, hother⟩ := hg.prepares hengine hkind houtcome
  refine ⟨g', mid, honce, hnow ▸ hg', ?_, fun s hne => ?_⟩
  · have hall := htold.trans (hmid.trans hg'.asking)
    rw [List.append_nil] at hall
    exact hall
  · rw [hg'.engine?_eq s, hother s hne, hothers s hne]

/-- The engine of the first entry that is left is told to start, and the program breaks down. -/
theorem ArrivedAt.breaksDown {entry : String × RuntimeSettings}
    {rest : List (String × RuntimeSettings)} {language : Language} {b : Breakdown}
    (hg : g.ArrivedAt c token (h.startNext token (entry :: rest) []))
    (hr : h.registry.get? entry.1 = some r) (he : h.engine? r = some (.interpreter language))
    (hname : language.name = entry.1) (hfired : h.hasFired token = false)
    (houtcome : prepare.outcome room language entry.2 = .error (.brokenDown b)) :
    g.driveOnce room prepare c = .error b ∧ h.Asking [⟨entry.1, .start entry.2, false⟩] g := by
  obtain ⟨told, begun, hbegun, hengine, hkind, htold, -, -⟩ :=
    startNext_of_unstarted h token rest hr he hname hfired
  rw [hbegun] at hg
  refine ⟨hg.driveOnce_of_noRoom hengine hkind houtcome, ?_⟩
  have hall := htold.trans hg.asking
  rw [List.append_nil] at hall
  exact hall

/-- A start of interpreters comes to what the preparations and the room for workers say. -/
theorem ArrivedAt.starts (room : Room) (prepare : Preparation)
    {entries : List (String × RuntimeSettings)}
    (hg : g.ArrivedAt c token (h.startNext token entries []))
    (hnew : ∀ entry ∈ entries, h.Unstarted entry.1) (hnodup : (entries.map Prod.fst).Nodup)
    (hfired : h.hasFired token = false) (hfuel : 2 * entries.length ≤ fuel) :
    Host.answered c (drive room prepare c fuel g) =
        (prepare.startAll room entries).2.map (fun _ => .null) ∧
      h.Asking ((prepare.startAll room entries).1.map fun e => ⟨e.1, .start e.2, false⟩)
        (drive room prepare c fuel g).2 := by
  induction entries generalizing h g fuel with
  | nil =>
    obtain ⟨hend, hanswer⟩ := hg.answered room prepare fuel
    rw [hend]
    exact ⟨hanswer, hg.asking⟩
  | cons entry rest ih =>
    have hentry := hnew entry List.mem_cons_self
    obtain ⟨hfirst, hrest⟩ := List.nodup_cons.mp hnodup
    unfold Unstarted at hentry
    cases hl : Service.language? entry.1 with
    | none =>
      simp only [hl] at hentry
      have hmissing : h.startNext token (entry :: rest) [] =
          ⟨h, [], .over (.error (.runtimeNotRegistered entry.1))⟩ := by
        simp only [startNext, hentry]
      rw [hmissing] at hg
      obtain ⟨hend, hanswer⟩ := hg.answered room prepare fuel
      simp only [Preparation.startAll, hl]
      rw [hend]
      exact ⟨hanswer, hg.asking⟩
    | some language =>
      simp only [hl] at hentry
      obtain ⟨r, hr, he⟩ := hentry
      have hname := Service.language?_eq_some_iff.mp hl
      obtain ⟨fuel, rfl⟩ : ∃ n, fuel = n + 2 := ⟨fuel - 2, by rw [List.length_cons] at hfuel; omega⟩
      have hleft : 2 * rest.length ≤ fuel := by rw [List.length_cons] at hfuel; omega
      cases hresult : prepare.outcome room language entry.2 with
      | error reason =>
        cases reason with
        | brokenDown b =>
          obtain ⟨honce, hasked⟩ := hg.breaksDown hr he hname hfired hresult
          rw [drive_brokenDown honce]
          simp only [Preparation.startAll, hl, hresult]
          exact ⟨rfl, hasked⟩
        | failed err =>
          obtain ⟨g₁, mid, honce, hg₁, hasked, -⟩ :=
            hg.begins (.error err) hr he hname hfired hresult
          obtain ⟨g₂, hpassed, hg₂⟩ := hg₁.passes room prepare
          rw [drive_succ honce, drive_succ hpassed]
          obtain ⟨hend, hanswer⟩ := hg₂.answered room prepare fuel
          simp only [Preparation.startAll, hl, hresult]
          rw [hend]
          exact ⟨hanswer, hasked.trans hg₂.asking⟩
      | ok report =>
        obtain ⟨g₁, mid, honce, hg₁, hasked, hother⟩ :=
          hg.begins (.ok report) hr he hname hfired hresult
        obtain ⟨g₂, hpassed, hg₂⟩ := hg₁.passes room prepare
        rw [drive_succ honce, drive_succ hpassed]
        have hnew₁ : ∀ other ∈ rest, g₁.Unstarted other.1 := by
          intro other hmem
          refine (hnew other (List.mem_cons_of_mem _ hmem)).of_other he ?_ hasked.registry_eq hother
          intro heq
          exact hfirst (List.mem_map.mpr ⟨other, hmem, heq.symm.trans hname⟩)
        obtain ⟨hanswer, hlater⟩ := ih hg₂ hnew₁ hrest
          ((hasked.hasFired_eq token).trans hfired) hleft
        simp only [Preparation.startAll, hl, hresult]
        exact ⟨hanswer, hasked.trans hlater⟩

/-! ### Answers -/

theorem asking_asked (h : Host) : h.Asking [] { h with asked := h.asked + 1 } :=
  asking_of_engines_eq rfl rfl rfl rfl rfl rfl

/-- A start of interpreters that have not been asked for anything. -/
theorem answer_start (room : Room) (prepare : Preparation)
    (hnew : ∀ entry ∈ h.config.enabledRuntimes, h.Unstarted entry.1)
    (hfired : h.hasFired token = false) :
    (h.answer room prepare .start token).1 =
        ((prepare.startAll room h.config.enabledRuntimes).2.map fun _ => .null) ∧
      h.Asking ((prepare.startAll room h.config.enabledRuntimes).1.map fun e =>
        ⟨e.1, .start e.2, false⟩) (h.answer room prepare .start token).2 := by
  have hnodup : (h.config.enabledRuntimes.map Prod.fst).Nodup :=
    h.config.languages.keys_nodup.sublist (List.filter_sublist.map Prod.fst)
  have hlength : h.config.enabledRuntimes.length ≤ h.config.languages.size :=
    List.length_filter_le _ _
  have hfuel : 2 * h.config.enabledRuntimes.length ≤ h.stepsEnough := by
    rw [stepsEnough]
    omega
  obtain ⟨hanswer, hasking⟩ := (arrivedAt_ask h .start token).starts room prepare hnew
    hnodup hfired hfuel
  exact ⟨hanswer, h.asking_asked.trans hasking⟩

/-- A stop of interpreters. -/
theorem answer_stop (room : Room) (prepare : Preparation)
    (hkept : ∀ entry ∈ h.registry.entries, ∃ language,
      (h.engine? entry.2).map Engine.what = some (entry.1, .interpreter language)) :
    (h.answer room prepare .stop token).1 = .ok .null ∧
      h.Asking (h.registry.entries.map fun e => ⟨e.1, .stop, h.hasFired token⟩)
        (h.answer room prepare .stop token).2 := by
  have hfuel : h.registry.entries.length ≤ h.stepsEnough := by
    rw [stepsEnough, ← Dict.size]
    omega
  have harrived := arrivedAt_ask h .stop token
  rw [begin_stop] at harrived
  obtain ⟨hanswer, hasking⟩ := harrived.stops room prepare hkept hfuel
  exact ⟨hanswer, h.asking_asked.trans hasking⟩

end Host

end LanguageHost
