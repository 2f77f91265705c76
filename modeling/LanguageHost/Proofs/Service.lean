import Mathlib.Data.List.Sort
import LanguageHost.Proofs.Config.Enabling
import LanguageHost.Proofs.Config.Layers
import LanguageHost.Proofs.Host.Driven

/-!
# The course of the service

The service makes the interpreter of every enabled language that is known by that name, and warns
of the other names.  It is ready once all entries were started; where one of them fails, everything
that was registered is stopped before the service gives up, and what it reports is why that entry
has failed.  A service that was ready stops everything when it is told to end.

An entry whose workers have no room is different: the process breaks down where it stands, and
nothing is stopped.  A configuration may ask for that many workers
(`Service.broken_down_by_large_pool`).

`Service.run_of_load` says so for every configuration that is loaded, all preparations of the
interpreters and every room.  It is put together from what registering does (`Service.Adopts`), what
a start comes to (`Service.start_cases`) and what the end comes to (`Service.stop_eq`).
-/

namespace LanguageHost

/-- The names of the languages. -/
def Language.names : List String := [python, javascript, ruby, php].map name

theorem Language.mem_names {key : String} : key ∈ names ↔ ∃ language, name language = key := by
  constructor
  · intro h
    obtain ⟨language, -, hname⟩ := List.mem_map.mp h
    exact ⟨language, hname⟩
  · rintro ⟨language, rfl⟩
    cases language with
    | _ => simp [names]

theorem Service.language?_isSome {key : String} :
    (language? key).isSome = true ↔ key ∈ Language.names := by
  rw [Option.isSome_iff_exists, Language.mem_names]
  exact exists_congr fun _ => language?_eq_some_iff

namespace HostConfig

/-- The names of the runtimes that are to be started. -/
def enabledNames (c : HostConfig) : List String := c.enabledRuntimes.map Prod.fst

/-- Those of the names that are names of languages. -/
def languageNames (c : HostConfig) : List String := c.enabledNames.filter (· ∈ Language.names)

end HostConfig

/-- An engine is told to start as an entry says, with a token that has not fired. -/
def Ask.start (entry : String × RuntimeSettings) : Ask := ⟨entry.1, .start entry.2, false⟩

/-- An engine is told to stop, with a token that has not fired. -/
def Ask.stop (name : String) : Ask := ⟨name, .stop, false⟩

/-! ### What a start comes to -/

namespace Preparation

variable {prepare : Preparation} {room : Room} {entry : String × RuntimeSettings}
variable {reason : NoStart} {entries rest : List (String × RuntimeSettings)}

/-- An entry has the name of a language, the preparations of its interpreter succeed in time, and
there is room for its workers. -/
def Readies (prepare : Preparation) (room : Room) (entry : String × RuntimeSettings) : Prop :=
  ∃ language report, Language.name language = entry.1 ∧
    prepare.outcome room language entry.2 = .ok report

/-- An entry cannot be started: it has not the name of a language, the preparations of its
interpreter fail or take too long, or there is no room for its workers. -/
inductive FailsWith (prepare : Preparation) (room : Room) (entry : String × RuntimeSettings) :
    NoStart → Prop
  | missing (hname : entry.1 ∉ Language.names) :
      FailsWith prepare room entry (.failed (.runtimeNotRegistered entry.1))
  | failed {language : Language} {err : HostError} (hname : language.name = entry.1)
      (hfails : prepare.outcome room language entry.2 = .error (.failed err)) :
      FailsWith prepare room entry (.failed (.initializationFailed entry.1 err))
  | noRoom {language : Language} {b : Breakdown} (hname : language.name = entry.1)
      (hbreaks : prepare.outcome room language entry.2 = .error (.brokenDown b)) :
      FailsWith prepare room entry (.brokenDown b)

theorem readies_or_fails (prepare : Preparation) (room : Room)
    (entry : String × RuntimeSettings) :
    prepare.Readies room entry ∨ ∃ reason, prepare.FailsWith room entry reason := by
  by_cases hname : entry.1 ∈ Language.names
  · obtain ⟨language, hlanguage⟩ := Language.mem_names.mp hname
    cases hresult : prepare.outcome room language entry.2 with
    | ok report => exact .inl ⟨language, report, hlanguage, hresult⟩
    | error reason =>
      cases reason with
      | failed err => exact .inr ⟨_, .failed hlanguage hresult⟩
      | brokenDown b => exact .inr ⟨_, .noRoom hlanguage hresult⟩
  · exact .inr ⟨_, .missing hname⟩

theorem startAll_cons_of_readies (h : prepare.Readies room entry) :
    prepare.startAll room (entry :: rest) =
      (entry :: (prepare.startAll room rest).1, (prepare.startAll room rest).2) := by
  obtain ⟨language, report, hname, hresult⟩ := h
  simp only [startAll, Service.language?_eq_some_iff.mpr hname, hresult]

theorem startAll_cons_of_fails (h : prepare.FailsWith room entry reason) :
    prepare.startAll room (entry :: rest) =
      ([entry].filter (·.1 ∈ Language.names), .error reason) := by
  cases h with
  | missing hname =>
    have hnone : Service.language? entry.1 = none :=
      Option.not_isSome_iff_eq_none.mp fun h => hname (Service.language?_isSome.mp h)
    simp [startAll, hnone, hname]
  | failed hname hfails =>
    have hmem : entry.1 ∈ Language.names := Language.mem_names.mpr ⟨_, hname⟩
    simp [startAll, Service.language?_eq_some_iff.mpr hname, hfails, hmem]
  | noRoom hname hbreaks =>
    have hmem : entry.1 ∈ Language.names := Language.mem_names.mpr ⟨_, hname⟩
    simp [startAll, Service.language?_eq_some_iff.mpr hname, hbreaks, hmem]

/-- Where every entry can be started, all of them are. -/
theorem startAll_of_readies (h : ∀ entry ∈ entries, prepare.Readies room entry) :
    prepare.startAll room entries = (entries, .ok ()) := by
  induction entries with
  | nil => rfl
  | cons entry rest ih =>
    obtain ⟨hfirst, hrest⟩ := List.forall_mem_cons.mp h
    rw [startAll_cons_of_readies hfirst, ih hrest]

/-- The first entry that cannot be started ends the start. -/
theorem startAll_of_fails {done : List (String × RuntimeSettings)}
    (hdone : ∀ other ∈ done, prepare.Readies room other)
    (h : prepare.FailsWith room entry reason) :
    prepare.startAll room (done ++ entry :: rest) =
      (done ++ [entry].filter (·.1 ∈ Language.names), .error reason) := by
  induction done with
  | nil => exact startAll_cons_of_fails h
  | cons first done ih =>
    obtain ⟨hfirst, hdone⟩ := List.forall_mem_cons.mp hdone
    rw [List.cons_append, startAll_cons_of_readies hfirst, ih hdone, List.cons_append]

/-- Where not every entry can be started, one of them is the first. -/
theorem exists_first_failure (h : ¬ ∀ entry ∈ entries, prepare.Readies room entry) :
    ∃ done entry rest reason, entries = done ++ entry :: rest ∧
      (∀ other ∈ done, prepare.Readies room other) ∧ prepare.FailsWith room entry reason := by
  induction entries with
  | nil => exact absurd (List.forall_mem_nil _) h
  | cons entry rest ih =>
    rcases prepare.readies_or_fails room entry with hready | ⟨reason, hfails⟩
    · obtain ⟨done, other, later, reason, rfl, hdone, hfails⟩ :=
        ih fun hrest => h (List.forall_mem_cons.mpr ⟨hready, hrest⟩)
      exact ⟨entry :: done, other, later, reason, rfl, List.forall_mem_cons.mpr ⟨hready, hdone⟩,
        hfails⟩
    · exact ⟨[], entry, rest, reason, rfl, List.forall_mem_nil _, hfails⟩

end Preparation

/-! ### What a host keeps -/

namespace Host

variable {h g : Host} {asked : List Ask} {config : HostConfig} {language : Language}

/-- A host keeps the interpreters of the languages that a configuration enables, each under its own
name, and nothing else. -/
structure Registers (h : Host) (config : HostConfig) : Prop where
  runtimes_eq : h.runtimes = config.languageNames
  engine : ∀ name r, h.registry.get? name = some r → ∃ language, Language.name language = name ∧
    (h.engine? r).map Engine.what = some (name, .interpreter language)

theorem Registers.of_what (hr : h.Registers config) (hregistry : g.registry = h.registry)
    (hwhat : ∀ r, (g.engine? r).map Engine.what = (h.engine? r).map Engine.what) :
    g.Registers config where
  runtimes_eq := by rw [runtimes, hregistry, ← hr.runtimes_eq, runtimes]
  engine := fun name r hname => by
    rw [hwhat r]
    exact hr.engine name r (hregistry ▸ hname)

theorem Asking.registers (ha : h.Asking asked g) (hr : h.Registers config) :
    g.Registers config := hr.of_what ha.registry_eq ha.what_eq

/-- Everything that a host keeps is told to stop. -/
theorem Registers.answer_stop (hr : h.Registers config) (room : Room) (prepare : Preparation)
    (token : Token) : (h.answer room prepare .stop token).1 = .ok .null ∧
      h.Asking (config.languageNames.map fun name => ⟨name, .stop, h.hasFired token⟩)
        (h.answer room prepare .stop token).2 := by
  have hkept : ∀ entry ∈ h.registry.entries, ∃ language,
      (h.engine? entry.2).map Engine.what = some (entry.1, .interpreter language) := by
    intro entry hentry
    obtain ⟨language, -, hwhat⟩ := hr.engine entry.1 entry.2 (Dict.mem_entries_iff.mp hentry)
    exact ⟨language, hwhat⟩
  obtain ⟨hanswer, hasking⟩ := Host.answer_stop room prepare hkept
  refine ⟨hanswer, ?_⟩
  rw [← hr.runtimes_eq, runtimes, Dict.sortedNames_entries, Dict.keys, List.map_map]
  exact hasking

theorem adopt_of_free (hfree : h.registry.get? language.name = none) :
    h.adopt language = (.ok (), { h with
      engines := h.engines ++ [⟨.interpreter language, none⟩]
      registry := h.registry.insert language.name h.engines.length }) := by
  have hengine : (h.make (.interpreter language) none).2.engine? h.engines.length =
      some (.interpreter language) := by
    simp [make, engine?]
  have hname : (Engine.interpreter language).name = language.name := rfl
  simp only [adopt, make, register] at hengine ⊢
  simp only [hengine, hname, hfree]

end Host

namespace Service

variable {s s' s₁ : Service} {config : HostConfig} {room : Room} {prepare : Preparation}
variable {name : String}
variable {names : List String} {err : HostError} {stopped : Outcome Unit}

/-! ### Registering -/

/-- The interpreters of the languages among these names were made and registered. -/
structure Adopts (names : List String) (s s' : Service) : Prop where
  token_eq : s'.token = s.token
  config_eq : s'.host.config = s.host.config
  scopes_eq : s'.host.scopes = s.host.scopes
  fired_eq : s'.host.fired = s.host.fired
  notes_eq : s'.host.notes = s.host.notes
  unstarted : ∀ name ∈ names, s'.host.Unstarted name
  others : ∀ name, name ∉ names → s'.host.registry.get? name = s.host.registry.get? name
  engines : ∀ r e, s.host.engine? r = some e → s'.host.engine? r = some e

theorem adopts_adopt (hfree : s.host.registry.get? name = none) :
    ∃ s', s.adopt name = .ok s' ∧ Adopts [name] s s' := by
  cases hl : language? name with
  | none =>
    refine ⟨s.say .warn ("No built-in adapter for runtime " ++ name), by simp only [adopt, hl], ?_⟩
    refine ⟨rfl, rfl, rfl, rfl, rfl, List.forall_mem_singleton.mpr ?_, fun _ _ => rfl,
      fun _ _ he => he⟩
    simp only [Host.Unstarted, hl]
    exact hfree
  | some language =>
    obtain rfl := language?_eq_some_iff.mp hl
    have hmade := Host.adopt_of_free hfree
    refine ⟨{ s with host := (s.host.adopt language).2 }, by simp only [adopt, hl, hmade], ?_⟩
    rw [hmade]
    refine ⟨rfl, rfl, rfl, rfl, rfl, List.forall_mem_singleton.mpr ?_, fun other hother => ?_,
      fun r e he => ?_⟩
    · simp only [Host.Unstarted, hl]
      refine ⟨s.host.engines.length, ?_, ?_⟩
      · rw [Dict.get?_insert, if_pos rfl]
      · simp [Host.engine?]
    · rw [Dict.get?_insert, if_neg (List.ne_of_not_mem_cons hother)]
    · obtain ⟨g, hg, rfl⟩ := Option.map_eq_some_iff.mp he
      have hlt : r < s.host.engines.length := (List.getElem?_eq_some_iff.mp hg).1
      rw [Host.engine?, List.getElem?_append_left hlt, hg, Option.map_some]

theorem Adopts.cons (hfirst : Adopts [name] s s₁) (hrest : Adopts names s₁ s')
    (hname : name ∉ names) : Adopts (name :: names) s s' where
  token_eq := hrest.token_eq.trans hfirst.token_eq
  config_eq := hrest.config_eq.trans hfirst.config_eq
  scopes_eq := hrest.scopes_eq.trans hfirst.scopes_eq
  fired_eq := hrest.fired_eq.trans hfirst.fired_eq
  notes_eq := hrest.notes_eq.trans hfirst.notes_eq
  unstarted := by
    refine List.forall_mem_cons.mpr ⟨?_, hrest.unstarted⟩
    have h := hfirst.unstarted name (List.mem_singleton_self name)
    unfold Host.Unstarted at h ⊢
    rw [hrest.others name hname]
    cases hl : language? name with
    | none => simpa only [hl] using h
    | some language =>
      simp only [hl] at h
      obtain ⟨r, hr, he⟩ := h
      exact ⟨r, hr, hrest.engines r _ he⟩
  others := fun other hother => by
    have hnot : other ∉ [name] := fun hmem =>
      hother (List.mem_cons.mpr (.inl (List.mem_singleton.mp hmem)))
    rw [hrest.others other (List.not_mem_of_not_mem_cons hother), hfirst.others other hnot]
  engines := fun r e he => hrest.engines r e (hfirst.engines r e he)

/-- Names that are all different and not registered are registered without a failure. -/
theorem adopts_all (hnodup : names.Nodup)
    (hfree : ∀ name ∈ names, s.host.registry.get? name = none) :
    ∃ s', names.foldlM adopt s = .ok s' ∧ Adopts names s s' := by
  induction names generalizing s with
  | nil => exact ⟨s, rfl, rfl, rfl, rfl, rfl, rfl, nofun, fun _ _ => rfl, fun _ _ he => he⟩
  | cons name names ih =>
    obtain ⟨hname, hnames⟩ := List.nodup_cons.mp hnodup
    obtain ⟨hfirst, hlater⟩ := List.forall_mem_cons.mp hfree
    obtain ⟨s₁, hadopt, hone⟩ := adopts_adopt hfirst
    have hfree₁ : ∀ other ∈ names, s₁.host.registry.get? other = none := by
      intro other hmem
      have hnot : other ∉ [name] := fun heq => hname (List.mem_singleton.mp heq ▸ hmem)
      rw [hone.others other hnot, hlater other hmem]
    obtain ⟨s', hfold, hall⟩ := ih hnames hfree₁
    refine ⟨s', ?_, hone.cons hall hname⟩
    rw [List.foldlM_cons, hadopt]
    exact hfold

/-- A host that has registered nothing but the languages of a configuration. -/
theorem Adopts.registers (ha : Adopts config.enabledNames s s')
    (hempty : s.host.registry = Dict.empty) : s'.host.Registers config := by
  have hmem : ∀ name r, s'.host.registry.get? name = some r → ∃ language,
      Language.name language = name ∧ name ∈ config.enabledNames ∧
        s'.host.engine? r = some (.interpreter language) := by
    intro name r hname
    have henabled : name ∈ config.enabledNames := by
      by_contra hnot
      rw [ha.others name hnot, hempty] at hname
      cases hname
    have h := ha.unstarted name henabled
    unfold Host.Unstarted at h
    cases hl : language? name with
    | none =>
      simp only [hl] at h
      cases h.symm.trans hname
    | some language =>
      simp only [hl] at h
      obtain ⟨r', hr', he⟩ := h
      obtain rfl := Option.some.inj (hname.symm.trans hr')
      exact ⟨language, language?_eq_some_iff.mp hl, henabled, he⟩
  refine ⟨?_, fun name r hname => ?_⟩
  · have hsorted : config.languageNames.Pairwise (· < ·) :=
      (config.languages.sorted.sublist (List.filter_sublist.map Prod.fst)).filter _
    rw [Host.runtimes, Dict.sortedNames_entries]
    refine s'.host.registry.keys_pairwise.eq_of_mem_iff hsorted fun name => ?_
    rw [Dict.mem_keys, HostConfig.languageNames, List.mem_filter, decide_eq_true_eq]
    constructor
    · rintro ⟨r, hr⟩
      obtain ⟨language, rfl, henabled, -⟩ := hmem name r hr
      exact ⟨henabled, Language.mem_names.mpr ⟨language, rfl⟩⟩
    · rintro ⟨henabled, hname⟩
      obtain ⟨language, hl⟩ := Option.isSome_iff_exists.mp (language?_isSome.mpr hname)
      have h := ha.unstarted name henabled
      simp only [Host.Unstarted, hl] at h
      obtain ⟨r, hr, -⟩ := h
      exact ⟨r, hr⟩
  · obtain ⟨language, rfl, -, he⟩ := hmem name r hname
    exact ⟨language, rfl, by rw [he]; rfl⟩

/-! ### Starting and stopping -/

/-- A service attends to a configuration: its token has not fired, and its host keeps what the
configuration enables. -/
structure Attends (s : Service) (config : HostConfig) : Prop where
  config_eq : s.host.config = config
  token_eq : s.token = .root 0
  scopes_eq : s.host.scopes = 1
  fired_eq : s.host.fired = []
  registers : s.host.Registers config

theorem Attends.not_fired (ha : s.Attends config) (token : Token) :
    s.host.hasFired token = false := by
  rw [Host.hasFired, ha.fired_eq]
  rfl

theorem Attends.asking {host : Host} {asked : List Ask} (ha : s.Attends config)
    (h : s.host.Asking asked host) : ({ s with host } : Service).Attends config where
  config_eq := h.config_eq.trans ha.config_eq
  token_eq := ha.token_eq
  scopes_eq := h.scopes_eq.trans ha.scopes_eq
  fired_eq := h.fired_eq.trans ha.fired_eq
  registers := h.registers ha.registers

theorem Attends.say (ha : s.Attends config) (level : LogLevel) (text : String) :
    (s.say level text).Attends config :=
  ⟨ha.config_eq, ha.token_eq, ha.scopes_eq, ha.fired_eq, ha.registers⟩

/-- Everything that is registered is told to stop. -/
theorem request_stop (hr : s.host.Registers config) (room : Room) (prepare : Preparation)
    (token : Token) :
    ∃ host, s.request room prepare .stop token = .ok (.ok (), { s with host }) ∧
      s.host.Asking (config.languageNames.map fun name => ⟨name, .stop, s.host.hasFired token⟩)
        host := by
  obtain ⟨hanswer, hasking⟩ := hr.answer_stop room prepare token
  refine ⟨(s.host.answer room prepare .stop token).2, ?_, hasking⟩
  simp only [request, hanswer]

/-- What a start comes to: the service is ready, it gives up after everything was stopped, or it
breaks down where it stands. -/
theorem start_cases (ha : s.Attends config) (hsilent : s.host.asks = [])
    (hnew : ∀ entry ∈ config.enabledRuntimes, s.host.Unstarted entry.1) (room : Room)
    (prepare : Preparation) :
    ∃ s' : Service, s'.Attends config ∧
      match prepare.startAll room config.enabledRuntimes with
      | (begun, .ok ()) => s.start room prepare = .ok s' ∧ s'.host.asks = begun.map .start
      | (begun, .error (.failed err)) => s.start room prepare = .error (s'.giveUp err (.ok ())) ∧
        s'.host.asks = begun.map .start ++ config.languageNames.map .stop
      | (begun, .error (.brokenDown b)) => s.start room prepare = .error (s'.brokenDown b) ∧
        s'.host.asks = begun.map .start := by
  obtain ⟨hanswer, hasking⟩ :=
    Host.answer_start room prepare (ha.config_eq.symm ▸ hnew) (ha.not_fired s.token)
  rw [ha.config_eq] at hanswer hasking
  generalize hall : prepare.startAll room config.enabledRuntimes = all at hanswer hasking
  obtain ⟨begun, result⟩ := all
  generalize hstart : s.host.answer room prepare .start s.token = started at hanswer hasking
  obtain ⟨answer, host⟩ := started
  obtain rfl : answer = result.map fun _ => .null := hanswer
  have hbegun : host.asks = begun.map .start := by
    rw [hasking.asks_eq, hsilent, List.nil_append]
    rfl
  have ha' : ({ s with host } : Service).Attends config := ha.asking hasking
  cases result with
  | ok =>
    have hrequest : s.request room prepare .start s.token = .ok (.ok (), { s with host }) := by
      simp only [request, hstart, Except.map]
    refine ⟨_, ha'.say .info ("Runtimes ready: " ++ Text.quoteList host.runtimes), ?_, hbegun⟩
    rw [start, hrequest]
    rfl
  | error reason =>
    cases reason with
    | failed err =>
      have hrequest : s.request room prepare .start s.token = .ok (.error err, { s with host }) := by
        simp only [request, hstart, Except.map]
      let s₁ : Service :=
        ({ s with host } : Service).say .error ("Initialization failed: " ++ err.message)
      have ha₁ : s₁.Attends config := ha'.say _ _
      obtain ⟨later, hstop, hasked⟩ := request_stop ha₁.registers room prepare s₁.token
      refine ⟨_, ha₁.asking hasked, ?_, ?_⟩
      · have hfailed : s.start room prepare =
            (s₁.request room prepare .stop s₁.token).bind fun r => .error (r.2.giveUp err r.1) := by
          rw [start, hrequest]
          rfl
        rw [hfailed, hstop]
        rfl
      · rw [hasked.asks_eq, ha₁.not_fired]
        exact congrArg (· ++ _) hbegun
    | brokenDown b =>
      have hrequest : s.request room prepare .start s.token =
          .error (({ s with host } : Service).brokenDown b) := by
        simp only [request, hstart, Except.map]
      refine ⟨_, ha', ?_, hbegun⟩
      rw [start, hrequest]
      rfl

/-- What the end of a service comes to: its token has fired, and everything that is registered was
told to stop with a token that has not. -/
theorem stop_eq (ha : s.Attends config) (room : Room) (prepare : Preparation) :
    ∃ host, s.stop room prepare = .ok (.ok (), { s with host }) ∧ host.Registers config ∧
      host.hasFired s.token = true ∧
      host.asks = s.host.asks ++ config.languageNames.map .stop := by
  let token := (s.host.fire s.token).newToken.1
  let s₁ : Service := { s with host := (s.host.fire s.token).newToken.2 }
  have hwhat : ∀ r, (s₁.host.engine? r).map Engine.what = (s.host.engine? r).map Engine.what := by
    intro r
    have hengine : s₁.host.engine? r = (s.host.engine? r).map fun e => e.fire s.token := by
      simp only [s₁, Host.newToken, Host.fire, Host.engine?, List.getElem?_map, Option.map_map]
      rfl
    rw [hengine, Option.map_map]
    exact congrArg (Option.map · _) (funext fun e => (e.keeps_fire s.token).remains.what_eq)
  have hr : s₁.host.Registers config := ha.registers.of_what rfl hwhat
  have hfired : s₁.host.fired = s.token :: s.host.fired := rfl
  have hnew : s₁.host.hasFired token = false := by
    have htoken : token = .root s.host.scopes := rfl
    rw [Host.hasFired, hfired, htoken, ha.scopes_eq, ha.token_eq, ha.fired_eq]
    rfl
  have hsilent : s₁.host.asks = s.host.asks := by
    rw [Host.asks, Host.askOf?_eq hwhat, Host.asks]
    rfl
  obtain ⟨host, hstop, hasked⟩ := request_stop hr room prepare token
  refine ⟨host, hstop, hasked.registers hr, ?_, ?_⟩
  · rw [hasked.hasFired_eq, Host.hasFired, hfired, Token.firedBy, List.any_cons, Token.under_self,
      Bool.true_or]
  · rw [hasked.asks_eq, hnew, hsilent]
    rfl

/-! ### The whole course -/

theorem exit_conclude (s : Service) (stopped : Outcome Unit) :
    (s.conclude stopped).exit = .code 0 ↔ stopped = .ok () := by
  cases stopped with
  | ok => exact ⟨fun _ => rfl, fun _ => rfl⟩
  | error err =>
    constructor
    · intro h
      cases Exit.code.inj h
    · intro h
      cases h

theorem failure?_giveUp (s : Service) (err : HostError) (stopped : Outcome Unit) :
    (s.giveUp err stopped).failure? = some (.of err) ∧
      (s.giveUp err stopped).exit = .code 1 := by
  cases stopped with
  | _ => exact ⟨rfl, rfl⟩

/-- The end of a service that was ready: its token has fired, everything that is registered was told
to stop with a token that has not, and the service fails exactly if that fails. -/
structure Finishes (s : Service) (config : HostConfig) (room : Room) (prepare : Preparation)
    (r : ServiceRun) (last : Service) : Prop where
  stopped : (s.say .info "Received shutdown signal, cleaning up...").stop room prepare =
    .ok (.ok (), last)
  run_eq : r = last.conclude (.ok ())
  host_eq : r.host? = some last.host
  fired : last.host.hasFired s.token = true
  registers : last.host.Registers config
  asks_eq : last.host.asks =
    config.enabledRuntimes.map .start ++ config.languageNames.map .stop
  exit_eq : r.exit = .code 0
  exit_iff : ∀ stopped, (last.conclude stopped).exit = .code 0 ↔ stopped = .ok ()

/-- The end of a service that was not ready because an entry failed after these ones: the engine of
that entry was the last to be told to start, if it has one, and everything that is registered was
told to stop before the service gave up.  The failure is that of the entry, whatever stopping came
to. -/
structure GivesUp (config : HostConfig) (done : List (String × RuntimeSettings))
    (entry : String × RuntimeSettings) (err : HostError) (r : ServiceRun) (last : Service) :
    Prop where
  run_eq : r = last.giveUp err (.ok ())
  host_eq : r.host? = some last.host
  registers : last.host.Registers config
  asks_eq : last.host.asks = (done ++ [entry].filter (·.1 ∈ Language.names)).map .start ++
    config.languageNames.map .stop
  failure_eq : ∀ stopped, (last.giveUp err stopped).failure? = some (.of err) ∧
    (last.giveUp err stopped).exit = .code 1

/-- The end of a service whose process broke down because there was no room for the workers of an
entry after these ones: nothing is told to stop, neither the engine of that entry nor those before
it. -/
structure BreaksDown (config : HostConfig) (done : List (String × RuntimeSettings))
    (entry : String × RuntimeSettings) (b : Breakdown) (r : ServiceRun) (last : Service) :
    Prop where
  run_eq : r = last.brokenDown b
  host_eq : r.host? = some last.host
  registers : last.host.Registers config
  asks_eq : last.host.asks = (done ++ [entry]).map .start
  exit_eq : r.exit = b.exit

/-- The end of a service that was not ready because an entry could not be started after these
ones. -/
def Fails (config : HostConfig) (done : List (String × RuntimeSettings))
    (entry : String × RuntimeSettings) (reason : NoStart) (r : ServiceRun) (last : Service) :
    Prop :=
  match reason with
  | .failed err => GivesUp config done entry err r last
  | .brokenDown b => BreaksDown config done entry b r last

theorem finishes_of_attends (ha : s.Attends config)
    (hasks : s.host.asks = config.enabledRuntimes.map .start) (room : Room)
    (prepare : Preparation) :
    ∃ last, s.Finishes config room prepare (s.finish room prepare) last := by
  let told := s.say .info "Received shutdown signal, cleaning up..."
  have htold : told.Attends config := ha.say _ _
  obtain ⟨host, hstop, hregisters, hfired, hstopped⟩ :=
    stop_eq htold room prepare
  let last : Service := { told with host }
  have hfinish : s.finish room prepare = last.conclude (.ok ()) := by
    rw [finish, hstop]
  have hasked : host.asks = config.enabledRuntimes.map .start ++ config.languageNames.map .stop :=
    hstopped.trans (congrArg (· ++ _) hasks)
  exact ⟨last, hstop, hfinish, congrArg ServiceRun.host? hfinish, hfired, hregisters, hasked,
    congrArg ServiceRun.exit hfinish, last.exit_conclude⟩

/-- How a service with a configuration comes up and runs. -/
structure RunsBy (config : HostConfig) (room : Room) (prepare : Preparation)
    (up : Except ServiceRun Service) (r : ServiceRun) : Prop where
  /-- The entries stand in the order of the octets of their names. -/
  sorted : config.enabledNames.Pairwise fun a b => octets a < octets b
  /-- Registering never fails, and leaves the interpreters of the languages that are enabled. -/
  registers : ∀ log, ∃ host s, Host.new config = .ok host ∧
    config.enabledNames.foldlM adopt (hosting host log) = .ok s ∧ s.host.Registers config ∧
    s.host.asks = []
  ready_iff : (∃ s, up = .ok s) ↔ ∀ entry ∈ config.enabledRuntimes, prepare.Readies room entry
  ready : ∀ s, up = .ok s → s.host.Registers config ∧
    s.host.asks = config.enabledRuntimes.map .start ∧ ∃ last, s.Finishes config room prepare r last
  unready : (¬ ∃ s, up = .ok s) → up = .error r ∧ ∃ done entry rest reason last,
    config.enabledRuntimes = done ++ entry :: rest ∧
    (∀ other ∈ done, prepare.Readies room other) ∧ prepare.FailsWith room entry reason ∧
    Fails config done entry reason r last

theorem attends_of_adopts {host : Host} {log : List LogLine} (hnew : Host.new config = .ok host)
    (ha : Adopts config.enabledNames (hosting host log) s) :
    s.Attends config ∧ s.host.asks = [] := by
  obtain rfl := Host.eq_of_new hnew
  refine ⟨⟨ha.config_eq, ha.token_eq, ha.scopes_eq, ha.fired_eq, ha.registers rfl⟩, ?_⟩
  rw [Host.asks, ha.notes_eq]
  rfl

/-- A configuration that is valid is registered without a failure. -/
theorem exists_adopts (hvalid : config.validate = .ok ()) (log : List LogLine) :
    ∃ host s, Host.new config = .ok host ∧
      config.enabledNames.foldlM adopt (hosting host log) = .ok s ∧
      Adopts config.enabledNames (hosting host log) s := by
  obtain ⟨host, hnew⟩ : ∃ host, Host.new config = .ok host := by
    rw [Host.new, hvalid]
    exact ⟨_, rfl⟩
  have hnodup : config.enabledNames.Nodup :=
    config.languages.keys_nodup.sublist (List.filter_sublist.map Prod.fst)
  have hfree : ∀ name ∈ config.enabledNames,
      (hosting host log).host.registry.get? name = none := by
    obtain rfl := Host.eq_of_new hnew
    exact fun _ _ => rfl
  obtain ⟨s, hfold, ha⟩ := adopts_all hnodup hfree
  exact ⟨host, s, hnew, hfold, ha⟩

theorem runsBy_of_valid (hvalid : config.validate = .ok ()) (log : List LogLine) (room : Room)
    (prepare : Preparation) :
    RunsBy config room prepare (ofConfig config log room prepare)
      (match ofConfig config log room prepare with
        | .ok s => s.finish room prepare
        | .error r => r) := by
  obtain ⟨host, s, hnew, hfold, hadopts⟩ := exists_adopts hvalid log
  obtain ⟨hattends, hsilent⟩ := attends_of_adopts hnew hadopts
  have hof : ofConfig config log room prepare = s.start room prepare := by
    rw [HostConfig.enabledNames] at hfold
    simp only [ofConfig, hnew, hfold]
  have hunstarted : ∀ entry ∈ config.enabledRuntimes, s.host.Unstarted entry.1 :=
    fun entry hentry => hadopts.unstarted entry.1 (List.mem_map_of_mem hentry)
  obtain ⟨s', hattends', hcases⟩ := start_cases hattends hsilent hunstarted room prepare
  have hregisters : ∀ log, ∃ host s, Host.new config = .ok host ∧
      config.enabledNames.foldlM adopt (hosting host log) = .ok s ∧ s.host.Registers config ∧
      s.host.asks = [] := by
    intro log
    obtain ⟨host, s, hnew, hfold, hadopts⟩ := exists_adopts hvalid log
    obtain ⟨hattends, hsilent⟩ := attends_of_adopts hnew hadopts
    exact ⟨host, s, hnew, hfold, hattends.registers, hsilent⟩
  rw [hof]
  by_cases hall : ∀ entry ∈ config.enabledRuntimes, prepare.Readies room entry
  · rw [Preparation.startAll_of_readies hall] at hcases
    obtain ⟨hstart, hasks⟩ := hcases
    rw [hstart]
    refine ⟨config.enabledRuntimes_sorted, hregisters, ⟨fun _ => hall, fun _ => ⟨s', rfl⟩⟩, ?_,
      fun hnot => absurd ⟨s', rfl⟩ hnot⟩
    rintro s hs
    obtain rfl := Except.ok.inj hs
    exact ⟨hattends'.registers, hasks, finishes_of_attends hattends' hasks room prepare⟩
  · obtain ⟨done, entry, rest, reason, hentries, hdone, hfails⟩ :=
      Preparation.exists_first_failure hall
    have hnext : prepare.startAll room (done ++ entry :: rest) = _ :=
      Preparation.startAll_of_fails hdone hfails
    obtain ⟨r, hstart, hends⟩ : ∃ r, s.start room prepare = .error r ∧
        Fails config done entry reason r s' := by
      rw [hentries, hnext] at hcases
      cases reason with
      | failed err =>
        obtain ⟨hstart, hasks⟩ := hcases
        exact ⟨_, hstart, rfl, rfl, hattends'.registers, hasks, s'.failure?_giveUp err⟩
      | brokenDown b =>
        obtain ⟨hstart, hasks⟩ := hcases
        have hbegun : [entry].filter (·.1 ∈ Language.names) = [entry] := by
          cases hfails with
          | noRoom hname =>
            simp [Language.mem_names.mpr ⟨_, hname⟩]
        rw [hbegun] at hasks
        exact ⟨_, hstart, rfl, rfl, hattends'.registers, hasks, rfl⟩
    rw [hstart]
    refine ⟨config.enabledRuntimes_sorted, hregisters, ⟨?_, fun h => absurd h hall⟩, ?_, fun _ =>
      ⟨rfl, done, entry, rest, reason, s', hentries, hdone, hfails, hends⟩⟩
    · rintro ⟨s, hs⟩
      cases hs
    · intro s hs
      cases hs

/-- Whatever configuration is loaded, whatever comes of the preparations and whatever room there is,
registering goes well.  The service is ready exactly if every enabled name is that of a language and
its interpreter initializes; otherwise it ends with the first entry that does not: with the failure
of that entry, after everything was stopped, or at once, if there is no room for the workers of that
entry.  Once it was ready it stops everything in the end. -/
theorem run_of_load {file? : Option ConfigFile} {environment : List (String × String)}
    (hload : HostConfig.load file? environment = .ok config) (room : Room)
    (prepare : Preparation) :
    RunsBy config room prepare (bringUp file? environment room prepare)
      (run file? environment room prepare) := by
  obtain ⟨-, -, -, -, hvalid, -⟩ := HostConfig.readFrom_of_load hload
  have h := runsBy_of_valid hvalid
    [⟨.info, "Configuration loaded for " ++ config.app.name⟩, ⟨.info, greeting⟩] room prepare
  simp only [run, bringUp, hload]
  exact h

/-- Of three names that are enabled one is another name of a language: it has no engine, and what
was started before it is stopped again. -/
theorem run_of_load_with_other_name :
    let file : ConfigFile := ⟨.toml, "[languages.javascript]\nenabled = true\n" ++
      "[languages.node]\nenabled = true\n[languages.python]\nenabled = true\n"⟩
    let prepare : Preparation := fun _ _ => ⟨40, .ok ⟨"1", ""⟩⟩
    let room : Room := ⟨72, 4096⟩
    ∃ config, HostConfig.load (some file) [] = .ok config ∧
      config.enabledNames = ["javascript", "node", "python"] ∧
      RunsBy config room prepare (bringUp (some file) [] room prepare)
        (run (some file) [] room prepare) ∧
      (run (some file) [] room prepare).failure? = some (.of (.runtimeNotRegistered "node")) ∧
      ((run (some file) [] room prepare).host?.map fun host => host.asks.map fun a =>
        (a.name, a.op matches .stop, a.fired)) = some [("javascript", false, false),
          ("javascript", true, false), ("python", true, false)] := by
  intro file prepare room
  obtain ⟨config, hload, hnames⟩ := HostConfig.exists_ok_of_map
    (x := HostConfig.load (some file) []) (g := HostConfig.enabledNames)
    (b := ["javascript", "node", "python"]) (by decide +kernel)
  exact ⟨config, hload, hnames, run_of_load hload room prepare, by decide +kernel,
    by decide +kernel⟩

/-- Two languages are enabled, both interpreters can be prepared, and the second one is to have very
many workers.  The service is not ready, and the first interpreter is not stopped before the process
aborts. -/
theorem broken_down_by_large_pool :
    let file : ConfigFile := ⟨.toml, "[languages.javascript]\nenabled = true\n" ++
      "[languages.python]\nenabled = true\nmax_concurrency = 100000000000000000\n"⟩
    let prepare : Preparation := fun _ _ => ⟨40, .ok ⟨"1", ""⟩⟩
    let room : Room := ⟨72, 0x800000000000⟩
    let r := run (some file) [] room prepare
    (HostConfig.load (some file) []).isOk = true ∧
      (bringUp (some file) [] room prepare).isOk = false ∧
      r.exit = .signal 6 ∧ r.failure? = none ∧
      (r.host?.map fun host => host.asks.map fun a => (a.name, a.op matches .stop, a.fired)) =
        some [("javascript", false, false), ("python", false, false)] := by
  decide +kernel

end Service

end LanguageHost
