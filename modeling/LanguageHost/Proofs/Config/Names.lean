import LanguageHost.Proofs.Config.Lowered
import LanguageHost.Proofs.Host.Spawns

/-!
# The names that a configuration keeps

A file says which languages there are, and each of them has options under names of its own.  A
configuration keeps what a value says (`HostConfig.Keeps`) if it has these languages with these
options, and no others, and if the interpreters of a language get the variables that its options
name.  Every record is read field by field and every table member by member
(`Reading.forall₂_of_dict?`), so a configuration keeps what the tree says that it is read from
(`HostConfig.keeps_of_config?`).  The tree is the file with its names in lower case, so a
configuration that is loaded keeps what the file would say in lower case, which is what it says if
it is in lower case (`HostConfig.keeps_load`).
-/

namespace LanguageHost

variable {α : Type}

/-! ### What a value says -/

/-- The languages that a value names, with what it says about each of them. -/
def HostConfig.writtenLanguages (v : Json) : List (String × Json) :=
  ((v.member? "languages").bind Json.asObj?).getD []

/-- Where the settings of a runtime say its options. -/
def RuntimeSettings.writtenOptions? : Json → Option Json
  | .obj fields => SortedByName.get? "options" fields
  | .arr items => items[3]?
  | _ => none

/-- The options that the settings of a runtime say. -/
def RuntimeSettings.writtenOptions (v : Json) : List (String × Json) :=
  ((writtenOptions? v).bind Json.asObj?).getD []

/-- A configuration has the languages that are written, and no others; each has the options that are
written, and no others, with everything in them under the names that are written; and each process
of an interpreter that was started for a language gets the variables that are written, and no
others, apart from the arguments. -/
structure HostConfig.Keeps (c : HostConfig) (languages : List (String × Json)) : Prop where
  languages_eq : c.languages.keys = languages.map Prod.fst
  options_eq : ∀ m ∈ languages, ∃ settings, c.languages.get? m.1 = some settings ∧
    settings.options.entries =
      (RuntimeSettings.writtenOptions m.2).map fun o => (o.1, o.2.mapLeaves Reading.finiteLeaf)
  variables_eq : ∀ m ∈ languages, ∀ env,
    SortedByName.get? "env" (RuntimeSettings.writtenOptions m.2) = some (.obj env) →
    ∀ (h : Host) (r : EngineId) (e : Engine) (language : Language) (s : Started), h.Used →
      h.engine? r = some e → e.kind = .interpreter language → e.lifecycle.started? = some s →
      c.languages.get? m.1 = some s.settings → ∀ w ∈ e.works, ∃ spawn, w.item = .process spawn ∧
        ∀ name, name ≠ argsVariable → spawn.environment.get? name =
          (SortedByName.get? name env).map fun v =>
            Spawn.variableText (v.mapLeaves Reading.finiteLeaf)

/-! ### Reading field by field -/

namespace Reading

variable {members : List (String × Json)} {v : Json} {s : RuntimeSettings}

theorem forall₂_of_mapM {β : Type} {f : α → Option β} {l : List α} {l' : List β}
    (h : l.mapM f = some l') : List.Forall₂ (fun a b => f a = some b) l l' := by
  induction l generalizing l' with
  | nil => exact Option.some.inj h ▸ .nil
  | cons a l ih =>
    simp only [List.mapM_cons, Option.bind_eq_bind, Option.bind_eq_some_iff, Option.pure_def,
      Option.some.injEq] at h
    obtain ⟨b, hb, rest, hrest, rfl⟩ := h
    exact .cons hb (ih hrest)

/-- Every member of a table is read, under its name. -/
theorem forall₂_of_dict? {read? : Json → Option α} {d : Dict α} (hsorted : SortedByName members)
    (h : dict? read? (.obj members) = some d) :
    List.Forall₂ (fun m e => e.1 = m.1 ∧ read? m.2 = some e.2) members d.entries := by
  simp only [dict?, Option.bind_eq_bind, Option.bind_eq_some_iff, Option.pure_def,
    Option.some.injEq] at h
  obtain ⟨entries, hentries, rfl⟩ := h
  have hread : List.Forall₂ (fun m e => e.1 = m.1 ∧ read? m.2 = some e.2) members entries := by
    refine (forall₂_of_mapM hentries).imp fun m e he => ?_
    obtain ⟨a, ha, heq⟩ := Option.bind_eq_some_iff.mp he
    obtain rfl := Option.some.inj heq
    exact ⟨rfl, ha⟩
  have hnames : entries.map Prod.fst = members.map Prod.fst := by
    refine List.forall₂_eq_eq_eq ▸ List.forall₂_map_left_iff.mpr (List.forall₂_map_right_iff.mpr ?_)
    exact hread.flip.imp fun _ _ he => he.1
  have hentries : SortedByName entries := by
    rw [SortedByName, hnames]
    exact hsorted
  rwa [Dict.entries_ofList hentries]

/-- Options are kept under their names. -/
theorem entries_of_dict? {f : Json → Json} {d : Dict Json} (hsorted : SortedByName members)
    (h : dict? (fun v => some (f v)) (.obj members) = some d) :
    d.entries = members.map fun m => (m.1, f m.2) := by
  refine List.forall₂_eq_eq_eq ▸ List.forall₂_map_right_iff.mpr ?_
  refine (forall₂_of_dict? hsorted h).flip.imp fun e m he => ?_
  exact Prod.ext he.1 (Option.some.inj he.2).symm

/-- A table is read where a table is written. -/
theorem exists_obj_of_dict? {read? : Json → Option α} {d : Dict α} (h : dict? read? v = some d) :
    ∃ members, v = .obj members := by
  cases v with
  | obj members => exact ⟨members, rfl⟩
  | _ => cases h

/-- The options are the fourth field. -/
theorem get?_options_of_fields? {given : List (String × Json)}
    (h : lenient.fields? ["name", "version", "enabled", "options", "max_concurrency",
      "timeout_secs"] v = some given) :
    SortedByName.get? "options" given = RuntimeSettings.writtenOptions? v := by
  cases v with
  | obj fields => exact Option.some.inj h ▸ rfl
  | arr items =>
    have hgiven : _ = given := Option.some.inj h
    rw [← hgiven]
    match items with
    | [] => rfl
    | [_] => rfl
    | [_, _] => rfl
    | [_, _, _] => rfl
    | _ :: _ :: _ :: _ :: _ => rfl
  | _ => cases h

theorem ordered_writtenOptions? {w : Json} (hordered : v.Ordered)
    (h : RuntimeSettings.writtenOptions? v = some w) : w.Ordered := by
  cases v with
  | obj fields => exact hordered.get? h
  | arr items => exact hordered.item (List.mem_of_getElem? h)
  | _ => cases h

theorem ordered_writtenOptions (hordered : v.Ordered) :
    (Json.obj (RuntimeSettings.writtenOptions v)).Ordered := by
  unfold RuntimeSettings.writtenOptions
  cases hwritten : RuntimeSettings.writtenOptions? v with
  | none => exact .obj List.Pairwise.nil fun _ hm => by cases hm
  | some w =>
    cases w with
    | obj members => exact ordered_writtenOptions? hordered hwritten
    | _ => exact .obj List.Pairwise.nil fun _ hm => by cases hm

/-- The options of a runtime are those that are written. -/
theorem options_of_runtime? (hordered : v.Ordered) (h : lenient.runtime? v = some s) :
    s.options.entries =
      (RuntimeSettings.writtenOptions v).map fun o => (o.1, o.2.mapLeaves finiteLeaf) := by
  simp only [runtime?, Option.bind_eq_bind, Option.bind_eq_some_iff, Option.pure_def,
    Option.some.injEq] at h
  obtain ⟨given, hgiven, _, -, _, -, _, -, options, hoptions, _, -, _, -, rfl⟩ := h
  rw [field, get?_options_of_fields? hgiven] at hoptions
  unfold RuntimeSettings.writtenOptions
  cases hwritten : RuntimeSettings.writtenOptions? v with
  | none =>
    rw [hwritten] at hoptions
    exact Option.some.inj hoptions ▸ rfl
  | some w =>
    rw [hwritten] at hoptions
    obtain ⟨members, rfl⟩ := exists_obj_of_dict? hoptions
    exact entries_of_dict? (ordered_writtenOptions? hordered hwritten).sorted hoptions

end Reading

/-! ### From the settings to the processes -/

section Variables

variable {settings : RuntimeSettings} {options env : List (String × Json)} {f : Json → Json}

/-- The variables that are chosen are those that stand under `env` in the options. -/
theorem Spawn.get?_chosenVariables
    (hoptions : settings.options.entries = options.map fun o => (o.1, o.2.mapLeaves f))
    (henv : SortedByName.get? "env" options = some (.obj env)) (hsorted : SortedByName env)
    (name : String) :
    (chosenVariables settings).get? name =
      (SortedByName.get? name env).map fun v => variableText (v.mapLeaves f) := by
  have hread : settings.options.get? "env" = some (.obj (Json.mapMembers f env)) := by
    rw [Dict.get?, hoptions, SortedByName.get?_map, henv]
    rfl
  have hvariables : (chosenVariables settings).entries =
      env.map fun m => (m.1, variableText (m.2.mapLeaves f)) := by
    rw [chosenVariables, hread, Option.bind_some, Json.asObj?, Option.getD_some,
      Json.mapMembers_eq_map, List.map_map]
    exact Dict.entries_ofList (hsorted.map fun m => variableText (m.2.mapLeaves f))
  rw [Dict.get?, hvariables]
  exact SortedByName.get?_map name env fun v => variableText (v.mapLeaves f)

end Variables

namespace HostConfig

variable {c : HostConfig} {t : List (String × Json)} {v : Json}

/-- A configuration keeps languages if it has them, one by one, with their options. -/
theorem keeps_of_forall₂ {languages : List (String × Json)}
    (hordered : ∀ m ∈ languages, m.2.Ordered)
    (h : List.Forall₂ (fun m e => e.1 = m.1 ∧ e.2.options.entries =
      (RuntimeSettings.writtenOptions m.2).map fun o => (o.1, o.2.mapLeaves Reading.finiteLeaf))
      languages c.languages.entries) : c.Keeps languages := by
  have hoptions : ∀ m ∈ languages, ∃ settings, c.languages.get? m.1 = some settings ∧
      settings.options.entries =
        (RuntimeSettings.writtenOptions m.2).map fun o =>
          (o.1, o.2.mapLeaves Reading.finiteLeaf) := by
    intro m hm
    obtain ⟨i, hi, rfl⟩ := List.mem_iff_getElem.mp hm
    obtain ⟨hlength, hget⟩ := List.forall₂_iff_get.mp h
    obtain ⟨hname, hentries⟩ := hget i hi (hlength ▸ hi)
    exact ⟨_, hname ▸ Dict.mem_entries_iff.mp (List.get_mem c.languages.entries _), hentries⟩
  refine ⟨?_, hoptions, ?_⟩
  · refine (List.forall₂_eq_eq_eq ▸ List.forall₂_map_left_iff.mpr
      (List.forall₂_map_right_iff.mpr ?_) : _ = _)
    exact h.flip.imp fun _ _ he => he.1
  · intro m hm env henv h r e language s hu he hkind hs hsettings w hw
    obtain ⟨s', program, args, hs', hitem⟩ := (hu.furnished he).spawns language hkind w hw
    obtain rfl := Option.some.inj (hs.symm.trans hs')
    refine ⟨_, hitem, fun name hname => ?_⟩
    obtain ⟨settings, hget, hentries⟩ := hoptions m hm
    obtain rfl := Option.some.inj (hsettings.symm.trans hget)
    have hsorted := ((Reading.ordered_writtenOptions (hordered m hm)).get? henv).sorted
    rw [← Spawn.get?_chosenVariables hentries henv hsorted]
    exact (Dict.get?_insert _ _ _ _).trans (if_neg hname)

/-- A configuration keeps what the tree says that it is read from. -/
theorem keeps_of_config? (hordered : v.Ordered)
    (hsame : SortedByName.get? "languages" t = v.member? "languages")
    (h : Reading.lenient.config? (.obj t) = some c) :
    c.fillNames.Keeps (writtenLanguages v) := by
  simp only [Reading.config?, Option.bind_eq_bind, Option.bind_eq_some_iff, Option.pure_def,
    Option.some.injEq] at h
  obtain ⟨given, hgiven, app, -, languages, hlanguages, memory, -, rfl⟩ := h
  obtain rfl : t = given := Option.some.inj hgiven
  rw [Reading.field, hsame] at hlanguages
  unfold writtenLanguages
  cases hwritten : v.member? "languages" with
  | none =>
    rw [hwritten] at hlanguages
    obtain rfl := Option.some.inj hlanguages
    exact keeps_of_forall₂ (fun _ hm => by cases hm) .nil
  | some w =>
    rw [hwritten] at hlanguages
    obtain ⟨members, rfl⟩ := Reading.exists_obj_of_dict? hlanguages
    have hmembers : (Json.obj members).Ordered := by
      cases v with
      | obj _ => exact hordered.get? hwritten
      | _ => cases hwritten
    have hread := (List.forall₂_and_left (p := (· ∈ members)) _ _).mpr
      ⟨fun _ hm => hm, Reading.forall₂_of_dict? hmembers.sorted hlanguages⟩
    refine keeps_of_forall₂ (fun m hm => hmembers.member hm) (List.forall₂_map_right_iff.mpr ?_)
    refine hread.imp fun m e ⟨hm, hname, he⟩ => ⟨hname, ?_⟩
    have hfilled : (if e.2.name = "" then { e.2 with name := e.1 } else e.2).options =
        e.2.options := by
      split <;> rfl
    rw [hfilled]
    exact Reading.options_of_runtime? (hmembers.member hm) he

variable {f : ConfigFile} {entries : List (String × Json)} {environment : List (String × String)}

/-- What is loaded is read from the tree of the file. -/
theorem exists_config?_of_load (hentries : f.entries? = some entries)
    (hvariables : variableEntries environment = [])
    (hload : load (some f) environment = .ok c) :
    ∃ c', Reading.lenient.config? (layer (.obj []) entries) = some c' ∧ c = c'.fillNames := by
  have htree : layer (layer (.obj []) entries) (variableEntries environment) =
      layer (.obj []) entries := by rw [hvariables, layer, List.foldl_nil]
  simp only [load, hentries, pure_bind, htree] at hload
  split at hload
  · cases hload
  · next c' hc' =>
    split at hload
    · exact ⟨c', hc', (Except.ok.inj hload).symm⟩
    · cases hload

/-- Where no two names of one table are the same in lower case, a configuration that is loaded keeps
the languages of the file with its names in lower case. -/
theorem keeps_lowered (hentries : f.entries? = some entries)
    (hvariables : variableEntries environment = [])
    (hpaths : ∀ e ∈ entries,
      (Path.ofString e.1).head = "languages" → (Path.ofString e.1).steps = [])
    (hload : load (some f) environment = .ok c) (hapart : (Json.obj entries).Apart) :
    c.Keeps (writtenLanguages (Json.obj entries).lowered) := by
  have hdot : '.' ∉ "languages".toList := by decide
  have hbracket : '[' ∉ "languages".toList := by decide
  obtain ⟨t, htree, hsame⟩ := get?_layer (t := []) (u := []) hdot hbracket hpaths
    (fun m hm => hapart.member hm) hapart.nodup (fun _ _ _ => rfl) rfl
  obtain ⟨c', hc', rfl⟩ := exists_config?_of_load hentries hvariables hload
  rw [htree] at hc'
  exact keeps_of_config? (ConfigFile.ordered_entries hentries).lowered hsame hc'

/-- A configuration that is loaded keeps the languages of its file with their names in lower case
and with the names outside arrays in their options in lower case, if no two names of one table are
the same then; so it keeps them as they are written if all these names are written in lower case.
No variable of the environment may set a part of the configuration, and no name of the file may be
read as a path to a part of the languages. -/
theorem keeps_load (hentries : f.entries? = some entries)
    (hvariables : variableEntries environment = [])
    (hpaths : ∀ e ∈ entries,
      (Path.ofString e.1).head = "languages" → (Path.ofString e.1).steps = [])
    (hload : load (some f) environment = .ok c) :
    ((Json.obj entries).Apart → c.Keeps (writtenLanguages (Json.obj entries).lowered)) ∧
      ((Json.obj entries).LowerCase → c.Keeps (writtenLanguages (.obj entries))) := by
  refine ⟨keeps_lowered hentries hvariables hpaths hload, fun hcase => ?_⟩
  have hordered := ConfigFile.ordered_entries hentries
  have hkeeps := keeps_lowered hentries hvariables hpaths hload (hcase.apart hordered)
  rwa [hcase.lowered_eq hordered] at hkeeps

theorem keeps_load_of_lower_case :
    let f : ConfigFile := ⟨.toml, "[languages.python.options.env]\nhome = \"x\"\n"⟩
    let environment := [("POLYHOST_CONFIG", "polyhost")]
    ∃ entries c, f.entries? = some entries ∧ variableEntries environment = [] ∧
      (∀ e ∈ entries, (Path.ofString e.1).head = "languages" → (Path.ofString e.1).steps = []) ∧
      load (some f) environment = .ok c ∧ c.languages.keys = ["python"] ∧
      (Json.obj entries).Apart ∧ (Json.obj entries).LowerCase ∧
      c.Keeps (writtenLanguages (Json.obj entries).lowered) ∧
      c.Keeps (writtenLanguages (.obj entries)) := by
  intro f environment
  let entries := f.entries?.get (by decide +kernel)
  have hentries : f.entries? = some entries := (Option.some_get _).symm
  have hvariables : variableEntries environment = [] :=
    List.map_eq_nil_iff.mp (by decide +kernel : (variableEntries environment).map Prod.fst = [])
  have hpaths : ∀ e ∈ entries,
      (Path.ofString e.1).head = "languages" → (Path.ofString e.1).steps = [] := by decide +kernel
  have hcase : (Json.obj entries).LowerCase := by decide +kernel
  have hapart := hcase.apart (ConfigFile.ordered_entries hentries)
  have hkeys : (load (some f) environment).toOption.map (fun c => c.languages.keys) =
      some ["python"] := by decide +kernel
  cases hload : load (some f) environment with
  | error failure =>
    rw [hload] at hkeys
    cases hkeys
  | ok c =>
    rw [hload] at hkeys
    obtain ⟨hlower, hsame⟩ := keeps_load hentries hvariables hpaths hload
    exact ⟨entries, c, hentries, hvariables, hpaths, rfl, Option.some.inj hkeys, hapart, hcase,
      hlower hapart, hsame hcase⟩

/-- A variable with a name in capital letters is not kept. -/
theorem not_keeps_load_of_capitals :
    let f : ConfigFile := ⟨.toml, "[languages.python.options.env]\nHOME = \"x\"\n"⟩
    ∃ entries c, f.entries? = some entries ∧ load (some f) [] = .ok c ∧
      ¬ c.Keeps (writtenLanguages (.obj entries)) := by
  intro f
  let entries := f.entries?.get (by decide +kernel)
  have hentries : f.entries? = some entries := (Option.some_get _).symm
  obtain ⟨m, hm, hname, hwritten⟩ : ∃ m ∈ writtenLanguages (.obj entries), m.1 = "python" ∧
      ((RuntimeSettings.writtenOptions m.2).map fun o =>
        (o.2.mapLeaves Reading.finiteLeaf).names) = [["HOME"]] := by decide +kernel
  have hread : (load (some f) []).toOption.map (fun c => (c.languages.get? "python").map
      fun settings => settings.options.entries.map fun o => o.2.names) =
        some (some [["home"]]) := by decide +kernel
  cases hload : load (some f) [] with
  | error failure =>
    rw [hload] at hread
    cases hread
  | ok c =>
    refine ⟨entries, c, hentries, rfl, fun hkeeps => ?_⟩
    obtain ⟨settings, hget, hoptions⟩ := hkeeps.options_eq m hm
    rw [hname] at hget
    rw [hload] at hread
    have hnames : (c.languages.get? "python").map
        (fun settings => settings.options.entries.map fun o => o.2.names) = some [["home"]] :=
      Option.some.inj hread
    rw [hget, Option.map_some, hoptions, List.map_map] at hnames
    exact absurd (hwritten.symm.trans (Option.some.inj hnames)) (by decide)

end HostConfig

end LanguageHost
