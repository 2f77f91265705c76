import LanguageHost.Proofs.Config.Places
import LanguageHost.Proofs.Config.Names

/-!
# Fields of a configuration

A configuration consists of records: the application, the shared memory and, under each key of the
languages, a runtime.  Each of them is read field by field (`Schema.Reads`): a field that is written
is read from what is written, and one that is not written has its usual value.  A record may be an
array of its leading fields, so what is written of a field (`Schema.written?`) is what stands at
the place of the field only where there is no array (`Schema.written?_of_not_arr`).  The name of a
runtime is a field like the others, once its key counts as its usual name and as what an empty name
means (`RuntimeSettings.schema`).
-/

namespace LanguageHost

variable {α : Type}

/-- A field of a record: its name, its value and how it is read from what is written. -/
structure Field (α : Type) where
  Value : Type
  name : String
  get : α → Value
  read? : Json → Option Value

/-- The fields of a record, in the order in which an array has them, and the record of which nothing
is written. -/
structure Schema (α : Type) where
  fields : List (Field α)
  usual : α

namespace Schema

variable {S : Schema α} {a a' : α} {v : Json} {v? : Option Json} {name : String}

/-- What is written of a field. -/
def written? (S : Schema α) (name : String) (v? : Option Json) : Option Json :=
  (v?.bind (Reading.lenient.fields? (S.fields.map Field.name))).bind (SortedByName.get? name)

/-- A field of a record is what is written of it, or as usual if nothing is. -/
def ReadsField (S : Schema α) (f : Field α) (w? : Option Json) (a : α) : Prop :=
  w?.elim (some (f.get S.usual)) f.read? = some (f.get a)

/-- A record is read field by field from what is written of it. -/
def Reads (S : Schema α) (v? : Option Json) (a : α) : Prop :=
  ∀ f ∈ S.fields, S.ReadsField f (S.written? f.name v?) a

theorem reads_usual (S : Schema α) : S.Reads none S.usual := fun _ _ => rfl

theorem field_eq_elim {β : Type} (given : List (String × Json)) (name : String)
    (read? : Json → Option β) (usual : β) :
    Reading.field given name read? usual =
      (SortedByName.get? name given).elim (some usual) read? := by
  unfold Reading.field
  cases SortedByName.get? name given <;> rfl

/-- A field that is read with one more step has its usual value with one more step, too. -/
theorem field_map {β γ : Type} {given : List (String × Json)} {name : String}
    {read? : Json → Option β} {usual b : β} (g : β → γ)
    (h : Reading.field given name read? usual = some b) :
    Reading.field given name (fun v => (read? v).map g) (g usual) = some (g b) := by
  rw [field_eq_elim] at h ⊢
  cases hget : SortedByName.get? name given with
  | none =>
    rw [hget] at h
    exact congrArg (Option.map g) h
  | some w =>
    rw [hget] at h
    exact congrArg (Option.map g) h

theorem reads_of_fields? {given : List (String × Json)}
    (hgiven : Reading.lenient.fields? (S.fields.map Field.name) v = some given)
    (h : ∀ f ∈ S.fields, Reading.field given f.name f.read? (f.get S.usual) = some (f.get a)) :
    S.Reads (some v) a := by
  intro f hf
  rw [ReadsField, written?, Option.bind_some, hgiven, Option.bind_some, ← field_eq_elim]
  exact h f hf

/-- What stands in the place of a field is what is written of it. -/
theorem written?_of_member? {w : Json} (h : v.member? name = some w) :
    S.written? name (some v) = some w := by
  cases v with
  | obj members => exact h
  | _ => cases h

/-- Outside arrays, what is written of a field is what stands in its place. -/
theorem written?_of_not_arr (h : ∀ items, v? ≠ some (.arr items)) :
    S.written? name v? = v?.bind fun v => v.member? name := by
  cases v? with
  | none => rfl
  | some v =>
    cases v with
    | arr items => exact absurd rfl (h items)
    | _ => rfl

/-- Two records agree in a field of which the same is written. -/
theorem ReadsField.eq {f : Field α} {w? : Option Json} (h : S.ReadsField f w? a)
    (h' : S.ReadsField f w? a') : f.get a = f.get a' :=
  Option.some.inj (h.symm.trans h')

end Schema

/-! ### The records of a configuration -/

/-- The fields of what is known about the application. -/
def AppInfo.schema : Schema AppInfo where
  fields := [
    ⟨String, "name", AppInfo.name, Reading.lenientText?⟩,
    ⟨String, "version", AppInfo.version, Reading.lenientText?⟩,
    ⟨String, "description", AppInfo.description, Reading.lenientText?⟩,
    ⟨String, "author", AppInfo.author, Reading.lenientText?⟩,
    ⟨String, "license", AppInfo.license, Reading.lenientText?⟩]
  usual := default

/-- The limit of the shared memory, as a field. -/
def MemorySettings.limitField : Field MemorySettings :=
  ⟨UInt64, "max_shared_memory", MemorySettings.limit,
    fun v => (Reading.lenientCount? v).map Nat.toUInt64⟩

/-- The rule of the shared memory, as a field. -/
def MemorySettings.ruleField : Field MemorySettings :=
  ⟨AccessRule, "access_policy", MemorySettings.rule, Reading.lenientRule?⟩

/-- The fields of the settings of the shared memory. -/
def MemorySettings.schema : Schema MemorySettings := ⟨[limitField, ruleField], default⟩

/-- Options are read from a table, key by key. -/
def RuntimeSettings.readOptions? : Json → Option (Dict Json) :=
  Reading.dict? fun v => some (v.mapLeaves Reading.finiteLeaf)

/-- The options of a runtime, as a field. -/
def RuntimeSettings.optionsField : Field RuntimeSettings :=
  ⟨Dict Json, "options", RuntimeSettings.options, readOptions?⟩

/-- The settings of a runtime under its key: an empty name means the key. -/
def RuntimeSettings.named (key : String) (r : RuntimeSettings) : RuntimeSettings :=
  if r.name = "" then { r with name := key } else r

/-- The fields of the settings of a runtime under its key. -/
def RuntimeSettings.schema (key : String) : Schema RuntimeSettings where
  fields := [
    ⟨String, "name", RuntimeSettings.name,
      fun v => (Reading.lenientText? v).map fun s => if s = "" then key else s⟩,
    ⟨String, "version", RuntimeSettings.version, Reading.lenientText?⟩,
    ⟨Bool, "enabled", RuntimeSettings.enabled, Reading.lenientFlag?⟩,
    optionsField,
    ⟨Nat, "max_concurrency", RuntimeSettings.maxConcurrency, Reading.lenientCount?⟩,
    ⟨Nat, "timeout_secs", RuntimeSettings.timeoutSecs, Reading.lenientCount?⟩]
  usual := { (default : RuntimeSettings) with name := key }

theorem AppInfo.reads_of_app? {v : Json} {a : AppInfo} (h : Reading.lenient.app? v = some a) :
    AppInfo.schema.Reads (some v) a := by
  simp only [Reading.app?, Option.bind_eq_bind, Option.bind_eq_some_iff, Option.pure_def,
    Option.some.injEq] at h
  obtain ⟨given, hgiven, name, hname, version, hversion, description, hdescription, author,
    hauthor, license, hlicense, rfl⟩ := h
  refine Schema.reads_of_fields? hgiven ?_
  simp only [schema, List.forall_mem_cons]
  exact ⟨hname, hversion, hdescription, hauthor, hlicense, fun _ hf => by cases hf⟩

theorem MemorySettings.reads_of_memory? {v : Json} {a : MemorySettings}
    (h : Reading.lenient.memory? v = some a) : MemorySettings.schema.Reads (some v) a := by
  simp only [Reading.memory?, Option.bind_eq_bind, Option.bind_eq_some_iff, Option.pure_def,
    Option.some.injEq] at h
  obtain ⟨given, hgiven, limit, hlimit, rule, hrule, rfl⟩ := h
  refine Schema.reads_of_fields? hgiven ?_
  simp only [schema, List.forall_mem_cons]
  exact ⟨Schema.field_map Nat.toUInt64 hlimit, hrule, fun _ hf => by cases hf⟩

theorem RuntimeSettings.named_eq (key : String) (r : RuntimeSettings) :
    r.named key = { r with name := if r.name = "" then key else r.name } := by
  unfold named
  split <;> rfl

theorem RuntimeSettings.reads_of_runtime? {v : Json} {r : RuntimeSettings} (key : String)
    (h : Reading.lenient.runtime? v = some r) : (schema key).Reads (some v) (r.named key) := by
  simp only [Reading.runtime?, Option.bind_eq_bind, Option.bind_eq_some_iff, Option.pure_def,
    Option.some.injEq] at h
  obtain ⟨given, hgiven, name, hname, version, hversion, enabled, henabled, options, hoptions,
    concurrency, hconcurrency, timeout, htimeout, rfl⟩ := h
  refine Schema.reads_of_fields? hgiven ?_
  simp only [schema, optionsField, List.forall_mem_cons, named_eq]
  exact ⟨Schema.field_map (fun s => if s = "" then key else s) hname, hversion, henabled, hoptions,
    hconcurrency, htimeout, fun _ hf => by cases hf⟩

/-! ### Options, key by key -/

namespace Json

variable {f : Json → Json} {v : Json}

theorem member?_mapLeaves (hf : ∀ v, v.isLeaf = true → (f v).isLeaf = true) (name : String) :
    (v.mapLeaves f).member? name = (v.member? name).map (mapLeaves f) := by
  have hleaf : ∀ {w : Json}, w.isLeaf = true → w.member? name = none := fun {w} hw => by
    cases w with
    | obj members => cases hw
    | _ => rfl
  by_cases hv : v.isLeaf = true
  · rw [mapLeaves_of_isLeaf hv, hleaf (hf v hv), hleaf hv, Option.map_none]
  · cases v with
    | arr items => rfl
    | obj members =>
      rw [mapLeaves, mapMembers_eq_map]
      exact SortedByName.get?_map name members (mapLeaves f)
    | _ => exact absurd rfl hv

/-- Another value in place of each leaf, at the end of names. -/
theorem at?_mapLeaves (hf : ∀ v, v.isLeaf = true → (f v).isLeaf = true) (q : List String) :
    (v.mapLeaves f).at? q = (v.at? q).map (mapLeaves f) := by
  induction q generalizing v with
  | nil => rfl
  | cons name q ih =>
    rw [at?_cons, at?_cons, member?_mapLeaves hf]
    cases v.member? name with
    | none => rfl
    | some w => exact ih

end Json

theorem Reading.isLeaf_finiteLeaf {v : Json} (h : v.isLeaf = true) :
    (finiteLeaf v).isLeaf = true := by
  unfold finiteLeaf
  split
  · split <;> rfl
  · exact h

namespace RuntimeSettings

variable {key : String} {s : RuntimeSettings} {v : Json} {v? w? : Option Json} {q : List String}

/-- What stands at the end of names in the options. -/
def option? (s : RuntimeSettings) (q : List String) : Option Json :=
  (Json.obj s.options.entries).at? q

theorem ordered_written? (hv : ∀ v, v? = some v → v.Ordered) {w : Json}
    (h : (schema key).written? "options" v? = some w) : w.Ordered := by
  obtain ⟨given, hgiven, hw⟩ := Option.bind_eq_some_iff.mp h
  obtain ⟨v, rfl, hfields⟩ := Option.bind_eq_some_iff.mp hgiven
  rw [Reading.get?_options_of_fields? hfields] at hw
  exact Reading.ordered_writtenOptions? (hv v rfl) hw

/-- The options are what is written of them, key by key at any depth. -/
theorem option?_of_readsField (hw : ∀ w, w? = some w → w.Ordered)
    (h : (schema key).ReadsField optionsField w? s) (hq : q ≠ []) :
    s.option? q = (w?.bind (Json.at? q)).map (Json.mapLeaves Reading.finiteLeaf) := by
  cases w? with
  | none =>
    have hempty : Dict.empty = s.options := Option.some.inj h
    rw [option?, ← hempty]
    cases q with
    | nil => exact absurd rfl hq
    | cons name q => rfl
  | some w =>
    have hread : readOptions? w = some s.options := h
    obtain ⟨members, rfl⟩ := Reading.exists_obj_of_dict? hread
    have hentries : Json.obj s.options.entries =
        (Json.obj members).mapLeaves Reading.finiteLeaf := by
      rw [Reading.entries_of_dict? (hw _ rfl).sorted hread, Json.mapLeaves, Json.mapMembers_eq_map]
    rw [option?, hentries, Json.at?_mapLeaves fun _ => Reading.isLeaf_finiteLeaf]
    rfl

end RuntimeSettings

/-! ### Whole configurations -/

namespace Reading

variable {read? : Json → Option α} {members : List (String × Json)} {d : Dict α}

/-- A table is read member by member. -/
theorem get?_of_forall₂ {entries : List (String × α)} (key : String)
    (h : List.Forall₂ (fun m e => e.1 = m.1 ∧ read? m.2 = some e.2) members entries) :
    (SortedByName.get? key members).map read? = (SortedByName.get? key entries).map some := by
  induction h with
  | nil => rfl
  | @cons m e members entries he _ ih =>
    obtain ⟨hname, hread⟩ := he
    by_cases hkey : m.1 = key
    · simp [SortedByName.get?, hkey, hname, hread]
    · simpa [SortedByName.get?, hkey, hname] using ih

/-- A table under a name is read member by member, or it is empty. -/
theorem at?_of_dict? (hordered : (Json.obj members).Ordered) (name key : String)
    (h : field members name (dict? read?) Dict.empty = some d) :
    ((Json.obj members).at? [name, key]).map read? = (d.get? key).map some := by
  rw [Schema.field_eq_elim] at h
  rw [Json.at?_cons]
  cases hw : SortedByName.get? name members with
  | none =>
    rw [hw] at h
    rw [← Option.some.inj h, Json.member?, hw]
    rfl
  | some w =>
    rw [hw] at h
    obtain ⟨entries, rfl⟩ := exists_obj_of_dict? h
    rw [Json.member?, hw, Option.bind_some, Json.at?_singleton]
    exact get?_of_forall₂ key (forall₂_of_dict? (hordered.get? hw).sorted h)

end Reading

/-- A configuration that is read from a tree, record by record, with a name for every runtime. -/
structure HostConfig.ReadFrom (c : HostConfig) (t : Json) : Prop where
  app : AppInfo.schema.Reads (t.at? ["app"]) c.app
  memory : MemorySettings.schema.Reads (t.at? ["memory"]) c.memory
  keys : ∀ key, (c.languages.get? key).isSome = (t.at? ["languages", key]).isSome
  languages : ∀ key s, c.languages.get? key = some s →
    (RuntimeSettings.schema key).Reads (t.at? ["languages", key]) s

/-- A record under a name is read, or it is as usual. -/
theorem Schema.reads_of_field {S : Schema α} {a : α} {read? : Json → Option α} {v : Json}
    (name : String) (hread : ∀ w, read? w = some a → S.Reads (some w) a)
    (h : Reading.field (v.asObj?.getD []) name read? S.usual = some a) :
    S.Reads (v.at? [name]) a := by
  rw [field_eq_elim, Json.member?_asObj?] at h
  rw [Json.at?_singleton]
  cases hw : v.member? name with
  | none =>
    rw [hw] at h
    exact Option.some.inj h ▸ S.reads_usual
  | some w =>
    rw [hw] at h
    exact hread w h

/-- A configuration is read from its tree. -/
theorem HostConfig.readFrom_of_config? {members : List (String × Json)} {c : HostConfig}
    (hordered : (Json.obj members).Ordered)
    (h : Reading.lenient.config? (.obj members) = some c) :
    c.fillNames.ReadFrom (.obj members) := by
  simp only [Reading.config?, Option.bind_eq_bind, Option.bind_eq_some_iff, Option.pure_def,
    Option.some.injEq] at h
  obtain ⟨given, hgiven, app, happ, languages, hlanguages, memory, hmemory, rfl⟩ := h
  obtain rfl : members = given := Option.some.inj hgiven
  have hentry := fun key => Reading.at?_of_dict? hordered "languages" key hlanguages
  have hfilled : ∀ key, (HostConfig.fillNames ⟨app, languages, memory⟩).languages.get? key =
      (languages.get? key).map (RuntimeSettings.named key) := fun key => Dict.get?_map _ _ key
  refine ⟨Schema.reads_of_field "app" (fun _ => AppInfo.reads_of_app?) happ,
    Schema.reads_of_field "memory" (fun _ => MemorySettings.reads_of_memory?) hmemory,
    fun key => ?_, fun key s hs => ?_⟩
  · rw [hfilled, Option.isSome_map, ← Option.isSome_map (f := some), ← hentry, Option.isSome_map]
  · rw [hfilled] at hs
    obtain ⟨r, hr, rfl⟩ := Option.map_eq_some_iff.mp hs
    have hkey := hentry key
    rw [hr] at hkey
    obtain ⟨v, hv, hread⟩ := Option.map_eq_some_iff.mp hkey
    rw [hv]
    exact RuntimeSettings.reads_of_runtime? key hread

end LanguageHost
