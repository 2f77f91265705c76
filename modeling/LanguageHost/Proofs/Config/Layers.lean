import LanguageHost.Proofs.Config.Fields
import LanguageHost.Proofs.Config.Separate

/-!
# Layers of a configuration

A configuration is loaded from a file and from variables of the environment.  The file alone gives a
tree (`HostConfig.fileTree?`), on which the variables are put, and the configuration is read from
the result (`HostConfig.load_eq`).  Neither the entries of the file nor the variables have an order,
so nothing is said of those that overlap.  Of those that do not, each field has its layers for
itself (`Schema.Layered`): a variable that sets the field decides; if there is none, the file does;
and if the file does not write the field, it is as usual.  The fields that stand beside it do not
matter, with one exception: a file may write a record as an array of its leading fields, and a
variable that sets any part of such a record puts a table in the place of the array
(`HostConfig.name_lost_of_array`).
`HostConfig.load_leaf_by_leaf` states this for whole configurations, together with what more
variables leave alone and what becomes of a configuration that is not valid.
-/

namespace LanguageHost

open HostConfig (put Untouched Tabular)

variable {α : Type} {S : Schema α} {F t t' : Json} {vs others added : List (Path × String)}
  {base q : List String} {name : String} {a a' : α}

/-! ### One record -/

/-- A field that is never read from an array or a table. -/
def Field.IsScalar (f : Field α) : Prop := ∀ w : Json, w.isLeaf = false → f.read? w = none

namespace Schema

/-- What stands in the place of a field is what is written of it. -/
theorem written?_of_at? {w : Json} (h : t.at? (base ++ [name]) = some w) :
    S.written? name (t.at? base) = some w := by
  rw [Json.at?_append] at h
  obtain ⟨v, hv, hw⟩ := Option.bind_eq_some_iff.mp h
  rw [hv]
  exact written?_of_member? (Json.at?_singleton name v ▸ hw)

/-- Where a record is no array, what stands in the place of a field is all that is written of it. -/
theorem written?_eq_at? (h : ¬ t.HasArray base) :
    S.written? name (t.at? base) = t.at? (base ++ [name]) := by
  rw [written?_of_not_arr fun items hitems => h ⟨items, hitems⟩, Json.at?_append]
  exact congrArg _ (funext fun v => (Json.at?_singleton name v).symm)

/-- The same below a field. -/
theorem written?_bind_at? (h : ¬ t.HasArray base) :
    (S.written? name (t.at? base)).bind (Json.at? q) = t.at? (base ++ name :: q) := by
  rw [written?_eq_at? h, ← Json.at?_append, List.append_assoc, List.singleton_append]

/-- What the names of fields are that may be read from a table: the rule of the shared memory and
the options of a runtime. -/
def openNames : List String := ["access_policy", "options"]

/-- A record whose fields come from a file and from variables, field by field. -/
structure Layered (S : Schema α) (F : Json) (vs : List (Path × String)) (base : List String)
    (a : α) : Prop where
  /-- A variable that ends at the place of a field sets the field. -/
  set : ∀ f ∈ S.fields, ∀ e ∈ vs, e.1.reach = base ++ [f.name] → e.1.isPlain = true →
    f.read? (.str e.2) = some (f.get a)
  /-- No variable goes on below a field or makes an array of it, unless the field may be a table. -/
  exactly : ∀ f ∈ S.fields, f.name ∉ openNames → ∀ e ∈ vs, base ++ [f.name] <+: e.1.reach →
    e.1.reach = base ++ [f.name] ∧ e.1.isPlain = true
  /-- A field that no variable meets is what the file says, or as usual if the file does not say
  it. -/
  kept : ∀ f ∈ S.fields, Untouched vs (base ++ [f.name]) →
    (F.HasArray base → Untouched vs base) → S.ReadsField f (S.written? f.name (F.at? base)) a
  /-- Where the file has an array in the place of the record, a variable that sets any other part of
  the record takes the array away. -/
  dropped : ∀ f ∈ S.fields, Untouched vs (base ++ [f.name]) → F.HasArray base →
    ¬ Untouched vs base → f.get a = f.get S.usual
  /-- A variable that ends above a field takes away what the file says about it. -/
  lost : ∀ f ∈ S.fields, ∀ e ∈ vs, e.1.reach <+: base →
    (e.1.reach = base → e.1.isPlain = true) → f.get a = f.get S.usual
  /-- If a variable makes an array of the record, all fields are read from that array. -/
  indexed : ∀ e ∈ vs, e.1.reach = base → e.1.isPlain = false →
    ∃ items, (put F vs).at? base = some (.arr items) ∧ S.Reads (some (.arr items)) a

/-- A record that is read from a tree of layers is layered. -/
theorem layered_of_reads (hvs : Path.Separate (vs.map Prod.fst))
    (hscalar : ∀ f ∈ S.fields, f.name ∉ openNames → f.IsScalar)
    (h : S.Reads ((put F vs).at? base) a) : S.Layered F vs base a where
  set f hf e he hreach hplain := by
    obtain ⟨u, hu⟩ := HostConfig.exists_put_eq_set hvs he F
    have hplace : (put F vs).at? (base ++ [f.name]) = some (.str e.2) := by
      rw [hu, ← hreach]
      exact Path.at?_set_of_plain e.1 e.2 u hplain
    have hread := h f hf
    rwa [written?_of_at? hplace] at hread
  exactly f hf hname e he hbelow := by
    obtain ⟨u, hu⟩ := HostConfig.exists_put_eq_set hvs he F
    have hread := h f hf
    by_contra hother
    -- Otherwise an array or a table stands in the place of the field, and it cannot be read.
    obtain ⟨w, hw, hleaf⟩ : ∃ w, (e.1.set (.str e.2) u).at? (base ++ [f.name]) = some w ∧
        w.isLeaf = false := by
      by_cases heq : base ++ [f.name] = e.1.reach
      · have hindex : e.1.isPlain = false :=
          Bool.eq_false_iff.mpr fun hplain => hother ⟨heq.symm, hplain⟩
        obtain ⟨items, hitems⟩ := Path.at?_set_of_index e.1 e.2 u hindex
        exact ⟨.arr items, heq ▸ hitems, rfl⟩
      · obtain ⟨members, hmembers⟩ := Path.at?_set_of_above e.1 e.2 u hbelow heq
        exact ⟨.obj members, hmembers, rfl⟩
    rw [written?_of_at? (hu ▸ hw), ReadsField, Option.elim_some,
      hscalar f hf hname w hleaf] at hread
    cases hread
  kept f hf huntouched hrecord := by
    have hread := h f hf
    -- An array is still the same, as no variable meets it; outside arrays only the place counts.
    by_cases harr : F.HasArray base
    · rwa [HostConfig.at?_put_of_untouched (hrecord harr)] at hread
    · have htabular := huntouched.tabular (List.prefix_append base _) harr
      rw [written?_eq_at? htabular.not_hasArray_put,
        HostConfig.at?_put_of_untouched huntouched] at hread
      rwa [written?_eq_at? harr]
  dropped f hf huntouched harr hmet := by
    have hread := h f hf
    rw [written?_eq_at? (HostConfig.not_hasArray_put_of_met hvs (List.prefix_append base _)
        huntouched hmet),
      HostConfig.at?_put_of_untouched huntouched, harr.at?_append (List.cons_ne_nil _ _)] at hread
    exact (Option.some.inj hread).symm
  lost f hf e he habove hplain := by
    have hne : base ++ [f.name] ≠ e.1.reach := fun heq => by
      have hlength := habove.length_le
      rw [← heq, List.length_append, List.length_singleton] at hlength
      omega
    obtain ⟨u, hu⟩ := HostConfig.exists_put_eq_set hvs he F
    have hread := h f hf
    rw [hu, written?_eq_at? (Path.not_hasArray_set_of_meets e.1 e.2 u (.inl habove) hplain),
      Path.at?_set_of_below e.1 e.2 u (habove.trans (List.prefix_append base _)) hne] at hread
    exact (Option.some.inj hread).symm
  indexed e he hreach hindex := by
    obtain ⟨u, hu⟩ := HostConfig.exists_put_eq_set hvs he F
    obtain ⟨items, hitems⟩ := Path.at?_set_of_index e.1 e.2 u hindex
    have hrecord : (put F vs).at? base = some (.arr items) := hu ▸ hreach ▸ hitems
    exact ⟨items, hrecord, hrecord ▸ h⟩

/-- Two records agree in every field that none of some variables meets, if they are tables or none
of these variables meets them. -/
def AgreesBeside (S : Schema α) (F : Json) (vs added : List (Path × String)) (base : List String)
    (a a' : α) : Prop :=
  ∀ f ∈ S.fields, Untouched added (base ++ [f.name]) → Tabular F vs base ∨ Untouched added base →
    f.get a = f.get a'

/-- What is written of a field that some variables do not meet is the same without them. -/
theorem written?_without (h : Untouched added (base ++ name :: q))
    (hrecord : Tabular F (others ++ added) base ∨ Untouched added base) :
    (S.written? name ((put F (others ++ added)).at? base)).bind (Json.at? q) =
      (S.written? name ((put F others).at? base)).bind (Json.at? q) := by
  rcases hrecord with htabular | hbase
  · have hless : Tabular F others base :=
      ⟨htabular.1, fun e he => htabular.2 e (List.mem_append_left _ he)⟩
    rw [written?_bind_at? htabular.not_hasArray_put, written?_bind_at? hless.not_hasArray_put,
      HostConfig.put_append, HostConfig.at?_put_of_untouched h]
  · rw [HostConfig.put_append, HostConfig.at?_put_of_untouched hbase]

theorem agreesBeside_of_reads (h : S.Reads ((put F (others ++ added)).at? base) a)
    (h' : S.Reads ((put F others).at? base) a') :
    S.AgreesBeside F (others ++ added) added base a a' := by
  intro f hf huntouched hrecord
  have hsame := written?_without (S := S) (q := []) huntouched hrecord
  simp only [Json.at?, Option.bind_fun_some] at hsame
  exact (h f hf).eq (hsame ▸ h' f hf)

end Schema

/-! ### Fields that are no tables -/

section Scalars

variable {w : Json} (h : w.isLeaf = false)

include h

theorem Reading.lenientText?_of_not_leaf : lenientText? w = none := by
  cases w <;> first | rfl | cases h

theorem Reading.lenientFlag?_of_not_leaf : lenientFlag? w = none := by
  cases w <;> first | rfl | cases h

theorem Reading.lenientCount?_of_not_leaf : lenientCount? w = none := by
  cases w <;> first | rfl | cases h

end Scalars

/-- A rule that is read from a table is the one that the only name there means. -/
theorem Reading.ofName?_of_lenientRule? {w x : Json} {rule : AccessRule}
    (h : lenientRule? w = some rule) (hname : w.member? name = some x) :
    AccessRule.ofName? (Text.lower name) = some rule := by
  unfold lenientRule? at h
  split at h
  · cases hname
  · next only v =>
    obtain ⟨m, hm, -⟩ := Option.map_eq_some_iff.mp hname
    have hmem := List.mem_singleton.mp (List.mem_of_find?_eq_some hm)
    have hkey : m.1 = name := by simpa using List.find?_some hm
    rw [← hkey, hmem]
    exact h
  · cases h

theorem AppInfo.isScalar_of_mem :
    ∀ f ∈ AppInfo.schema.fields, f.name ∉ Schema.openNames → f.IsScalar := by
  simp only [schema, List.forall_mem_cons]
  refine ⟨?_, ?_, ?_, ?_, ?_, fun _ hf => by cases hf⟩ <;>
    exact fun _ _ => Reading.lenientText?_of_not_leaf

theorem MemorySettings.isScalar_of_mem :
    ∀ f ∈ MemorySettings.schema.fields, f.name ∉ Schema.openNames → f.IsScalar := by
  simp only [schema, List.forall_mem_cons]
  refine ⟨fun _ w hw => ?_, fun hname => absurd ?_ hname, fun _ hf => by cases hf⟩
  · simp only [limitField, Reading.lenientCount?_of_not_leaf hw, Option.map_none]
  · decide

theorem RuntimeSettings.isScalar_of_mem (key : String) :
    ∀ f ∈ (schema key).fields, f.name ∉ Schema.openNames → f.IsScalar := by
  simp only [schema, List.forall_mem_cons]
  refine ⟨fun _ w hw => ?_, fun _ _ => Reading.lenientText?_of_not_leaf,
    fun _ _ => Reading.lenientFlag?_of_not_leaf, fun hname => absurd ?_ hname,
    fun _ _ => Reading.lenientCount?_of_not_leaf, fun _ _ => Reading.lenientCount?_of_not_leaf,
    fun _ hf => by cases hf⟩
  · simp only [Reading.lenientText?_of_not_leaf hw, Option.map_none]
  · decide

/-! ### Options -/

namespace RuntimeSettings

variable {key : String} {s s' : RuntimeSettings}

/-- Options that come from a file and from variables, key by key at any depth. -/
structure OptionsLayered (key : String) (F : Json) (vs : List (Path × String)) (base : List String)
    (s : RuntimeSettings) : Prop where
  /-- A variable that ends at the place of an option sets the option. -/
  set : ∀ q ≠ [], ∀ e ∈ vs, e.1.reach = base ++ "options" :: q → e.1.isPlain = true →
    s.option? q = some (.str e.2)
  /-- An option that no variable meets is what the file says. -/
  kept : ∀ q ≠ [], Untouched vs (base ++ "options" :: q) → (F.HasArray base → Untouched vs base) →
    s.option? q = (((schema key).written? "options" (F.at? base)).bind (Json.at? q)).map
      (Json.mapLeaves Reading.finiteLeaf)
  /-- Where the file has an array in the place of the runtime, a variable that sets any other part
  of the runtime takes the array away. -/
  dropped : ∀ q ≠ [], Untouched vs (base ++ "options" :: q) → F.HasArray base →
    ¬ Untouched vs base → s.option? q = none
  /-- A variable that ends above an option takes it away. -/
  lost : ∀ q ≠ [], ∀ e ∈ vs, e.1.reach <+: base ++ "options" :: q →
    e.1.reach ≠ base ++ "options" :: q → (e.1.reach = base → e.1.isPlain = true) →
      s.option? q = none
  /-- If no variable ends above an option, it is there if the file has it or a variable goes through
  it. -/
  there : ∀ q ≠ [],
    (∀ e ∈ vs, e.1.reach <+: base ++ "options" :: q → base ++ "options" :: q = e.1.reach) →
      (F.HasArray base → Untouched vs base) → ((s.option? q).isSome = true ↔
        (((schema key).written? "options" (F.at? base)).bind (Json.at? q)).isSome = true ∨
          ∃ e ∈ vs, base ++ "options" :: q <+: e.1.reach)

theorem optionsField_mem (key : String) : optionsField ∈ (schema key).fields :=
  List.mem_of_getElem? (i := 3) rfl

/-- The options are what is written of them in the tree that the settings are read from. -/
theorem option?_of_reads (ht : t.Ordered) (h : (schema key).Reads (t.at? base) s) (hq : q ≠ []) :
    s.option? q = (((schema key).written? "options" (t.at? base)).bind (Json.at? q)).map
      (Json.mapLeaves Reading.finiteLeaf) :=
  option?_of_readsField (fun _ => ordered_written? fun _ => ht.at?) (h _ (optionsField_mem key)) hq

theorem optionsLayered_of_reads (hvs : Path.Separate (vs.map Prod.fst)) (ht : (put F vs).Ordered)
    (h : (schema key).Reads ((put F vs).at? base) s) : OptionsLayered key F vs base s where
  set q hq e he hreach hplain := by
    obtain ⟨u, hu⟩ := HostConfig.exists_put_eq_set hvs he F
    have hbase : base <+: e.1.reach := hreach ▸ List.prefix_append base _
    have hne : e.1.reach ≠ base := fun heq => by simpa using hreach.symm.trans heq
    have harr : ¬ (put F vs).HasArray base := hu ▸
      Path.not_hasArray_set_of_meets e.1 e.2 u (.inr hbase) fun heq => absurd heq hne
    rw [option?_of_reads ht h hq, Schema.written?_bind_at? harr, hu, ← hreach,
      Path.at?_set_of_plain e.1 e.2 u hplain]
    rfl
  kept q hq huntouched hrecord := by
    rw [option?_of_reads ht h hq]
    by_cases harr : F.HasArray base
    · rw [HostConfig.at?_put_of_untouched (hrecord harr)]
    · have htabular := huntouched.tabular (List.prefix_append base _) harr
      rw [Schema.written?_bind_at? htabular.not_hasArray_put,
        HostConfig.at?_put_of_untouched huntouched, Schema.written?_bind_at? harr]
  dropped q hq huntouched harr hmet := by
    rw [option?_of_reads ht h hq, Schema.written?_bind_at? (HostConfig.not_hasArray_put_of_met hvs
        (List.prefix_append base _) huntouched hmet),
      HostConfig.at?_put_of_untouched huntouched, harr.at?_append (List.cons_ne_nil _ _),
      Option.map_none]
  lost q hq e he habove hne hplain := by
    obtain ⟨u, hu⟩ := HostConfig.exists_put_eq_set hvs he F
    have harr : ¬ (put F vs).HasArray base := hu ▸ Path.not_hasArray_set_of_meets e.1 e.2 u
      (List.prefix_or_prefix_of_prefix habove (List.prefix_append base _)) hplain
    rw [option?_of_reads ht h hq, Schema.written?_bind_at? harr, hu,
      Path.at?_set_of_below e.1 e.2 u habove hne.symm, Option.map_none]
  there q hq hends hrecord := by
    rw [option?_of_reads ht h hq, Option.isSome_map]
    by_cases harr : F.HasArray base
    · have hbase := hrecord harr
      rw [HostConfig.at?_put_of_untouched hbase, or_iff_left]
      rintro ⟨e, he, hprefix⟩
      exact hbase e he (.inr ((List.prefix_append base _).trans hprefix))
    · -- A variable that ends at the settings themselves would end above the option.
      have htabular : Tabular F vs base := ⟨harr, fun e he heq => by
        have hplace := hends e he (heq ▸ List.prefix_append base _)
        simpa using hplace.trans heq⟩
      rw [Schema.written?_bind_at? htabular.not_hasArray_put, Schema.written?_bind_at? harr]
      exact HostConfig.isSome_at?_put hends F

end RuntimeSettings

/-! ### Whole configurations -/

/-- A file no two of whose entries overlap, and in whose tables no two names become the same in lower
case. -/
def ConfigFile.Unambiguous (f : ConfigFile) : Prop :=
  ∀ entries, f.entries? = some entries →
    Path.Separate (entries.map fun e => Path.ofString e.1) ∧ ∀ e ∈ entries, e.2.Apart

namespace HostConfig

variable {c c' : HostConfig} {file? : Option ConfigFile} {environment : List (String × String)}

/-- The tree that a file gives, or an empty one if there is no file. -/
def fileTree? : Option ConfigFile → Option Json
  | none => some (.obj [])
  | some f => f.entries?.map (layer (.obj []))

/-- A configuration is loaded by reading it from the tree of the file with the variables put on it;
it is given its names and then checked. -/
theorem load_eq (file? : Option ConfigFile) (environment : List (String × String)) :
    load file? environment =
      match fileTree? file? with
      | none => .error .unreadable
      | some F =>
        match Reading.lenient.config? (put F (assignments environment)) with
        | none => .error .undecodable
        | some c =>
          match c.fillNames.validate with
          | .ok () => .ok c.fillNames
          | .error e => .error (.refused e) := by
  have hput : ∀ t, layer t (variableEntries environment) = put t (assignments environment) :=
    fun t => layer_variableEntries t environment
  cases file? with
  | none =>
    have hempty : layer (.obj []) [] = .obj [] := rfl
    simp only [load, fileTree?, pure_bind, hempty, hput]
    rfl
  | some f =>
    cases hentries : f.entries? with
    | none => simp only [load, fileTree?, hentries, Option.map_none]; rfl
    | some entries =>
      simp only [load, fileTree?, hentries, Option.map_some, pure_bind, hput]
      rfl

/-- A configuration with an application without a name, without any memory to share, or with a
runtime that gives itself another name than its key. -/
def Improper (c : HostConfig) : Prop :=
  c.app.name = "" ∨ c.memory.limit = 0 ∨
    ∃ e ∈ c.languages.entries, e.2.name ≠ "" ∧ e.2.name ≠ e.1

theorem validate_cases (c : HostConfig) :
    c.validate = .ok () ∨ ∃ reason, c.validate = .error (.configInvalid reason) := by
  unfold validate
  split
  · exact .inr ⟨_, rfl⟩
  · split
    · exact .inr ⟨_, rfl⟩
    · split
      · exact .inr ⟨_, rfl⟩
      · exact .inl rfl

/-- The entries with all names filled in. -/
theorem entries_fillNames (c : HostConfig) : c.fillNames.languages.entries =
    c.languages.entries.map fun e => (e.1, e.2.named e.1) := rfl

/-- Giving names does not make a configuration valid or invalid. -/
theorem validate_fillNames_eq_ok_iff : c.fillNames.validate = .ok () ↔ ¬ c.Improper := by
  have hname : ∀ e : String × RuntimeSettings,
      ((e.2.named e.1).name = "" ∨ (e.2.named e.1).name = e.1) ↔
        (e.2.name = "" ∨ e.2.name = e.1) := by
    intro e
    rw [RuntimeSettings.named_eq]
    by_cases hempty : e.2.name = ""
    · simp [hempty]
    · simp [hempty]
  rw [validate_eq_ok_iff, entries_fillNames, List.forall_mem_map]
  simp only [hname, Improper, not_or, not_exists, not_and, Classical.not_not, ← or_iff_not_imp_left]
  rfl

/-- In a valid configuration with all names filled in, every runtime has its key as its name. -/
theorem name_eq_of_fillNames (h : c.fillNames.validate = .ok ()) {key : String}
    {s : RuntimeSettings} (hs : c.fillNames.languages.get? key = some s) : s.name = key := by
  have hproper := validate_fillNames_eq_ok_iff.mp h
  have hmem := Dict.mem_entries_iff.mpr hs
  rw [entries_fillNames] at hmem
  obtain ⟨e, he, heq⟩ := List.mem_map.mp hmem
  obtain ⟨rfl, rfl⟩ := Prod.mk.inj heq
  rw [RuntimeSettings.named_eq]
  dsimp only
  split
  · rfl
  · next hname => exact not_not.mp fun hne => hproper (.inr (.inr ⟨e, he, hname, hne⟩))

/-! ### Trees of files -/

theorem exists_obj_layer {members : List (String × Json)} (entries : List (String × Json)) :
    ∃ members', layer (.obj members) entries = .obj members' := by
  induction entries generalizing members with
  | nil => exact ⟨members, rfl⟩
  | cons e entries ih =>
    obtain ⟨next, hnext⟩ := Path.exists_obj_set (Path.ofString e.1) e.2 (.obj members)
    rw [layer, List.foldl_cons, hnext]
    exact ih

theorem ordered_layer {entries : List (String × Json)} (ht : t.Ordered)
    (h : ∀ e ∈ entries, e.2.Ordered) : (layer t entries).Ordered := by
  induction entries generalizing t with
  | nil => exact ht
  | cons e entries ih =>
    obtain ⟨he, hrest⟩ := List.forall_mem_cons.mp h
    exact ih (Path.ordered_set he (Path.ofString e.1) ht) hrest

/-- The tree of a file is a table, and all tables in it are in order. -/
theorem ordered_fileTree? (h : fileTree? file? = some F) :
    F.Ordered ∧ ∃ members, F = .obj members := by
  have hempty : (Json.obj []).Ordered := .obj List.Pairwise.nil fun _ hm => by cases hm
  cases file? with
  | none => exact Option.some.inj h ▸ ⟨hempty, [], rfl⟩
  | some f =>
    obtain ⟨entries, hentries, rfl⟩ := Option.map_eq_some_iff.mp h
    have hordered := ConfigFile.ordered_entries hentries
    exact ⟨ordered_layer hempty fun e he => hordered.member he, exists_obj_layer entries⟩

/-- Entries under single keys are put on a tree like the members of a table. -/
theorem layer_eq_mergeKeys {entries : List (String × Json)}
    (h : ∀ e ∈ entries, (Path.ofString e.1).steps = []) (t : Json) :
    layer t entries = Path.mergeKeys entries t := by
  induction entries generalizing t with
  | nil => rfl
  | cons e entries ih =>
    obtain ⟨he, hrest⟩ := List.forall_mem_cons.mp h
    have hsingle : Path.ofString e.1 = ⟨e.1, []⟩ :=
      (Path.ofString_cases e.1).resolve_right fun hsteps => hsteps.1 he
    rw [layer, List.foldl_cons, hsingle]
    exact ih hrest _

/-- Entries under single keys that do not overlap have different names in lower case. -/
theorem apart_of_separate {entries : List (String × Json)}
    (hsingle : ∀ e ∈ entries, (Path.ofString e.1).steps = [])
    (hseparate : Path.Separate (entries.map fun e => Path.ofString e.1))
    (hvalues : ∀ e ∈ entries, e.2.Apart) : (Json.obj entries).Apart := by
  refine .obj ?_ hvalues
  refine List.pairwise_map.mpr ((List.pairwise_map.mp hseparate).imp_of_mem ?_)
  intro e e' he he' hapart heq
  have hreach : ∀ e ∈ entries, (Path.ofString e.1).reach = [Text.lower e.1] := fun e he => by
    rw [(Path.ofString_cases e.1).resolve_right fun hsteps => hsteps.1 (hsingle e he)]
    rfl
  rw [hreach e he, hreach e' he', heq] at hapart
  exact hapart (.inl List.prefix_rfl)

/-- The tree of a file is what the file says, with all names in lower case, if no name is read as a
path and no two names of one table become the same. -/
theorem fileTree?_eq_lowered {f : ConfigFile} {entries : List (String × Json)}
    (hentries : f.entries? = some entries)
    (hsingle : ∀ e ∈ entries, (Path.ofString e.1).steps = []) (hapart : (Json.obj entries).Apart) :
    fileTree? (some f) = some (Json.obj entries).lowered := by
  have hset : ∀ m ∈ entries, ∀ t, SortedByName.get? (Text.lower m.1) t = none →
      Path.setKey m.1 m.2 (.obj t) =
        .obj (SortedByName.insert (Text.lower m.1) m.2.lowered t) :=
    fun m hm t => Path.setKey_of_apart (hapart.member hm)
  rw [fileTree?, hentries, Option.map_some, layer_eq_mergeKeys hsingle,
    Path.mergeKeys_of_apart hset hapart.nodup fun _ _ => rfl]
  rfl

/-! ### Layers of a whole configuration -/

/-- A valid configuration with a name for every runtime whose fields come from a file and from
variables, field by field. -/
structure Layered (F : Json) (vs : List (Path × String)) (c : HostConfig) : Prop where
  valid : c.validate = .ok ()
  named : ∀ key s, c.languages.get? key = some s → s.name = key
  app : AppInfo.schema.Layered F vs ["app"] c.app
  memory : MemorySettings.schema.Layered F vs ["memory"] c.memory
  /-- A variable that goes on below the rule names the rule itself. -/
  rule : ∀ e ∈ vs, ∀ name, ["memory", "access_policy", name] <+: e.1.reach →
    AccessRule.ofName? (Text.lower name) = some c.memory.rule
  /-- If no variable ends above the languages, they are those that the file has and those that
  variables go through. -/
  keys : ∀ key, (∀ e ∈ vs, e.1.reach ≠ ["languages"]) →
    (key ∈ c.languages.keys ↔ (F.at? ["languages", key]).isSome = true ∨
      ∃ e ∈ vs, ["languages", key] <+: e.1.reach)
  languages : ∀ key s, c.languages.get? key = some s →
    (RuntimeSettings.schema key).Layered F vs ["languages", key] s
  options : ∀ key s, c.languages.get? key = some s →
    RuntimeSettings.OptionsLayered key F vs ["languages", key] s

/-- Two configurations that agree in every field that none of some variables meets. -/
structure AgreesBeside (F : Json) (vs added : List (Path × String)) (c c' : HostConfig) : Prop where
  app : AppInfo.schema.AgreesBeside F vs added ["app"] c.app c'.app
  memory : MemorySettings.schema.AgreesBeside F vs added ["memory"] c.memory c'.memory
  keys : ∀ key, Untouched added ["languages", key] →
    (key ∈ c.languages.keys ↔ key ∈ c'.languages.keys)
  languages : ∀ key s s', c.languages.get? key = some s → c'.languages.get? key = some s' →
    (RuntimeSettings.schema key).AgreesBeside F vs added ["languages", key] s s'
  options : ∀ key s s', c.languages.get? key = some s → c'.languages.get? key = some s' →
    ∀ q ≠ [], Untouched added ("languages" :: key :: "options" :: q) →
      Tabular F vs ["languages", key] ∨ Untouched added ["languages", key] →
        s.option? q = s'.option? q

theorem layered_of_readFrom (hvs : Path.Separate (vs.map Prod.fst))
    (hordered : (put F vs).Ordered) (h : c.ReadFrom (put F vs)) (hvalid : c.validate = .ok ())
    (hnamed : ∀ key s, c.languages.get? key = some s → s.name = key) : c.Layered F vs where
  valid := hvalid
  named := hnamed
  app := Schema.layered_of_reads hvs AppInfo.isScalar_of_mem h.app
  memory := Schema.layered_of_reads hvs MemorySettings.isScalar_of_mem h.memory
  rule e he name hprefix := by
    obtain ⟨u, hu⟩ := exists_put_eq_set hvs he F
    have hthere : ((put F vs).at? (["memory", "access_policy"] ++ [name])).isSome = true := by
      rw [hu]
      exact Path.isSome_at?_set_of_passes e.1 e.2 u hprefix
    rw [Json.at?_append] at hthere
    obtain ⟨x, hx⟩ := Option.isSome_iff_exists.mp hthere
    obtain ⟨w, hw, hname⟩ := Option.bind_eq_some_iff.mp hx
    have hread := h.memory MemorySettings.ruleField (List.mem_of_getElem? (i := 1) rfl)
    have hwritten : MemorySettings.schema.written? MemorySettings.ruleField.name
        ((put F vs).at? ["memory"]) = some w := Schema.written?_of_at? hw
    rw [hwritten] at hread
    exact Reading.ofName?_of_lenientRule? hread (Json.at?_singleton name w ▸ hname)
  keys key hends := by
    have hplace : ∀ e ∈ vs, e.1.reach <+: ["languages", key] → ["languages", key] = e.1.reach := by
      intro e he hprefix
      have hkey : e.1.reach <+: ["languages"] ++ [key] := hprefix
      rcases List.prefix_concat_iff.mp hkey with heq | habove
      · exact heq.symm
      · have hhead : e.1.reach <+: [] ++ ["languages"] := habove
        rcases List.prefix_concat_iff.mp hhead with heq | hnil
        · exact absurd heq (hends e he)
        · exact absurd (List.prefix_nil.mp hnil) e.1.reach_ne_nil
    rw [Dict.mem_keys, ← Option.isSome_iff_exists, h.keys, isSome_at?_put hplace]
  languages key s hs :=
    Schema.layered_of_reads hvs (RuntimeSettings.isScalar_of_mem key) (h.languages key s hs)
  options key s hs := RuntimeSettings.optionsLayered_of_reads hvs hordered (h.languages key s hs)

theorem agreesBeside_of_readFrom (hordered : (put F (others ++ added)).Ordered)
    (hordered' : (put F others).Ordered) (h : c.ReadFrom (put F (others ++ added)))
    (h' : c'.ReadFrom (put F others)) : AgreesBeside F (others ++ added) added c c' where
  app := Schema.agreesBeside_of_reads h.app h'.app
  memory := Schema.agreesBeside_of_reads h.memory h'.memory
  keys key huntouched := by
    rw [Dict.mem_keys, Dict.mem_keys, ← Option.isSome_iff_exists, ← Option.isSome_iff_exists,
      h.keys, h'.keys, put_append, at?_put_of_untouched huntouched]
  languages key s s' hs hs' :=
    Schema.agreesBeside_of_reads (h.languages key s hs) (h'.languages key s' hs')
  options key s s' hs hs' q hq huntouched hrecord := by
    rw [RuntimeSettings.option?_of_reads hordered (h.languages key s hs) hq,
      RuntimeSettings.option?_of_reads hordered' (h'.languages key s' hs') hq,
      Schema.written?_without huntouched hrecord]

/-- What is loaded is valid, has its names and is read from the tree of the file with the variables
put on it. -/
theorem readFrom_of_load (h : load file? environment = .ok c) :
    ∃ F, fileTree? file? = some F ∧ (put F (assignments environment)).Ordered ∧
      c.ReadFrom (put F (assignments environment)) ∧ c.validate = .ok () ∧
      ∀ key s, c.languages.get? key = some s → s.name = key := by
  rw [load_eq] at h
  cases htree : fileTree? file? with
  | none =>
    rw [htree] at h
    cases h
  | some F =>
    rw [htree] at h
    dsimp only at h
    split at h
    · cases h
    · next c₀ hread =>
      split at h
      · next hvalid =>
        obtain rfl := Except.ok.inj h
        obtain ⟨hordered, members, rfl⟩ := ordered_fileTree? htree
        have hput := ordered_put hordered (assignments environment)
        obtain ⟨members', hmembers'⟩ : ∃ members', put (.obj members) (assignments environment) =
            .obj members' := exists_obj_put _
        rw [hmembers'] at hread hput
        exact ⟨_, rfl, hmembers' ▸ hput, hmembers' ▸ readFrom_of_config? hput hread, hvalid,
          fun _ _ => name_eq_of_fillNames hvalid⟩
      · cases h

theorem assignments_append (others added : List (String × String)) :
    assignments (others ++ added) = assignments others ++ assignments added :=
  List.filterMap_append

/-- The order of variables that do not overlap does not matter. -/
theorem load_perm {environment' : List (String × String)}
    (hvs : Path.Separate ((assignments environment).map Prod.fst))
    (hperm : environment.Perm environment') :
    load file? environment = load file? environment' := by
  have hput : ∀ F, put F (assignments environment) = put F (assignments environment') :=
    put_perm hvs (hperm.filterMap _)
  simp only [load_eq, hput]

/-- The order of entries that do not overlap does not matter. -/
theorem fileTree?_perm {f : ConfigFile} {entries entries' : List (String × Json)}
    (hf : f.Unambiguous) (hentries : f.entries? = some entries) (hperm : entries.Perm entries') :
    fileTree? (some f) = some (layer (.obj []) entries') := by
  rw [fileTree?, hentries, Option.map_some, layer_perm (hf entries hentries).1 hperm]

/-- Of a file without overlapping entries and of variables that do not overlap:  Every configuration
that is loaded is valid and has its names, and each of its fields comes from the variable that sets
it, or else from the file, or else it is as usual (`Layered`).  With more variables, whatever these
do not meet stays (`AgreesBeside`).  What was read is refused if it is improper, and loaded
otherwise.  The entries of the file may come in any order, and their tree is what the file says with
its names in lower case, unless a name is a path; and so may the variables. -/
theorem load_leaf_by_leaf (file? : Option ConfigFile) (environment : List (String × String))
    (hfile : ∀ f, file? = some f → f.Unambiguous)
    (hvs : Path.Separate ((assignments environment).map Prod.fst)) :
    (∀ c, load file? environment = .ok c →
      ∃ F, fileTree? file? = some F ∧ c.Layered F (assignments environment)) ∧
    (∀ others added c c', environment.Perm (others ++ added) →
      load file? environment = .ok c → load file? others = .ok c' →
        ∃ F, fileTree? file? = some F ∧
          AgreesBeside F (assignments (others ++ added)) (assignments added) c c') ∧
    (∀ F c, fileTree? file? = some F →
      Reading.lenient.config? (put F (assignments environment)) = some c →
        (c.Improper →
          ∃ reason, load file? environment = .error (.refused (.configInvalid reason))) ∧
        (¬ c.Improper → load file? environment = .ok c.fillNames)) ∧
    (∀ f entries, file? = some f → f.entries? = some entries →
      (∀ entries', entries.Perm entries' → fileTree? file? = some (layer (.obj []) entries')) ∧
      ((∀ e ∈ entries, (Path.ofString e.1).steps = []) →
        fileTree? file? = some (Json.obj entries).lowered)) ∧
    ∀ environment', environment.Perm environment' →
      load file? environment = load file? environment' := by
  refine ⟨fun c hload => ?_, fun others added c c' hperm hload hload' => ?_,
    fun F c htree hread => ?_, fun f entries hf hentries => ⟨fun entries' hperm => ?_,
      fun hsingle => ?_⟩, fun environment' => load_perm hvs⟩
  · obtain ⟨F, htree, hordered, hread, hvalid, hnamed⟩ := readFrom_of_load hload
    exact ⟨F, htree, layered_of_readFrom hvs hordered hread hvalid hnamed⟩
  · rw [load_perm hvs hperm] at hload
    obtain ⟨F, htree, hordered, hread, -⟩ := readFrom_of_load hload
    obtain ⟨F', htree', hordered', hread', -⟩ := readFrom_of_load hload'
    obtain rfl := Option.some.inj (htree.symm.trans htree')
    refine ⟨F, htree, ?_⟩
    rw [assignments_append] at hordered hread ⊢
    exact agreesBeside_of_readFrom hordered hordered' hread hread'
  · rw [load_eq, htree]
    dsimp only
    rw [hread]
    dsimp only
    rw [← validate_fillNames_eq_ok_iff]
    rcases c.fillNames.validate_cases with hvalid | ⟨reason, hreason⟩
    · rw [hvalid]
      exact ⟨fun himproper => absurd himproper (validate_fillNames_eq_ok_iff.mp hvalid),
        fun _ => rfl⟩
    · rw [hreason]
      exact ⟨fun _ => ⟨reason, rfl⟩, fun h => by cases h⟩
  · exact hf ▸ fileTree?_perm (hfile f hf) hentries hperm
  · obtain ⟨hseparate, hvalues⟩ := hfile f hf entries hentries
    exact hf ▸ fileTree?_eq_lowered hentries hsingle
      (apart_of_separate hsingle hseparate hvalues)

/-- What can be told of an outcome that is fine, is told of a value. -/
theorem exists_ok_of_map {ε β : Type} {x : Except ε α} {g : α → β} {b : β}
    (h : x.toOption.map g = some b) : ∃ a, x = .ok a ∧ g a = b := by
  cases x with
  | error => cases h
  | ok a => exact ⟨a, rfl, Option.some.inj h⟩

theorem load_leaf_by_leaf_of_two_variables :
    let f : ConfigFile := ⟨.toml, "[app]\nname = \"foo\"\nversion = \"1\"\n" ++
      "[languages.python.options.limits]\ndepth = 3\n"⟩
    let others := [("POLYHOST__APP__VERSION", "2")]
    let added := [("POLYHOST__LANGUAGES__PYTHON__OPTIONS__LIMITS__WIDTH", "4")]
    (∃ entries F c c', f.entries? = some entries ∧ f.Unambiguous ∧
      Path.Separate ((assignments (added ++ others)).map Prod.fst) ∧
      fileTree? (some f) = some F ∧ F = (Json.obj entries).lowered ∧
      load (some f) (added ++ others) = .ok c ∧ load (some f) others = .ok c' ∧
      c.Layered F (assignments (added ++ others)) ∧
      AgreesBeside F (assignments (others ++ added)) (assignments added) c c' ∧
      c.app.name = "foo" ∧ c.app.version = "2" ∧ c'.app.version = "2") ∧
    ∃ reason, load none [("POLYHOST__MEMORY__MAX_SHARED_MEMORY", "0")] =
      .error (.refused (.configInvalid reason)) := by
  intro f others added
  constructor
  · obtain ⟨c, hc, hnames⟩ := exists_ok_of_map (x := load (some f) (added ++ others))
      (g := fun c => (c.app.name, c.app.version)) (b := ("foo", "2")) (by decide +kernel)
    obtain ⟨c', hc', hversion⟩ := exists_ok_of_map (x := load (some f) others)
      (g := fun c => c.app.version) (b := "2") (by decide +kernel)
    let entries := f.entries?.get (by decide +kernel)
    have hentries : f.entries? = some entries := (Option.some_get _).symm
    have hsingle : ∀ e ∈ entries, (Path.ofString e.1).steps = [] := by decide +kernel
    have hcase : (Json.obj entries).LowerCase := by decide +kernel
    have hapart := hcase.apart (ConfigFile.ordered_entries hentries)
    have hf : f.Unambiguous := fun entries' hentries' => by
      cases hentries.symm.trans hentries'
      exact ⟨by decide +kernel, fun e he => hapart.member he⟩
    have hvs : Path.Separate ((assignments (added ++ others)).map Prod.fst) := by decide +kernel
    obtain ⟨hlayered, hbeside, -, htree, -⟩ :=
      load_leaf_by_leaf (some f) (added ++ others) (fun _ h => Option.some.inj h ▸ hf) hvs
    have hfile := (htree f entries rfl hentries).2 hsingle
    obtain ⟨F, hF, hleaves⟩ := hlayered c hc
    obtain ⟨F', hF', hagrees⟩ := hbeside others added c c' List.perm_append_comm hc hc'
    obtain rfl := Option.some.inj (hF.symm.trans hF')
    exact ⟨entries, F, c, c', hentries, hf, hvs, hF, Option.some.inj (hF.symm.trans hfile), hc,
      hc', hleaves, hagrees, congrArg Prod.fst hnames, congrArg Prod.snd hnames, hversion⟩
  · let environment := [("POLYHOST__MEMORY__MAX_SHARED_MEMORY", "0")]
    have hread : (Reading.lenient.config? (put (.obj []) (assignments environment))).map
        (fun c => c.memory.limit) = some 0 := by
      decide +kernel
    obtain ⟨c, hc, hlimit⟩ := Option.map_eq_some_iff.mp hread
    obtain ⟨-, -, hvalid, -⟩ :=
      load_leaf_by_leaf none environment (fun _ h => by cases h) (by decide +kernel)
    exact (hvalid (.obj []) c rfl hc).1 (.inr (.inl hlimit))

/-- A file may write the application as an array of its leading fields; with a variable for its
version the name that the file says is lost. -/
theorem name_lost_of_array :
    let f : ConfigFile := ⟨.toml, "app = [\"foo\"]\n"⟩
    let environment := [("POLYHOST__APP__VERSION", "2")]
    ∃ F c c', fileTree? (some f) = some F ∧ load (some f) [] = .ok c ∧
      load (some f) environment = .ok c' ∧
      (AppInfo.schema.written? "name" (F.at? ["app"])).bind Json.asStr? = some "foo" ∧
      Untouched (assignments environment) ["app", "name"] ∧
      c.app.name = "foo" ∧ c'.app.name = "polyglot-app" ∧ c'.app.version = "2" := by
  intro f environment
  have hwritten : ((fileTree? (some f)).bind fun F =>
      (AppInfo.schema.written? "name" (F.at? ["app"])).bind Json.asStr?) = some "foo" := by
    decide +kernel
  obtain ⟨F, hF, hname⟩ := Option.bind_eq_some_iff.mp hwritten
  obtain ⟨c, hc, hfoo⟩ := exists_ok_of_map (x := load (some f) []) (g := fun c => c.app.name)
    (b := "foo") (by decide +kernel)
  obtain ⟨c', hc', hlost⟩ := exists_ok_of_map (x := load (some f) environment)
    (g := fun c => (c.app.name, c.app.version)) (b := ("polyglot-app", "2")) (by decide +kernel)
  exact ⟨F, c, c', hF, hc, hc', hname, by decide +kernel, hfoo, congrArg Prod.fst hlost,
    congrArg Prod.snd hlost⟩

end HostConfig

end LanguageHost
