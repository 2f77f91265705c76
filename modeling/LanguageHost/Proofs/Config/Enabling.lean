import LanguageHost.Config.Basic
import LanguageHost.Proofs.ByteOrder
import LanguageHost.Proofs.Keyed

/-!
# Enabling and disabling runtimes

A configuration is edited by enabling and disabling runtimes by their names, in any order and as
often as one likes (`ConfigEdit`).  An edit is about one name: it replaces the entry of that name,
or turns its flag off if there is such an entry, and touches nothing else (`ConfigEdit.Changes`).
So after a history of edits a runtime is enabled exactly if the last edit about it enabled it, or if
there is none and it was enabled before; and since an entry that is put in bears the name that it
stands under, a valid configuration stays valid all the time: `HostConfig.enabled_by_last_edit`.
-/

namespace LanguageHost

/-- An edit of a configuration. -/
inductive ConfigEdit where
  | enable (name version : String)
  | disable (name : String)
  deriving Repr, DecidableEq

namespace ConfigEdit

/-- The name that an edit is about. -/
def name : ConfigEdit → String
  | enable name _ => name
  | disable name => name

/-- Whether an edit enables a runtime. -/
def enables : ConfigEdit → Bool
  | enable .. => true
  | disable _ => false

/-- What an edit makes of a configuration. -/
def apply (c : HostConfig) : ConfigEdit → HostConfig
  | enable name version => c.enable name version
  | disable name => c.disable name

/-- What an edit changes: the entry of its name.  Enabling puts in a new entry with the usual limits
and no options; disabling changes the flag of an entry that is there and puts in none. -/
structure Changes (e : ConfigEdit) (c c' : HostConfig) : Prop where
  app_eq : c'.app = c.app
  memory_eq : c'.memory = c.memory
  others : ∀ other, other ≠ e.name → c'.languages.get? other = c.languages.get? other
  enabled : ∀ name version, e = enable name version →
    c'.languages.get? name = some ⟨name, version, true, Dict.empty, 10, 30⟩
  disabled : ∀ name, e = disable name → c'.languages.keys = c.languages.keys ∧
    c'.languages.get? name = (c.languages.get? name).map fun s => { s with enabled := false }

theorem changes_apply (e : ConfigEdit) (c : HostConfig) : e.Changes c (e.apply c) := by
  cases e with
  | enable name version =>
    refine ⟨rfl, rfl, ?_, ?_, nofun⟩
    · intro other hother
      exact (Dict.get?_insert _ _ _ _).trans (if_neg hother)
    · rintro _ _ ⟨⟩
      exact (Dict.get?_insert _ _ _ _).trans (if_pos rfl)
  | disable name =>
    refine ⟨rfl, rfl, ?_, nofun, ?_⟩
    · intro other hother
      exact (Dict.get?_modify _ _ _ _).trans (if_neg hother)
    · rintro _ ⟨⟩
      constructor
      · simp [apply, HostConfig.disable, Dict.modify, Dict.map, Dict.keys]
      · exact (Dict.get?_modify _ _ _ _).trans (if_pos rfl)

variable {c c' : HostConfig} {e : ConfigEdit}

/-- An edit decides whether its own runtime is enabled. -/
theorem Changes.isEnabled_eq (h : e.Changes c c') (name : String) :
    c'.isEnabled name = if e.name = name then e.enables else c.isEnabled name := by
  by_cases hname : e.name = name
  · subst hname
    rw [if_pos rfl]
    cases e with
    | enable name version =>
      rw [HostConfig.isEnabled, ConfigEdit.name, h.enabled name version rfl]
      rfl
    | disable name =>
      rw [HostConfig.isEnabled, ConfigEdit.name, (h.disabled name rfl).2]
      cases c.languages.get? name <;> rfl
  · rw [if_neg hname, HostConfig.isEnabled, h.others name (Ne.symm hname)]
    rfl

theorem Changes.isEnabled_iff (h : e.Changes c c') (name : String) :
    c'.isEnabled name = true ↔
      (∃ version, e = .enable name version) ∨ e.name ≠ name ∧ c.isEnabled name = true := by
  rw [h.isEnabled_eq]
  cases e with
  | enable name' version =>
    by_cases hname : name' = name
    · simp [ConfigEdit.name, enables, hname]
    · simp [ConfigEdit.name, hname]
  | disable name' =>
    by_cases hname : name' = name
    · simp [ConfigEdit.name, enables, hname]
    · simp [ConfigEdit.name, hname]

/-- Every entry bears the name that it stands under, or none. -/
theorem Changes.validate (h : e.Changes c c') (hvalid : c.validate = .ok ()) :
    c'.validate = .ok () := by
  rw [HostConfig.validate_eq_ok_iff] at hvalid ⊢
  obtain ⟨happ, hmemory, hnames⟩ := hvalid
  refine ⟨h.app_eq ▸ happ, h.memory_eq ▸ hmemory, ?_⟩
  rintro ⟨name, s⟩ hmem
  have hs : c'.languages.get? name = some s := Dict.mem_entries_iff.mp hmem
  have hbefore : ∀ s, c.languages.get? name = some s → s.name = "" ∨ s.name = name :=
    fun s hs => hnames (name, s) (Dict.mem_entries_iff.mpr hs)
  by_cases hname : name = e.name
  · subst hname
    cases e with
    | enable name version =>
      obtain rfl := Option.some.inj ((h.enabled name version rfl).symm.trans hs)
      exact .inr rfl
    | disable name =>
      obtain ⟨s', hs', rfl⟩ := Option.map_eq_some_iff.mp ((h.disabled name rfl).2.symm.trans hs)
      exact hbefore s' hs'
  · exact hbefore s ((h.others name hname).symm.trans hs)

end ConfigEdit

namespace HostConfig

/-- A configuration after edits, one after the other. -/
def edited (c : HostConfig) (edits : List ConfigEdit) : HostConfig :=
  edits.foldl ConfigEdit.apply c

theorem edited_concat (c : HostConfig) (edits : List ConfigEdit) (e : ConfigEdit) :
    c.edited (edits ++ [e]) = e.apply (c.edited edits) :=
  List.foldl_concat _ _ _ _

/-- The last edit about a name decides whether its runtime is enabled. -/
theorem isEnabled_edited_iff (c : HostConfig) (edits : List ConfigEdit) (name : String) :
    (c.edited edits).isEnabled name = true ↔
      (∃ before version after, edits = before ++ .enable name version :: after ∧
        ∀ e ∈ after, e.name ≠ name) ∨
      ((∀ e ∈ edits, e.name ≠ name) ∧ c.isEnabled name = true) := by
  induction edits generalizing c with
  | nil => simp [edited]
  | cons e edits ih =>
    have hsplit : (∃ before version after, e :: edits = before ++ .enable name version :: after ∧
        ∀ e ∈ after, e.name ≠ name) ↔
        (∃ before version after, edits = before ++ .enable name version :: after ∧
          ∀ e ∈ after, e.name ≠ name) ∨
        (∃ version, e = .enable name version) ∧ ∀ e ∈ edits, e.name ≠ name := by
      constructor
      · rintro ⟨before, version, after, heq, hafter⟩
        rcases List.cons_eq_append_iff.mp heq with ⟨rfl, htail⟩ | ⟨before, rfl, hrest⟩
        · obtain ⟨rfl, rfl⟩ := List.cons.inj htail
          exact .inr ⟨⟨version, rfl⟩, hafter⟩
        · exact .inl ⟨before, version, after, hrest, hafter⟩
      · rintro (⟨before, version, after, rfl, hafter⟩ | ⟨⟨version, rfl⟩, hafter⟩)
        · exact ⟨e :: before, version, after, rfl, hafter⟩
        · exact ⟨[], version, edits, rfl, hafter⟩
    change ((e.apply c).edited edits).isEnabled name = true ↔ _
    rw [ih, hsplit, (e.changes_apply c).isEnabled_iff, List.forall_mem_cons]
    constructor
    · rintro (hlater | ⟨hnone, henables | ⟨hname, hc⟩⟩)
      · exact .inl (.inl hlater)
      · exact .inl (.inr ⟨henables, hnone⟩)
      · exact .inr ⟨⟨hname, hnone⟩, hc⟩
    · rintro ((hlater | ⟨henables, hnone⟩) | ⟨⟨hname, hnone⟩, hc⟩)
      · exact .inl hlater
      · exact .inr ⟨hnone, .inl henables⟩
      · exact .inr ⟨hnone, .inr ⟨hname, hc⟩⟩

/-- The names of the runtimes that are to be started, in the order of their octets. -/
theorem enabledRuntimes_sorted (c : HostConfig) :
    (c.enabledRuntimes.map Prod.fst).Pairwise fun a b => octets a < octets b := by
  have hsorted := c.languages.sorted.sublist
    (List.filter_sublist (p := fun e => e.2.enabled).map Prod.fst)
  exact hsorted.imp fun hlt => (octets_lt_iff _ _).mpr hlt

theorem mem_enabledRuntimes {c : HostConfig} {name : String} {s : RuntimeSettings} :
    (name, s) ∈ c.enabledRuntimes ↔ c.languages.get? name = some s ∧ s.enabled = true := by
  rw [enabledRuntimes, List.mem_filter, Dict.mem_entries_iff]

theorem isEnabled_iff_mem {c : HostConfig} {name : String} :
    c.isEnabled name = true ↔ name ∈ c.enabledRuntimes.map Prod.fst := by
  constructor
  · intro h
    cases hs : c.languages.get? name with
    | none => simp [isEnabled, hs] at h
    | some s =>
      rw [isEnabled, hs] at h
      exact List.mem_map.mpr ⟨(name, s), mem_enabledRuntimes.mpr ⟨hs, h⟩, rfl⟩
  · intro h
    obtain ⟨⟨_, s⟩, hmem, rfl⟩ := List.mem_map.mp h
    obtain ⟨hs, henabled⟩ := mem_enabledRuntimes.mp hmem
    rw [isEnabled, hs]
    exact henabled

theorem validate_edited {c : HostConfig} (hvalid : c.validate = .ok ())
    (edits : List ConfigEdit) : (c.edited edits).validate = .ok () := by
  induction edits generalizing c with
  | nil => exact hvalid
  | cons e edits ih => exact ih ((e.changes_apply c).validate hvalid)

/-- After any edits, a runtime is enabled exactly if the last edit about its name enables it, or if
there is none and it was enabled at first.  Those that are enabled are listed once each, in the
order of the octets of their names.  Every edit changes what it is about and nothing else, and
leaves a valid configuration valid. -/
theorem enabled_by_last_edit (c : HostConfig) (edits : List ConfigEdit) :
    (∀ name, (c.edited edits).isEnabled name = true ↔
      (∃ before version after, edits = before ++ .enable name version :: after ∧
        ∀ e ∈ after, e.name ≠ name) ∨
      ((∀ e ∈ edits, e.name ≠ name) ∧ c.isEnabled name = true)) ∧
    (((c.edited edits).enabledRuntimes.map Prod.fst).Pairwise fun a b => octets a < octets b) ∧
    (∀ name, name ∈ (c.edited edits).enabledRuntimes.map Prod.fst ↔
      (c.edited edits).isEnabled name = true) ∧
    (∀ before e after, edits = before ++ e :: after →
      e.Changes (c.edited before) (c.edited (before ++ [e]))) ∧
    (c.validate = .ok () → ∀ before after, edits = before ++ after →
      (c.edited before).validate = .ok ()) := by
  refine ⟨c.isEnabled_edited_iff edits, enabledRuntimes_sorted _,
    fun name => isEnabled_iff_mem.symm, ?_, ?_⟩
  · intro before e after _
    rw [edited_concat]
    exact e.changes_apply _
  · intro hvalid before after _
    exact validate_edited hvalid before

/-- A runtime is disabled and enabled again while another one is disabled for good. -/
theorem enabled_by_last_edit_of_two :
    let c : HostConfig := ((default : HostConfig).enable "ruby" "3").enable "lua" "5.4"
    let edits : List ConfigEdit := [.disable "lua", .disable "php", .disable "ruby",
      .enable "lua" "5.5"]
    c.validate = .ok () ∧ (c.edited edits).validate = .ok () ∧
      (c.edited edits).enabledRuntimes.map Prod.fst = ["lua"] ∧
      (c.edited edits).isEnabled "lua" = true ∧ (c.edited edits).isEnabled "ruby" = false ∧
      (c.edited edits).languages.get? "lua" = some ⟨"lua", "5.5", true, Dict.empty, 10, 30⟩ := by
  intro c edits
  obtain ⟨hlast, -, -, hchanges, hvalid⟩ := enabled_by_last_edit c edits
  have hc : c.validate = .ok () := by rfl
  refine ⟨hc, hvalid hc edits [] (List.append_nil _).symm, by rfl, ?_, by rfl, ?_⟩
  · exact (hlast "lua").mpr
      (.inl ⟨[.disable "lua", .disable "php", .disable "ruby"], "5.5", [], rfl, nofun⟩)
  · exact (hchanges [.disable "lua", .disable "php", .disable "ruby"] (.enable "lua" "5.5") []
      rfl).enabled "lua" "5.5" rfl

end HostConfig

end LanguageHost
