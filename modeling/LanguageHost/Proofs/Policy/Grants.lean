import LanguageHost.Proofs.Keyed
import LanguageHost.Proofs.Policy.Ranking

/-!
# What a grant to a runtime changes

A grant restricts the operations of its own runtime, whatever the rules say, and those of no other
one (`Policy.allow_setRuntime_of_ne`, `Policy.allow_setRuntime_self`).  So two policies that differ
in a grant are compared by comparing the grants: one is within another one (`Capabilities.Within`)
if the other one lacks nothing that it has.  Whatever it permits, the other one permits as well
(`Capabilities.permit_of_within`), and each change of a grant by itself is one such comparison.

The list of allowed paths is the one part of a grant that does not simply grow with it.  If it is
empty, all paths are allowed; its first entry makes the grant narrower, and every further one makes
it wider again.  This is why `Capabilities.Within` distinguishes the empty list.
-/

namespace LanguageHost

namespace Capabilities

variable {c d : Capabilities} {op : Operation} {t : TargetPattern} {path : String}

/-- A file is within reach if it fits no denied path, and one of the allowed ones if there are
any. -/
theorem reaches_iff : c.reaches path = true ↔ (∀ t ∈ c.deniedPaths, t.fits path = false) ∧
    (c.allowedPaths = [] ∨ ∃ t ∈ c.allowedPaths, t.fits path = true) := by
  simp [reaches]

/-- A grant is within another one: what is switched on is switched on there as well, no path is
denied there that is not denied here, and if the allowed paths are a restriction there, they are a
stricter one here. -/
structure Within (c d : Capabilities) : Prop where
  network : c.network = true → d.network = true
  fileRead : c.fileRead = true → d.fileRead = true
  fileWrite : c.fileWrite = true → d.fileWrite = true
  exec : c.exec = true → d.exec = true
  deniedPaths : d.deniedPaths ⊆ c.deniedPaths
  allowedPaths : d.allowedPaths = [] ∨ c.allowedPaths ≠ [] ∧ c.allowedPaths ⊆ d.allowedPaths

theorem reaches_of_within (h : c.Within d) (hreaches : c.reaches path = true) :
    d.reaches path = true := by
  rw [reaches_iff] at hreaches ⊢
  obtain ⟨hdenied, hallowed⟩ := hreaches
  constructor
  · intro t ht
    exact hdenied t (h.deniedPaths ht)
  · rcases h.allowedPaths with hall | ⟨hsome, hsub⟩
    · exact .inl hall
    · obtain ⟨t, ht, hfits⟩ := hallowed.resolve_left hsome
      exact .inr ⟨t, hsub ht, hfits⟩

/-- The wider grant permits what the narrower one permits. -/
theorem permit_of_within (h : c.Within d) (hpermit : c.permit op = true) :
    d.permit op = true := by
  unfold permit at hpermit ⊢
  cases hkind : op.kind with
  | netConnect | netListen =>
    rw [hkind] at hpermit
    exact h.network hpermit
  | fileRead =>
    rw [hkind] at hpermit
    obtain ⟨hflag, hreaches⟩ := Bool.and_eq_true_iff.mp hpermit
    exact Bool.and_eq_true_iff.mpr ⟨h.fileRead hflag, reaches_of_within h hreaches⟩
  | fileWrite =>
    rw [hkind] at hpermit
    obtain ⟨hflag, hreaches⟩ := Bool.and_eq_true_iff.mp hpermit
    exact Bool.and_eq_true_iff.mpr ⟨h.fileWrite hflag, reaches_of_within h hreaches⟩
  | exec =>
    rw [hkind] at hpermit
    exact h.exec hpermit
  | memAlloc | syscall | runtimeCall => rfl

/-- A denied path is out of reach of every operation on files. -/
theorem permit_eq_false_of_denied (hkind : op.kind = .fileRead ∨ op.kind = .fileWrite)
    (ht : t ∈ c.deniedPaths) (hfits : t.fits op.target = true) : c.permit op = false := by
  have hreaches : c.reaches op.target = false := by
    refine Bool.eq_false_iff.mpr ?_
    intro h
    have hnot := (reaches_iff.mp h).1 t ht
    rw [hfits] at hnot
    cases hnot
  rcases hkind with hkind | hkind
  · simp [permit, hkind, hreaches]
  · simp [permit, hkind, hreaches]

/-! ### Changes of a grant -/

theorem within_of_denied {denied : List TargetPattern} (h : c.deniedPaths ⊆ denied) :
    { c with deniedPaths := denied }.Within c := by
  refine ⟨id, id, id, id, h, ?_⟩
  by_cases hall : c.allowedPaths = []
  · exact .inl hall
  · exact .inr ⟨hall, List.Subset.refl _⟩

theorem within_of_allowed {allowed : List TargetPattern} (hsome : c.allowedPaths ≠ [])
    (h : c.allowedPaths ⊆ allowed) : c.Within { c with allowedPaths := allowed } :=
  ⟨id, id, id, id, List.Subset.refl _, .inr ⟨hsome, h⟩⟩

theorem within_of_first_allowed (allowed : List TargetPattern) (hall : c.allowedPaths = []) :
    { c with allowedPaths := allowed }.Within c :=
  ⟨id, id, id, id, List.Subset.refl _, .inl hall⟩

/-- Switches on whatever is given. -/
def switchOn (c : Capabilities) (network fileRead fileWrite exec : Bool) : Capabilities :=
  { c with
    network := c.network || network
    fileRead := c.fileRead || fileRead
    fileWrite := c.fileWrite || fileWrite
    exec := c.exec || exec }

theorem within_switchOn (network fileRead fileWrite exec : Bool) :
    c.Within (c.switchOn network fileRead fileWrite exec) := by
  refine ⟨?_, ?_, ?_, ?_, List.Subset.refl _, ?_⟩
  · exact Bool.or_inl
  · exact Bool.or_inl
  · exact Bool.or_inl
  · exact Bool.or_inl
  · by_cases hall : c.allowedPaths = []
    · exact .inl hall
    · exact .inr ⟨hall, List.Subset.refl _⟩

end Capabilities

namespace Policy

variable {p : Policy} {op : Operation} {runtime : String} {c d : Capabilities}

/-- What is granted to one runtime does not matter for the operations of another one. -/
theorem forbidden_setRuntime_of_ne (h : op.runtime ≠ runtime) :
    (p.setRuntime runtime c).forbidden op = p.forbidden op := by
  rw [forbidden, forbidden, setRuntime, Dict.get?_insert, if_neg h]

theorem forbidden_setRuntime_self :
    (p.setRuntime op.runtime c).forbidden op = !c.permit op := by
  rw [forbidden, setRuntime, Dict.get?_insert, if_pos rfl]
  rfl

/-- The operations of all other runtimes are decided, and put on record, as before. -/
theorem allow_setRuntime_of_ne (h : op.runtime ≠ runtime) :
    (p.setRuntime runtime c).allow op = p.allow op ∧
      (p.setRuntime runtime c).auditEvents op = p.auditEvents op := by
  have hforbidden := forbidden_setRuntime_of_ne (p := p) (c := c) h
  constructor
  · rw [allow, allow, hforbidden]
    rfl
  · rw [auditEvents, auditEvents, audits, audits, hforbidden]
    rfl

/-- The grant and the rules have to allow an operation of its runtime. -/
theorem allow_setRuntime_self :
    (p.setRuntime op.runtime c).allow op =
      (c.permit op && (p.winner? op).all fun r => r.action != .deny) := by
  rw [allow, forbidden_setRuntime_self, Bool.not_not]
  rfl

/-- With a wider grant a policy allows what it allows with a narrower one. -/
theorem allow_setRuntime_of_within (h : c.Within d)
    (hallow : (p.setRuntime runtime c).allow op = true) :
    (p.setRuntime runtime d).allow op = true := by
  by_cases hop : op.runtime = runtime
  · subst hop
    rw [allow_setRuntime_self] at hallow ⊢
    obtain ⟨hpermit, hrules⟩ := Bool.and_eq_true_iff.mp hallow
    exact Bool.and_eq_true_iff.mpr ⟨Capabilities.permit_of_within h hpermit, hrules⟩
  · rw [(allow_setRuntime_of_ne hop).1] at hallow ⊢
    exact hallow

/-- A grant restricts its runtime and no other one: the operations of the others are decided as
before, and its own ones, if nothing was granted to it before, are allowed if the grant suffices and
they were allowed before.  No rules override a grant that does not suffice, and a later grant takes
the place of an earlier one.  A file that fits a denied path is out of reach whatever is allowed.
More denied paths, or the first allowed ones, can only take away; more allowed paths where there are
some, or more switches, can only add. -/
theorem allow_setRuntime (p : Policy) (runtime : String) (c : Capabilities) (op : Operation) :
    (op.runtime ≠ runtime →
      (p.setRuntime runtime c).allow op = p.allow op ∧
      (p.setRuntime runtime c).auditEvents op = p.auditEvents op) ∧
    (p.runtimes.get? runtime = none → op.runtime = runtime →
      (p.setRuntime runtime c).allow op = (c.permit op && p.allow op) ∧
      (p.setRuntime runtime c).auditEvents op = if c.permit op then p.auditEvents op else []) ∧
    (op.runtime = runtime → c.permit op = false →
      ∀ rules, { p.setRuntime runtime c with rules }.allow op = false) ∧
    (∀ d, (p.setRuntime runtime c).setRuntime runtime d = p.setRuntime runtime d) ∧
    (op.runtime = runtime → op.kind = .fileRead ∨ op.kind = .fileWrite →
      ∀ t ∈ c.deniedPaths, t.fits op.target = true → ∀ allowed,
        (p.setRuntime runtime { c with allowedPaths := allowed }).allow op = false) ∧
    (∀ denied, c.deniedPaths ⊆ denied →
      (p.setRuntime runtime { c with deniedPaths := denied }).allow op = true →
      (p.setRuntime runtime c).allow op = true) ∧
    (c.allowedPaths ≠ [] → ∀ allowed, c.allowedPaths ⊆ allowed →
      (p.setRuntime runtime c).allow op = true →
      (p.setRuntime runtime { c with allowedPaths := allowed }).allow op = true) ∧
    (c.allowedPaths = [] → ∀ allowed,
      (p.setRuntime runtime { c with allowedPaths := allowed }).allow op = true →
      (p.setRuntime runtime c).allow op = true) ∧
    ∀ network fileRead fileWrite exec, (p.setRuntime runtime c).allow op = true →
      (p.setRuntime runtime (c.switchOn network fileRead fileWrite exec)).allow op = true := by
  refine ⟨allow_setRuntime_of_ne, ?_, ?_, ?_, ?_, ?_, ?_, ?_, ?_⟩
  · rintro hnone rfl
    have hforbidden : p.forbidden op = false := by
      rw [forbidden, hnone]
      rfl
    constructor
    · rw [allow_setRuntime_self, allow, hforbidden]
      rfl
    · rw [auditEvents, audits, forbidden_setRuntime_self, Bool.not_not, auditEvents, audits,
        hforbidden]
      cases c.permit op with
      | true => rfl
      | false => rfl
  · rintro rfl hpermit rules
    have hforbidden : { p.setRuntime op.runtime c with rules }.forbidden op = true := by
      have hsame : { p.setRuntime op.runtime c with rules }.forbidden op = !c.permit op :=
        forbidden_setRuntime_self
      rw [hsame, hpermit]
      rfl
    rw [allow, hforbidden]
    rfl
  · intro d
    rw [setRuntime, setRuntime, setRuntime, Dict.insert_insert]
  · rintro rfl hkind t ht hfits allowed
    have hpermit : Capabilities.permit { c with allowedPaths := allowed } op = false :=
      Capabilities.permit_eq_false_of_denied hkind ht hfits
    rw [allow_setRuntime_self, hpermit]
    rfl
  · intro denied hsub
    exact allow_setRuntime_of_within (Capabilities.within_of_denied hsub)
  · intro hsome allowed hsub
    exact allow_setRuntime_of_within (Capabilities.within_of_allowed hsome hsub)
  · intro hall allowed
    exact allow_setRuntime_of_within (Capabilities.within_of_first_allowed allowed hall)
  · intro network fileRead fileWrite exec
    exact allow_setRuntime_of_within (Capabilities.within_switchOn network fileRead fileWrite exec)

/-- Reading files, but for those whose names begin with `safe_`. -/
def otherFiles : Capabilities :=
  { Capabilities.none with fileRead := true, deniedPaths := [safeNames] }

/-- In the policy that allows everything the grant stands in the way of a file that it denies, of
starting programs, and of nothing that another runtime does. -/
theorem allow_setRuntime_permissive :
    permissive.runtimes.get? "lua" = none ∧
    (permissive.setRuntime "lua" otherFiles).allow ⟨.fileRead, "safe_file", "lua"⟩ = false ∧
    (permissive.setRuntime "lua" otherFiles).allow ⟨.fileRead, "file", "lua"⟩ = true ∧
    (permissive.setRuntime "lua" otherFiles).allow ⟨.fileRead, "safe_file", "ruby"⟩ = true ∧
    ∀ rules, { permissive.setRuntime "lua" otherFiles with rules }.allow ⟨.exec, "sh", "lua"⟩ =
      false := by
  obtain ⟨-, -, -, -, hdenied, -⟩ :=
    allow_setRuntime permissive "lua" otherFiles ⟨.fileRead, "safe_file", "lua"⟩
  obtain ⟨-, hself, -⟩ :=
    allow_setRuntime permissive "lua" otherFiles ⟨.fileRead, "file", "lua"⟩
  obtain ⟨hother, -⟩ :=
    allow_setRuntime permissive "lua" otherFiles ⟨.fileRead, "safe_file", "ruby"⟩
  obtain ⟨-, -, hrules, -⟩ :=
    allow_setRuntime permissive "lua" otherFiles ⟨.exec, "sh", "lua"⟩
  refine ⟨rfl, ?_, ?_, ?_, hrules rfl rfl⟩
  · exact hdenied rfl (.inl rfl) safeNames List.mem_cons_self (by decide +kernel) []
  · rw [(hself rfl rfl).1]
    decide +kernel
  · rw [(hother (by decide)).1]
    decide +kernel

end Policy

end LanguageHost
