import LanguageHost.Policy.Enforcer
import LanguageHost.Proofs.Pattern.Reading

/-!
# Which rules decide

Of the rules that cover an operation one decides, and it has the highest priority among them
(`Policy.winner?_eq_some`).  The others matter only through it, so rules that do not cover the
operation can be left out (`Policy.winner?_congr`).

A rule that is restricted to a pattern covers an operation with a target only if the target fits the
pattern.  An operation without a target is covered by every rule of its kind, whatever the pattern.
-/

namespace LanguageHost

namespace Rule

variable {r : Rule} {op : Operation}

/-- Whether a rule is about a target: it is not restricted, or the target fits its pattern. -/
def concerns (r : Rule) (target : String) : Bool := r.target?.all fun t => t.fits target

/-- A rule with a pattern that was read is about the targets that contain a stretch of it. -/
theorem concerns_iff {t : TargetPattern} {target : String} (hpattern : r.target? = some t)
    (hread : TargetPattern.read t.text = .ok t) :
    r.concerns target = true ↔ ∃ i j, t.pattern.Spans target.toList.toArray i j := by
  have hpart : Pattern.read t.text = .ok t.pattern := by
    unfold TargetPattern.read at hread
    split at hread
    · next pattern hpattern =>
      rw [hpattern, ← Except.ok.inj hread]
    · cases hread
  rw [concerns, hpattern]
  exact Pattern.occursIn_of_read hpart

/-- The rule without its pattern. -/
def unrestricted (r : Rule) : Rule := { r with target? := none }

/-- A rule covers an operation with a target only if it is about the target. -/
theorem concerns_of_covers (htarget : op.target ≠ "") (h : r.covers op = true) :
    r.concerns op.target = true := by
  unfold covers at h
  unfold concerns
  cases hpattern : r.target? with
  | none => rfl
  | some t =>
    have hempty : (op.target == "") = false := beq_eq_false_iff_ne.mpr htarget
    simpa [hpattern, hempty] using (Bool.and_eq_true_iff.mp h).2

/-- An operation without a target is covered by all rules of its kind. -/
theorem covers_of_no_target (htarget : op.target = "") :
    r.covers op = true ↔ r.operation = op.kind := by
  unfold covers
  cases r.target? <;> simp [htarget]

end Rule

namespace Policy

variable {p q : Policy} {op : Operation} {r d : Rule} {rules : List Rule} {best : Option Rule}

/-! ### The rule that decides -/

/-- The strongest of some rules is one of them, or the one that was the best before. -/
theorem foldl_stronger_eq_some (h : rules.foldl stronger best = some r) :
    (r ∈ rules ∨ best = some r) ∧ (∀ s ∈ rules, s.priority ≤ r.priority) ∧
      ∀ b, best = some b → b.priority ≤ r.priority := by
  induction rules generalizing best with
  | nil =>
    have hbest : best = some r := h
    refine ⟨.inr hbest, nofun, fun b hb => ?_⟩
    obtain rfl : b = r := Option.some.inj (hb.symm.trans hbest)
    exact Int.le_refl _
  | cons s rules ih =>
    obtain ⟨hmem, hrules, hbest⟩ := ih h
    -- The best so far and the rule in question are at most as strong as the better of the two.
    have hstronger : ∃ b, stronger best s = some b ∧ s.priority ≤ b.priority ∧
        (b = s ∨ best = some b) ∧ ∀ a, best = some a → a.priority ≤ b.priority := by
      unfold stronger
      split
      · next b =>
        split
        · next hle => exact ⟨b, rfl, hle, .inr rfl, fun a ha => by cases ha; exact Int.le_refl _⟩
        · next hlt =>
          refine ⟨s, rfl, Int.le_refl _, .inl rfl, fun a ha => ?_⟩
          cases ha
          exact Int.le_of_lt (Int.not_le.mp hlt)
      · exact ⟨s, rfl, Int.le_refl _, .inl rfl, nofun⟩
    obtain ⟨b, hb, hsb, hwhich, hbefore⟩ := hstronger
    have hbr : b.priority ≤ r.priority := hbest b hb
    refine ⟨?_, ?_, fun a ha => Int.le_trans (hbefore a ha) hbr⟩
    · rcases hmem with hmem | hlast
      · exact .inl (List.mem_cons_of_mem s hmem)
      · obtain rfl : b = r := Option.some.inj (hb.symm.trans hlast)
        rcases hwhich with rfl | hold
        · exact .inl List.mem_cons_self
        · exact .inr hold
    · intro t ht
      rcases List.mem_cons.mp ht with rfl | ht
      · exact Int.le_trans hsb hbr
      · exact hrules t ht

/-- The rule that decides covers the operation, and no other one that does is stronger. -/
theorem winner?_eq_some (h : p.winner? op = some r) :
    r ∈ p.rules ∧ r.covers op = true ∧
      ∀ s ∈ p.rules, s.covers op = true → s.priority ≤ r.priority := by
  obtain ⟨hmem, hmax, -⟩ := foldl_stronger_eq_some h
  obtain ⟨hrule, hcovers⟩ : r ∈ p.rules ∧ r.covers op = true := by
    rcases hmem with hmem | hnone
    · exact List.mem_filter.mp hmem
    · cases hnone
  exact ⟨hrule, hcovers, fun s hs hcovers => hmax s (List.mem_filter.mpr ⟨hs, hcovers⟩)⟩

/-- Some rule decides if any covers the operation. -/
theorem isSome_winner? (hr : r ∈ p.rules) (hcovers : r.covers op = true) :
    ∃ w, p.winner? op = some w := by
  have hmem : r ∈ p.rules.filter fun r => r.covers op := List.mem_filter.mpr ⟨hr, hcovers⟩
  have hsome : ∀ (rules : List Rule) (b : Rule), ∃ w, rules.foldl stronger (some b) = some w := by
    intro rules
    induction rules with
    | nil => exact fun b => ⟨b, rfl⟩
    | cons s rules ih =>
      intro b
      rw [List.foldl_cons, stronger]
      split
      · exact ih b
      · exact ih s
  unfold winner?
  cases hrules : p.rules.filter fun r => r.covers op with
  | nil =>
    rw [hrules] at hmem
    cases hmem
  | cons s rules => exact hsome rules s

/-- Rules that do not cover an operation play no part in deciding about it. -/
theorem winner?_congr
    (h : q.rules.filter (fun r => r.covers op) = p.rules.filter fun r => r.covers op) :
    q.winner? op = p.winner? op := by
  rw [winner?, winner?, h]

/-- An operation is denied if it is covered by a rule than which every rule that could allow it is
weaker. -/
theorem allow_eq_false_of_deny (hd : d ∈ p.rules) (hcovers : d.covers op = true)
    (hweaker : ∀ r ∈ p.rules, r.covers op = true → r.action ≠ .deny → r.priority < d.priority) :
    p.allow op = false := by
  obtain ⟨w, hw⟩ := isSome_winner? hd hcovers
  obtain ⟨hmem, hwcovers, hmax⟩ := winner?_eq_some hw
  have hwdeny : w.action = .deny := by
    refine Decidable.byContradiction fun hne => ?_
    exact absurd (hmax d hd hcovers) (Int.not_le.mpr (hweaker w hmem hwcovers hne))
  rw [allow, hw]
  simp [hwdeny]

/-! ### Rules about a target -/

/-- The policy without the rules whose pattern a target does not fit. -/
def about (p : Policy) (target : String) : Policy :=
  { p with rules := p.rules.filter fun r => r.concerns target }

theorem winner?_about (htarget : op.target ≠ "") :
    (p.about op.target).winner? op = p.winner? op := by
  refine winner?_congr ?_
  rw [about, List.filter_filter]
  refine List.filter_congr fun r _ => ?_
  cases hcovers : r.covers op with
  | false => rfl
  | true => rw [Rule.concerns_of_covers htarget hcovers, Bool.true_and]

/-- The policy with no rule restricted to a pattern. -/
def unrestricted (p : Policy) : Policy := { p with rules := p.rules.map Rule.unrestricted }

/-- A change of the rules that keeps their priorities changes the strongest one alike. -/
theorem foldl_stronger_map (f : Rule → Rule) (hf : ∀ r, (f r).priority = r.priority)
    (best : Option Rule) :
    (rules.map f).foldl stronger (best.map f) = (rules.foldl stronger best).map f := by
  induction rules generalizing best with
  | nil => rfl
  | cons r rules ih =>
    have hstronger : stronger (best.map f) (f r) = (stronger best r).map f := by
      cases best with
      | none => rfl
      | some b =>
        simp only [stronger, Option.map_some, hf]
        split <;> rfl
    rw [List.map_cons, List.foldl_cons, List.foldl_cons, hstronger, ih]

theorem winner?_unrestricted (htarget : op.target = "") :
    p.unrestricted.winner? op = (p.winner? op).map Rule.unrestricted := by
  have hcovers : (fun r : Rule => r.covers op) ∘ Rule.unrestricted = fun r => r.covers op := by
    funext r
    refine Bool.eq_iff_iff.mpr ?_
    rw [Function.comp_apply, Rule.covers_of_no_target htarget, Rule.covers_of_no_target htarget]
    rfl
  rw [winner?, winner?, unrestricted, List.filter_map, hcovers]
  exact foldl_stronger_map Rule.unrestricted (fun _ => rfl) none

/-- For an operation with a target a policy decides as if it had no rules whose pattern the target
does not fit: with the same answer, the same records and, whether it is enforced or not, the same
checks.  A rule that denies can only be overridden by a rule about the target that is at least as
strong.  For an operation without a target it decides as if no rule had a pattern. -/
theorem allow_about (p : Policy) (op : Operation) :
    (∀ r ∈ p.rules, r.target? = none → r ∈ (p.about op.target).rules) ∧
    (∀ r ∈ p.rules, ∀ t, r.target? = some t → TargetPattern.read t.text = .ok t →
      (r ∈ (p.about op.target).rules ↔
        ∃ i j, Pattern.Spans op.target.toList.toArray t.pattern i j)) ∧
    (op.target ≠ "" →
      (p.about op.target).allow op = p.allow op ∧
      (p.about op.target).auditEvents op = p.auditEvents op ∧
      (∀ active, Enforcer.check ⟨p.about op.target, active⟩ op = Enforcer.check ⟨p, active⟩ op) ∧
      ∀ d ∈ p.rules, d.action = .deny → d.covers op = true →
        (∀ r ∈ p.rules, r.operation = op.kind → r.action ≠ .deny → d.priority ≤ r.priority →
          r.concerns op.target = false) →
        p.allow op = false) ∧
    (op.target = "" →
      p.unrestricted.allow op = p.allow op ∧ p.unrestricted.auditEvents op = p.auditEvents op) := by
  have hforbidden (q : Policy) (h : q.runtimes = p.runtimes) :
      q.forbidden op = p.forbidden op := by
    rw [forbidden, forbidden, h]
  refine ⟨fun r hr hnone => ?_, fun r hr t hpattern hread => ?_, fun htarget => ?_,
    fun htarget => ?_⟩
  · refine List.mem_filter.mpr ⟨hr, ?_⟩
    rw [Rule.concerns, hnone]
    rfl
  · rw [← Rule.concerns_iff hpattern hread, about, List.mem_filter, and_iff_right hr]
  · have hwinner : (p.about op.target).winner? op = p.winner? op := winner?_about htarget
    have hallow : (p.about op.target).allow op = p.allow op := by
      rw [allow, allow, hwinner, hforbidden (p.about op.target) rfl]
    have haudits : (p.about op.target).auditEvents op = p.auditEvents op := by
      rw [auditEvents, auditEvents, audits, audits, hwinner, hforbidden (p.about op.target) rfl]
      rfl
    refine ⟨hallow, haudits, fun active => ?_, fun d hd _ hcovers hother => ?_⟩
    · rw [Enforcer.check, Enforcer.check, hallow, haudits, about]
    · refine allow_eq_false_of_deny hd hcovers fun r hr hrcovers hne => ?_
      refine Int.not_le.mp fun hle => ?_
      have hkind : r.operation = op.kind :=
        beq_iff_eq.mp (Bool.and_eq_true_iff.mp hrcovers).1
      have hnot : r.concerns op.target = false := hother r hr hkind hne hle
      rw [Rule.concerns_of_covers htarget hrcovers] at hnot
      cases hnot
  · have hwinner := winner?_unrestricted (p := p) htarget
    constructor
    · rw [allow, allow, hwinner, hforbidden p.unrestricted rfl, Option.all_map]
      rfl
    · rw [auditEvents, auditEvents, audits, audits, hwinner, hforbidden p.unrestricted rfl,
        Option.any_map]
      rfl

/-! ### Calls that are denied but for some -/

/-- The pattern of names that begin with `safe_`. -/
def safeNames : TargetPattern where
  text := "^safe_"
  pattern := .seq (.anchor .textStart) <| .seq (.oneOf [(115, 115)]) <| .seq (.oneOf [(97, 97)]) <|
    .seq (.oneOf [(102, 102)]) <| .seq (.oneOf [(101, 101)]) <| .seq (.oneOf [(95, 95)]) .empty

/-- The policy that denies calls but for those of functions whose names begin with `safe_`. -/
def safeCalls : Policy :=
  ((new "test").addRule (.new .runtimeCall .deny 10)).addRule
    { Rule.new .runtimeCall .allow 20 with target? := some safeNames }

/-- The name `rm_rf` does not begin with `safe_`, so the rule that allows plays no part and the
call is denied. -/
theorem allow_about_unsafe_call :
    TargetPattern.read "^safe_" = .ok safeNames ∧
    (safeCalls.about "rm_rf").rules = [.new .runtimeCall .deny 10] ∧
    safeCalls.allow ⟨.runtimeCall, "rm_rf", "lua"⟩ = false := by
  refine ⟨rfl, by decide +kernel, ?_⟩
  obtain ⟨-, -, hdecides, -⟩ := allow_about safeCalls ⟨.runtimeCall, "rm_rf", "lua"⟩
  obtain ⟨-, -, -, hdenies⟩ := hdecides (by decide)
  exact hdenies (.new .runtimeCall .deny 10) (by decide +kernel) rfl rfl (by decide +kernel)

/-- The empty name does not begin with `safe_` either, but here the rule that allows overrides the
one that denies. -/
theorem allow_call_without_name :
    safeNames.fits "" = false ∧
    (safeCalls.about "").rules = [.new .runtimeCall .deny 10] ∧
    (safeCalls.about "").allow ⟨.runtimeCall, "", "lua"⟩ = false ∧
    safeCalls.allow ⟨.runtimeCall, "", "lua"⟩ = true := by
  decide +kernel

end Policy

end LanguageHost
