import LanguageHost.Proofs.Policy.Decision
import Mathlib.Data.List.Induction
import Mathlib.Data.List.Sort

/-!
# Which of several rules decides

A policy goes through its rules once and keeps the best one that it has met.  What comes out is
said here without that walk: a rule decides about an operation (`Policy.DecidedBy`) if it matches,
the matching rules in front of it are weaker, and those behind it are not stronger.  There is at
most one such rule, and one if any rule matches (`winner?_eq_some_iff`).

The same rule is found by ranking the rules first, the strongest in front and those of the same
priority in the order in which they were added, and taking the first one that matches
(`find?_eq_some_iff`).  What such a ranking is, `Policy.StablyRanked` says, so that it does not
matter how the rules were sorted.

Rules that are added later stand behind all others, so they change a decision only if one of them
is stronger than everything in front of it (`winner?_addRules`).
-/

open scoped List

namespace LanguageHost

namespace Rule

variable {r : Rule} {op : Operation}

/-- A rule matches the operations of its kind, if it is not restricted to a pattern, or the
operation has no target, or the target fits the pattern. -/
def Matches (r : Rule) (op : Operation) : Prop :=
  r.operation = op.kind ∧
    (r.target? = none ∨ op.target = "" ∨ ∃ t, r.target? = some t ∧ t.fits op.target = true)

theorem covers_iff : r.covers op = true ↔ r.Matches op := by
  unfold covers Matches
  rw [Bool.and_eq_true, beq_iff_eq]
  refine and_congr_right fun _ => ?_
  cases r.target? with
  | none => simp
  | some t => simp

instance : Decidable (r.Matches op) := decidable_of_iff _ covers_iff

end Rule

namespace Policy

variable {p q : Policy} {op : Operation} {r s : Rule} {rules more ranking : List Rule}

/-- A rule leads a list of rules: those in front of it are weaker, those behind it not stronger. -/
def Leads (r : Rule) (rules : List Rule) : Prop :=
  ∃ before after, rules = before ++ r :: after ∧ (∀ s ∈ before, s.priority < r.priority) ∧
    ∀ s ∈ after, s.priority ≤ r.priority

/-- A rule decides about an operation: it matches, and it leads all rules that do. -/
def DecidedBy (p : Policy) (op : Operation) (r : Rule) : Prop :=
  ∃ before after, p.rules = before ++ r :: after ∧ r.Matches op ∧
    (∀ s ∈ before, s.Matches op → s.priority < r.priority) ∧
    ∀ s ∈ after, s.Matches op → s.priority ≤ r.priority

/-! ### The walk through the rules -/

theorem foldl_stronger_eq_none : rules.foldl stronger none = none ↔ rules = [] := by
  constructor
  · intro h
    induction rules using List.reverseRecOn with
    | nil => rfl
    | append_singleton rules s _ =>
      rw [List.foldl_concat] at h
      unfold stronger at h
      split at h
      · split at h <;> cases h
      · cases h
  · rintro rfl
    rfl

/-- The walk ends with the rule that leads. -/
theorem leads_of_foldl_stronger (h : rules.foldl stronger none = some r) : Leads r rules := by
  -- The last rule takes the place of the best one before it only if it is stronger.
  induction rules using List.reverseRecOn generalizing r with
  | nil => cases h
  | append_singleton rules s ih =>
    rw [List.foldl_concat] at h
    cases hbest : rules.foldl stronger none with
    | none =>
      rw [hbest] at h
      obtain rfl : s = r := Option.some.inj h
      rw [foldl_stronger_eq_none.mp hbest]
      exact ⟨[], [], rfl, nofun, nofun⟩
    | some b =>
      obtain ⟨before, after, rfl, hbefore, hafter⟩ := ih hbest
      rw [hbest] at h
      unfold stronger at h
      by_cases hle : s.priority ≤ b.priority
      · obtain rfl : b = r := Option.some.inj ((if_pos hle).symm.trans h)
        refine ⟨before, after ++ [s], by simp, hbefore, ?_⟩
        intro u hu
        rcases List.mem_append.mp hu with hu | hu
        · exact hafter u hu
        · rw [List.mem_singleton.mp hu]
          exact hle
      · obtain rfl : s = r := Option.some.inj ((if_neg hle).symm.trans h)
        have hlt : b.priority < s.priority := Int.not_le.mp hle
        refine ⟨before ++ b :: after, [], rfl, ?_, nofun⟩
        intro u hu
        rcases List.mem_append.mp hu with hu | hu
        · exact Int.lt_trans (hbefore u hu) hlt
        · rcases List.mem_cons.mp hu with rfl | hu
          · exact hlt
          · exact Int.lt_of_le_of_lt (hafter u hu) hlt

/-- The rule that leads those that match decides. -/
theorem decidedBy_of_leads (h : Leads r (p.rules.filter fun s => s.covers op)) :
    p.DecidedBy op r := by
  obtain ⟨before, after, hrules, hbefore, hafter⟩ := h
  obtain ⟨front, rest, hsplit, rfl, hrest⟩ := List.filter_eq_append_iff.mp hrules
  obtain ⟨gap, back, rfl, hgap, hr, rfl⟩ := List.filter_eq_cons_iff.mp hrest
  refine ⟨front ++ gap, back, by rw [hsplit, List.append_assoc], Rule.covers_iff.mp hr, ?_, ?_⟩
  · intro s hs hmatches
    rcases List.mem_append.mp hs with hs | hs
    · exact hbefore s (List.mem_filter.mpr ⟨hs, Rule.covers_iff.mpr hmatches⟩)
    · exact absurd (Rule.covers_iff.mpr hmatches) (hgap s hs)
  · intro s hs hmatches
    exact hafter s (List.mem_filter.mpr ⟨hs, Rule.covers_iff.mpr hmatches⟩)

/-- At most one rule decides. -/
theorem DecidedBy.eq (hr : p.DecidedBy op r) (hs : p.DecidedBy op s) : r = s := by
  obtain ⟨before, after, hrules, hr, hbefore, hafter⟩ := hr
  obtain ⟨front, back, hrules', hs, hfront, hback⟩ := hs
  -- If one of the two stood in front of the other one, it would be weaker and not weaker.
  rcases List.append_eq_append_iff.mp (hrules.symm.trans hrules') with
    ⟨gap, rfl, hrest⟩ | ⟨gap, rfl, hrest⟩
  · rcases List.cons_eq_append_iff.mp hrest with ⟨-, heq⟩ | ⟨tail, rfl, rfl⟩
    · exact (List.cons.inj heq).1.symm
    · have hlt := hfront r (by simp) hr
      have hle := hafter s (by simp) hs
      omega
  · rcases List.cons_eq_append_iff.mp hrest with ⟨-, heq⟩ | ⟨tail, rfl, rfl⟩
    · exact (List.cons.inj heq).1
    · have hlt := hbefore s (by simp) hs
      have hle := hback r (by simp) hr
      omega

theorem winner?_eq_none_iff : p.winner? op = none ↔ ∀ r ∈ p.rules, ¬ r.Matches op := by
  rw [winner?, foldl_stronger_eq_none, List.filter_eq_nil_iff]
  simp only [Rule.covers_iff]

/-- The walk through the rules ends with the one that decides. -/
theorem winner?_eq_some_iff : p.winner? op = some r ↔ p.DecidedBy op r := by
  constructor
  · intro h
    exact decidedBy_of_leads (leads_of_foldl_stronger h)
  · intro h
    cases hw : p.winner? op with
    | none =>
      obtain ⟨before, after, hrules, hmatches, -⟩ := h
      have hmem : r ∈ p.rules := by simp [hrules]
      exact absurd hmatches (winner?_eq_none_iff.mp hw r hmem)
    | some w =>
      have hdecided := decidedBy_of_leads (leads_of_foldl_stronger hw)
      rw [hdecided.eq h]

/-! ### Ranked rules -/

/-- Rules in the order of their priorities, the strongest in front, where rules of the same priority
stand in the order in which they stood before. -/
structure StablyRanked (rules ranking : List Rule) : Prop where
  perm : ranking ~ rules
  descending : ranking.Pairwise fun r s => s.priority ≤ r.priority
  stable : ∀ n : Int,
    (ranking.filter fun r => r.priority = n) = rules.filter fun r => r.priority = n

/-- The rules of a policy, ranked. -/
def ranked (p : Policy) : List Rule := p.rules.mergeSort fun r s => s.priority ≤ r.priority

theorem stablyRanked_ranked (p : Policy) : StablyRanked p.rules p.ranked := by
  have htrans : ∀ r s u : Rule, decide (s.priority ≤ r.priority) = true →
      decide (u.priority ≤ s.priority) = true → decide (u.priority ≤ r.priority) = true := by
    intro r s u hrs hsu
    exact decide_eq_true (Int.le_trans (of_decide_eq_true hsu) (of_decide_eq_true hrs))
  have htotal : ∀ r s : Rule,
      (decide (s.priority ≤ r.priority) || decide (r.priority ≤ s.priority)) = true := by
    intro r s
    rcases Int.le_total s.priority r.priority with h | h
    · simp [h]
    · simp [h]
  have hperm : p.ranked ~ p.rules := List.mergeSort_perm _ _
  refine ⟨hperm, ?_, ?_⟩
  · exact (List.pairwise_mergeSort htrans htotal p.rules).imp of_decide_eq_true
  · intro n
    -- The rules of one priority are in order already, so the ranking keeps them as they stand.
    have hsame : (p.rules.filter fun r => r.priority = n).Pairwise
        fun r s => decide (s.priority ≤ r.priority) = true := by
      refine List.pairwise_of_forall_mem_list fun r hr s hs => ?_
      have hr : r.priority = n := of_decide_eq_true (List.mem_filter.mp hr).2
      have hs : s.priority = n := of_decide_eq_true (List.mem_filter.mp hs).2
      simp [hr, hs]
    have hsub : (p.rules.filter fun r => r.priority = n) <+ p.ranked :=
      List.sublist_mergeSort htrans htotal hsame List.filter_sublist
    have hkept : (p.rules.filter fun r => r.priority = n) <+
        p.ranked.filter fun r => r.priority = n := by
      have hfilter := hsub.filter fun r => decide (r.priority = n)
      simpa only [List.filter_filter, Bool.and_self] using hfilter
    exact (hkept.eq_of_length (hperm.filter _).length_eq.symm).symm

/-- The first rule of a ranking that matches decides. -/
theorem decidedBy_of_find? (hrank : StablyRanked p.rules ranking)
    (h : ranking.find? (fun s => s.Matches op) = some r) : p.DecidedBy op r := by
  obtain ⟨hr, front, back, hsplit, hfront⟩ := List.find?_eq_some_iff_append.mp h
  have hmatches : r.Matches op := of_decide_eq_true hr
  have hnone : ∀ s ∈ front, ¬ s.Matches op := by
    intro s hs
    simpa using hfront s hs
  have hle : ∀ s ∈ p.rules, s.Matches op → s.priority ≤ r.priority := by
    intro s hs hsm
    rw [← hrank.perm.mem_iff, hsplit] at hs
    have hback := (List.pairwise_append.mp (hsplit ▸ hrank.descending)).2.1
    rcases List.mem_append.mp hs with hs | hs
    · exact absurd hsm (hnone s hs)
    · rcases List.mem_cons.mp hs with rfl | hs
      · exact Int.le_refl _
      · exact (List.pairwise_cons.mp hback).1 s hs
  -- Among the rules of its priority the rule stands in the same place as in the ranking.
  have hstable := hrank.stable r.priority
  rw [hsplit, List.filter_append, List.filter_cons_of_pos (by simp)] at hstable
  obtain ⟨start, rest, hrules, hstart, hrest⟩ := List.filter_eq_append_iff.mp hstable.symm
  obtain ⟨gap, after, rfl, hgap, -, -⟩ := List.filter_eq_cons_iff.mp hrest
  refine ⟨start ++ gap, after, by rw [hrules, List.append_assoc], hmatches, ?_, ?_⟩
  · intro s hs hsm
    have hmem : s ∈ p.rules := by
      rw [hrules, ← List.append_assoc]
      exact List.mem_append_left _ hs
    refine lt_of_le_of_ne (hle s hmem hsm) ?_
    intro heq
    rcases List.mem_append.mp hs with hs | hs
    · have hs : s ∈ front.filter fun u => u.priority = r.priority := by
        rw [← hstart]
        exact List.mem_filter.mpr ⟨hs, decide_eq_true heq⟩
      exact hnone s (List.mem_filter.mp hs).1 hsm
    · exact hgap s hs (decide_eq_true heq)
  · intro s hs hsm
    exact hle s (by simp [hrules, hs]) hsm

theorem find?_eq_some_iff (hrank : StablyRanked p.rules ranking) :
    ranking.find? (fun s => s.Matches op) = some r ↔ p.DecidedBy op r := by
  constructor
  · intro h
    exact decidedBy_of_find? hrank h
  · intro h
    cases hfind : ranking.find? fun s => s.Matches op with
    | none =>
      obtain ⟨before, after, hrules, hmatches, -⟩ := h
      have hmem : r ∈ ranking := hrank.perm.mem_iff.mpr (by simp [hrules])
      have hnot := List.find?_eq_none.mp hfind r hmem
      exact absurd (decide_eq_true hmatches) hnot
    | some w => rw [(decidedBy_of_find? hrank hfind).eq h]

/-! ### Decisions -/

/-- What was granted to the runtime of an operation does not suffice for it. -/
def Forbids (p : Policy) (op : Operation) : Prop :=
  ∃ c, p.runtimes.get? op.runtime = some c ∧ c.permit op = false

theorem forbidden_iff : p.forbidden op = true ↔ p.Forbids op := by
  unfold forbidden Forbids
  cases p.runtimes.get? op.runtime with
  | none => simp
  | some c => simp

/-- An operation is denied if what was granted does not suffice for it, or the rule that decides
denies it. -/
theorem allow_eq_false_iff :
    p.allow op = false ↔ p.Forbids op ∨ ∃ r, p.DecidedBy op r ∧ r.action = .deny := by
  unfold allow
  rw [Bool.and_eq_false_iff, Bool.not_eq_false', forbidden_iff]
  refine or_congr_right ?_
  simp only [← winner?_eq_some_iff]
  cases p.winner? op with
  | none => simp
  | some w => simp [bne]

/-- An operation is put on record if what was granted suffices for it, and the rule that decides
says so. -/
theorem audits_iff :
    p.audits op = true ↔ ¬ p.Forbids op ∧ ∃ r, p.DecidedBy op r ∧ r.action = .audit := by
  unfold audits
  rw [Bool.and_eq_true, Bool.not_eq_true', ← forbidden_iff, Bool.not_eq_true]
  refine and_congr_right fun _ => ?_
  simp only [← winner?_eq_some_iff]
  cases p.winner? op with
  | none => simp
  | some w => simp

/-! ### Rules that are added -/

theorem foldl_addRule (p : Policy) (more : List Rule) :
    more.foldl addRule p = { p with rules := p.rules ++ more } := by
  induction more generalizing p with
  | nil => simp
  | cons r more ih =>
    rw [List.foldl_cons, ih, addRule]
    simp

/-- If rules are added, the rule that decides is the same, or one of the new ones that is stronger
than all matching rules in front of it. -/
theorem winner?_addRules (p : Policy) (more : List Rule) (op : Operation) :
    (more.foldl addRule p).winner? op = p.winner? op ∨
      ∃ before r after, more = before ++ r :: after ∧ (more.foldl addRule p).DecidedBy op r ∧
        ∀ s ∈ p.rules ++ before, s.Matches op → s.priority < r.priority := by
  have hrules : (more.foldl addRule p).rules = p.rules ++ more := by rw [foldl_addRule]
  cases hw : (more.foldl addRule p).winner? op with
  | none =>
    refine .inl ?_
    rw [winner?_eq_none_iff, hrules] at hw
    symm
    rw [winner?_eq_none_iff]
    intro r hr
    exact hw r (List.mem_append_left _ hr)
  | some w =>
    have hdecided : (more.foldl addRule p).DecidedBy op w := winner?_eq_some_iff.mp hw
    obtain ⟨front, back, hsplit, hmatches, hfront, hback⟩ := winner?_eq_some_iff.mp hw
    rw [hrules] at hsplit
    rcases List.append_eq_append_iff.mp hsplit with ⟨gap, rfl, hmore⟩ | ⟨gap, hold, hrest⟩
    · exact .inr ⟨gap, w, back, hmore, hdecided, hfront⟩
    · rcases List.cons_eq_append_iff.mp hrest with ⟨rfl, hmore⟩ | ⟨tail, rfl, rfl⟩
      · refine .inr ⟨[], w, back, hmore, hdecided, ?_⟩
        rw [List.append_nil, hold, List.append_nil]
        exact hfront
      · refine .inl ?_
        symm
        rw [winner?_eq_some_iff]
        refine ⟨front, tail, hold, hmatches, hfront, ?_⟩
        intro s hs
        exact hback s (List.mem_append_left _ hs)

/-- For every policy and operation: one rule decides if any matches, and it is the first match in
every stable ranking of the rules, of which there is one.  The operation is denied exactly if what
was granted to its runtime does not suffice for it, or the rule that decides denies it.  It is put
on record once if what was granted suffices and the rule that decides says so, and not at all
otherwise.  If rules are added and the answer or the record is another one, then one of the new
rules decides that is stronger than all matching rules in front of it. -/
theorem allow_eq_false_iff_decidedBy (p : Policy) (op : Operation) :
    ((∃ r ∈ p.rules, r.Matches op) → ∃! r, p.DecidedBy op r) ∧
    (StablyRanked p.rules p.ranked ∧ ∀ ranking, StablyRanked p.rules ranking → ∀ r,
      ranking.find? (fun s => s.Matches op) = some r ↔ p.DecidedBy op r) ∧
    (p.allow op = false ↔ p.Forbids op ∨ ∃ r, p.DecidedBy op r ∧ r.action = .deny) ∧
    (¬ p.Forbids op → (∃ r, p.DecidedBy op r ∧ r.action = .audit) →
      p.auditEvents op = [.audit p.name op]) ∧
    (p.Forbids op ∨ (∀ r, p.DecidedBy op r → r.action ≠ .audit) → p.auditEvents op = []) ∧
    ∀ more, (more.foldl addRule p).allow op ≠ p.allow op ∨
        (more.foldl addRule p).auditEvents op ≠ p.auditEvents op →
      ∃ before r after, more = before ++ r :: after ∧ (more.foldl addRule p).DecidedBy op r ∧
        ∀ s ∈ p.rules ++ before, s.Matches op → s.priority < r.priority := by
  refine ⟨?_, ⟨stablyRanked_ranked p, ?_⟩, allow_eq_false_iff, ?_, ?_, ?_⟩
  · rintro ⟨r, hr, hmatches⟩
    obtain ⟨w, hw⟩ := isSome_winner? hr (Rule.covers_iff.mpr hmatches)
    have hdecided := winner?_eq_some_iff.mp hw
    exact ⟨w, hdecided, fun s hs => hs.eq hdecided⟩
  · intro ranking hrank r
    exact find?_eq_some_iff hrank
  · intro hgranted haudit
    rw [auditEvents, if_pos (audits_iff.mpr ⟨hgranted, haudit⟩)]
  · intro hnot
    rw [auditEvents, if_neg]
    intro haudits
    obtain ⟨hgranted, r, hr, haction⟩ := audits_iff.mp haudits
    rcases hnot with hforbids | hother
    · exact hgranted hforbids
    · exact hother r hr haction
  · intro more hchanged
    refine (winner?_addRules p more op).resolve_left ?_
    intro hsame
    have hforbidden : (more.foldl addRule p).forbidden op = p.forbidden op := by
      rw [foldl_addRule]
      rfl
    have hname : (more.foldl addRule p).name = p.name := by rw [foldl_addRule]
    rcases hchanged with hallow | haudit
    · refine hallow ?_
      rw [allow, allow, hsame, hforbidden]
    · refine haudit ?_
      rw [auditEvents, auditEvents, audits, audits, hsame, hforbidden, hname]

/-- The policy that denies starting programs, but for two stronger rules of the same priority: the
earlier one puts it on record, the other one does not. -/
def tied : Policy :=
  [.new .exec .deny (-5), .new .exec .audit 7, .new .exec .allow 7].foldl addRule (new "test")

/-- Of two equals the earlier one decides; a third one that is added changes nothing, and a fourth
one that is stronger denies. -/
theorem allow_eq_false_iff_decidedBy_of_tied :
    tied.ranked.find? (fun s => s.Matches ⟨.exec, "sh", "lua"⟩) = some (.new .exec .audit 7) ∧
    tied.allow ⟨.exec, "sh", "lua"⟩ = true ∧
    tied.auditEvents ⟨.exec, "sh", "lua"⟩ = [.audit "test" ⟨.exec, "sh", "lua"⟩] ∧
    ([Rule.new .exec .deny 7].foldl addRule tied).allow ⟨.exec, "sh", "lua"⟩ = true ∧
    ∃ before r after, [Rule.new .exec .deny 7, .new .exec .deny 8] = before ++ r :: after ∧
      ([Rule.new .exec .deny 7, .new .exec .deny 8].foldl addRule tied).DecidedBy
        ⟨.exec, "sh", "lua"⟩ r ∧
      ∀ s ∈ tied.rules ++ before, s.Matches ⟨.exec, "sh", "lua"⟩ → s.priority < r.priority := by
  let op : Operation := ⟨.exec, "sh", "lua"⟩
  obtain ⟨-, ⟨hranked, hfirst⟩, -, haudit, -, hadded⟩ := allow_eq_false_iff_decidedBy tied op
  have hdecided : tied.DecidedBy op (.new .exec .audit 7) :=
    ⟨[.new .exec .deny (-5)], [.new .exec .allow 7], rfl, by decide, by decide, by decide⟩
  have hgranted : ¬ tied.Forbids op := by
    rintro ⟨c, hc, -⟩
    cases hc
  exact ⟨(hfirst _ hranked _).mpr hdecided, by decide, haudit hgranted ⟨_, hdecided, rfl⟩,
    by decide, hadded _ (.inl (by decide))⟩

end Policy

end LanguageHost
