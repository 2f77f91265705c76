import LanguageHost.Proofs.Memory.Budget

/-!
# The two rules of access

The exclusive rule refuses accesses that the cooperative rule grants, and makes no other
difference.  Such a refusal can be told by its error (`HostError.isContest`): the cooperative rule
never gives that error for that access.  So two shared memories that differ by the rule only do the
same by every attempt which the exclusive one does not refuse in this way (`attempt_under`), and at
the first one that it does refuse the cooperative one grants the access (`grants_of_contests`).
-/

namespace LanguageHost

/-- The errors of the exclusive rule: a reader meets a writer, or a writer meets readers. -/
def HostError.isContest : Access → HostError → Bool
  | .read, .writerConflict _ => true
  | .write, .regionBusy .. => true
  | _, _ => false

/-- What is given to whoever tries something with a shared memory. -/
inductive MemoryAnswer where
  /-- A region was made, or a use of it declared. -/
  | region (outcome : Outcome RegionRef)
  /-- A region was freed, or a use of it withdrawn. -/
  | done (outcome : Outcome Unit)
  | guard (outcome : Outcome Guard)
  /-- Nothing is given, but it can be seen whether something could be done. -/
  | possible (is : Bool)

/-- Whether an answer is a refusal by the exclusive rule. -/
def MemoryAnswer.isContest : MemoryEvent → MemoryAnswer → Bool
  | .acquire access _, .region (.error e) => e.isContest access
  | .guard access _, .guard (.error e) => e.isContest access
  | _, _ => false

namespace Coordinator

variable {c : Coordinator} {access : Access} {id : String}

/-- The coordinator with another rule. -/
def under (c : Coordinator) (rule : AccessRule) : Coordinator :=
  { c with settings := { c.settings with rule } }

/-- The rule has no part in what can be looked up. -/
theorem lookups_under (c : Coordinator) (rule : AccessRule) :
    (∀ id, (c.under rule).get id = c.get id) ∧ (c.under rule).ids = c.ids ∧
      (c.under rule).stats = c.stats :=
  ⟨fun _ => rfl, rfl, rfl⟩

/-! ### What the rules refuse -/

/-- The cooperative rule never refuses an access with an error of the exclusive one. -/
theorem isContest_of_cooperative {r : Region} {e : HostError}
    (h : refusal? .cooperative access id r = some e) : e.isContest access = false := by
  cases access with
  | read => simp [refusal?] at h
  | write =>
    have hwriter : 0 < r.writers ∧ HostError.writerConflict id = e := by simpa [refusal?] using h
    rw [← hwriter.2]
    rfl

/-- An access to which the rules answer differently is granted by the cooperative one, and refused
by the exclusive one with an error of its own. -/
theorem refusal?_cooperative (access : Access) (id : String) (r : Region) :
    refusal? .cooperative access id r = refusal? .exclusive access id r ∨
      refusal? .cooperative access id r = none ∧
        ∃ e, refusal? .exclusive access id r = some e ∧ e.isContest access = true := by
  cases access with
  | read =>
    by_cases hwriters : 0 < r.writers
    · refine .inr ⟨by simp [refusal?], .writerConflict id, ?_, rfl⟩
      simp [refusal?, hwriters]
    · exact .inl (by simp [refusal?, hwriters])
  | write =>
    by_cases hwriters : 0 < r.writers
    · exact .inl (by simp only [refusal?, hwriters, if_true])
    · by_cases hreaders : 0 < r.readers
      · refine .inr ⟨by simp [refusal?, hwriters], .regionBusy id r.readers.toNat 0, ?_, rfl⟩
        simp [refusal?, hwriters, hreaders]
      · exact .inl (by simp [refusal?, hwriters, hreaders])

/-! ### Operations under another rule -/

theorem allocate_under (c : Coordinator) (rule : AccessRule) (id : String) (size : UInt64)
    (element : ElementType) : (c.under rule).allocate id size element =
      ((c.allocate id size element).1, (c.allocate id size element).2.under rule) := by
  by_cases hid : c.table.contains id = true
  · simp only [allocate, under, hid, if_true]
  · by_cases hlimit : c.settings.limit < saturatingAdd c.usage size
    · simp only [allocate, under, hid, hlimit, if_true, Bool.false_eq_true, if_false]
    · cases hfault : c.space.fault? c.usage.toNat size with
      | none =>
        simp only [allocate, under, hid, hlimit, hfault, Bool.false_eq_true, if_false]
        rfl
      | some reason =>
        simp only [allocate, under, hid, hlimit, hfault, Bool.false_eq_true, if_false]

theorem free_under (c : Coordinator) (rule : AccessRule) (id : String) :
    (c.under rule).free id = ((c.free id).1, (c.free id).2.under rule) := by
  have hfind : (c.under rule).find id = c.find id := rfl
  unfold free
  rw [hfind]
  split
  · rfl
  · split <;> rfl

theorem release_under (c : Coordinator) (rule : AccessRule) (access : Access) (id : String) :
    (c.under rule).release access id =
      ((c.release access id).1, (c.release access id).2.under rule) := by
  have hget : (c.under rule).get id = c.get id := rfl
  unfold release
  rw [hget]
  split <;> rfl

theorem put?_under (c : Coordinator) (rule : AccessRule) (ref : RegionRef) (place : Nat)
    (octets : List UInt8) :
    (c.under rule).put? ref place octets =
      (c.put? ref place octets).map fun d => d.under rule := by
  have hregion : (c.under rule).region? ref = c.region? ref := rfl
  unfold put?
  rw [hregion]
  cases c.region? ref with
  | none => rfl
  | some r =>
    cases hput : r.put? place octets with
    | none => simp [hput]
    | some r' =>
      simp only [Option.bind_eq_bind, Option.bind_some, hput]
      rfl

/-- No access is refused under the cooperative rule with an error of the exclusive one. -/
theorem isContest_of_acquire {e : HostError} (hrule : c.settings.rule = .cooperative)
    (h : (c.acquire access id).1 = .error e) : e.isContest access = false := by
  unfold acquire at h
  split at h
  · next hfind =>
    -- A region that is not there is no matter of the rule.
    have hmissing : HostError.regionNotFound id = e := by
      unfold find at hfind
      split at hfind
      · cases hfind
      · cases hfind
        exact Except.error.inj h
    rw [← hmissing]
    cases access <;> rfl
  · split at h
    · next hrefused =>
      cases h
      exact isContest_of_cooperative (hrule ▸ hrefused)
    · cases h

/-- An access is answered in the same way under both rules and has the same effect, or it is refused
under the exclusive rule, with an error of that rule, and granted under the cooperative one. -/
theorem acquire_under (hrule : c.settings.rule = .exclusive) (access : Access) (id : String) :
    (c.under .cooperative).acquire access id =
        ((c.acquire access id).1, (c.acquire access id).2.under .cooperative) ∨
      (∃ e, c.acquire access id = (.error e, c) ∧ e.isContest access = true) ∧
        ∃ ref r, c.region? ref = some r ∧ (c.under .cooperative).acquire access id =
          (.ok ref, (c.under .cooperative).changeRegion ref (declared access)) := by
  have hfind : (c.under .cooperative).find id = c.find id := rfl
  have hsettings : (c.under .cooperative).settings.rule = .cooperative := rfl
  unfold acquire
  rw [hfind, hsettings, hrule]
  cases hc : c.find id with
  | error e => exact .inl rfl
  | ok found =>
    obtain ⟨ref, r⟩ := found
    rcases refusal?_cooperative access id r with hsame | ⟨hgranted, e, hrefused, hcontest⟩
    · simp only [hsame]
      cases refusal? .exclusive access id r with
      | none => exact .inl rfl
      | some e => exact .inl rfl
    · simp only [hgranted, hrefused]
      exact .inr ⟨⟨e, rfl, hcontest⟩, ref, r, (find_eq_ok.mp hc).2, rfl⟩

end Coordinator

namespace MemoryUsers

variable {u : MemoryUsers} {e : MemoryEvent} {x : AddressSpace × MemoryEvent}
variable {xs : List (AddressSpace × MemoryEvent)}

/-- The users of a coordinator with another rule. -/
def under (u : MemoryUsers) (rule : AccessRule) : MemoryUsers :=
  { u with coordinator := u.coordinator.under rule }

/-- What is given to whoever asks for an event. -/
def answer (u : MemoryUsers) : MemoryEvent → MemoryAnswer
  | .allocate id size element => .region (u.coordinator.allocate id size element).1
  | .free id => .done (u.coordinator.free id).1
  | .acquire access id => .region (u.coordinator.acquire access id).1
  | .release access id => .done (u.coordinator.release access id).1
  | .guard access id => .guard (u.coordinator.guard access id).1
  | .drop n => .possible (u.step (.drop n)).isSome
  | .write n place octets => .possible (u.step (.write n place octets)).isSome
  | .put ref place octets => .possible (u.step (.put ref place octets)).isSome

/-- What is given to whoever tries an event where so much can be mapped. -/
def tried (u : MemoryUsers) (x : AddressSpace × MemoryEvent) : MemoryAnswer :=
  (u.inSpace x.1).answer x.2

/-- What is given to those who try events one after the other. -/
def answers (u : MemoryUsers) : List (AddressSpace × MemoryEvent) → List MemoryAnswer
  | [] => []
  | x :: rest => u.tried x :: (u.attempt x).answers rest

/-- Whether an attempt is refused with an error of the exclusive rule. -/
def contests (u : MemoryUsers) (x : AddressSpace × MemoryEvent) : Bool :=
  (u.tried x).isContest x.2

/-- None of these attempts is refused with an error of the exclusive rule. -/
def Uncontested (u : MemoryUsers) (xs : List (AddressSpace × MemoryEvent)) : Prop :=
  ∀ before x after, xs = before ++ x :: after → (u.attempts before).contests x = false

/-- An attempt is answered with a region, or with a guard for it, which is used once more then. -/
def Grants (u : MemoryUsers) (x : AddressSpace × MemoryEvent) : Prop :=
  ∃ access id ref,
    (x.2 = .acquire access id ∧ u.tried x = .region (.ok ref) ∨
      x.2 = .guard access id ∧ u.tried x = .guard (.ok ⟨ref, access⟩)) ∧
    (u.attempt x).coordinator.uses ref access = u.coordinator.uses ref access + 1

/-! ### One attempt -/

/-- Only an access can be contested. -/
theorem access_of_isContest (h : (u.answer e).isContest e = true) :
    ∃ access id, e = .acquire access id ∨ e = .guard access id := by
  cases e with
  | acquire access id => exact ⟨access, id, .inl rfl⟩
  | guard access id => exact ⟨access, id, .inr rfl⟩
  | _ => cases h

/-- An access that is contested is refused with an error of the exclusive rule. -/
theorem acquire_of_isContest {access : Access} {id : String}
    (he : e = .acquire access id ∨ e = .guard access id) (h : (u.answer e).isContest e = true) :
    ∃ err, (u.coordinator.acquire access id).1 = .error err ∧ err.isContest access = true := by
  rcases he with rfl | rfl
  · rw [answer] at h
    generalize (u.coordinator.acquire access id).1 = outcome at h ⊢
    cases outcome with
    | ok ref => cases h
    | error err => exact ⟨err, rfl, h⟩
  · rw [answer, Coordinator.guard] at h
    generalize u.coordinator.acquire access id = acquired at h ⊢
    obtain ⟨outcome, c⟩ := acquired
    cases outcome with
    | ok ref => cases h
    | error err => exact ⟨err, rfl, h⟩

/-- Under the cooperative rule nothing is contested. -/
theorem contests_cooperative (hrule : u.coordinator.settings.rule = .cooperative)
    (x : AddressSpace × MemoryEvent) : u.contests x = false := by
  refine Bool.eq_false_iff.mpr fun h => ?_
  obtain ⟨access, id, he⟩ := access_of_isContest h
  obtain ⟨err, hrefused, hcontest⟩ := acquire_of_isContest he h
  have hrule : (u.inSpace x.1).coordinator.settings.rule = .cooperative := hrule
  have hnone : err.isContest access = false := Coordinator.isContest_of_acquire hrule hrefused
  exact absurd hcontest (Bool.eq_false_iff.mp hnone)

/-- What is not contested has the same answer and the same effect under both rules. -/
theorem step_under (hrule : u.coordinator.settings.rule = .exclusive)
    (h : (u.answer e).isContest e = false) :
    (u.under .cooperative).answer e = u.answer e ∧
      (u.under .cooperative).step e = (u.step e).map fun v => v.under .cooperative := by
  have hsame : ∀ access id, (e = .acquire access id ∨ e = .guard access id) →
      (u.coordinator.under .cooperative).acquire access id =
        ((u.coordinator.acquire access id).1,
          (u.coordinator.acquire access id).2.under .cooperative) := by
    intro access id he
    rcases Coordinator.acquire_under hrule access id with hsame | ⟨hcontested, -⟩
    · exact hsame
    · -- Otherwise the access would be contested.
      obtain ⟨err, hrefused, hcontest⟩ := hcontested
      have hcontested : (u.answer e).isContest e = true := by
        rcases he with rfl | rfl
        · rw [answer, hrefused]
          exact hcontest
        · rw [answer, Coordinator.guard, hrefused]
          exact hcontest
      exact absurd hcontested (Bool.eq_false_iff.mp h)
  cases e with
  | allocate id size element =>
    have hallocate := u.coordinator.allocate_under .cooperative id size element
    constructor
    · simp only [answer, under, hallocate]
    · simp only [step, under, hallocate, Option.map_some]
  | free id =>
    have hfree := u.coordinator.free_under .cooperative id
    constructor
    · simp only [answer, under, hfree]
    · simp only [step, under, hfree, Option.map_some]
  | acquire access id =>
    have hacquire := hsame access id (.inl rfl)
    constructor
    · simp only [answer, under, hacquire]
    · simp only [step, under, hacquire]
      generalize u.coordinator.acquire access id = acquired
      obtain ⟨outcome, c⟩ := acquired
      cases outcome with
      | ok ref => rfl
      | error err => rfl
  | release access id =>
    have hrelease := u.coordinator.release_under .cooperative access id
    have hget : (u.coordinator.under .cooperative).get id = u.coordinator.get id := rfl
    constructor
    · simp only [answer, under, hrelease]
    · simp only [step, under, hrelease, hget]
      cases u.coordinator.get id with
      | ok ref => rfl
      | error err => rfl
  | guard access id =>
    have hacquire := hsame access id (.inr rfl)
    simp only [answer, step, under, Coordinator.guard, hacquire]
    generalize u.coordinator.acquire access id = acquired
    obtain ⟨outcome, c⟩ := acquired
    cases outcome with
    | ok ref => exact ⟨rfl, rfl⟩
    | error err => exact ⟨rfl, rfl⟩
  | drop n =>
    have hstep : (u.under .cooperative).step (.drop n) =
        (u.step (.drop n)).map fun v => v.under .cooperative := by
      simp only [step, Option.map_map]
      rfl
    exact ⟨by simp only [answer, hstep, Option.isSome_map], hstep⟩
  | write n place octets =>
    have hstep : (u.under .cooperative).step (.write n place octets) =
        (u.step (.write n place octets)).map fun v => v.under .cooperative := by
      have hguard : (u.under .cooperative).guard? n = u.guard? n := rfl
      simp only [step, hguard]
      split
      · have hput := u.coordinator.put?_under .cooperative
        simp only [under, hput, Option.map_map]
        rfl
      · rfl
    exact ⟨by simp only [answer, hstep, Option.isSome_map], hstep⟩
  | put ref place octets =>
    have hstep : (u.under .cooperative).step (.put ref place octets) =
        (u.step (.put ref place octets)).map fun v => v.under .cooperative := by
      have hput := u.coordinator.put?_under .cooperative ref place octets
      simp only [step, under, hput, Option.map_map]
      rfl
    exact ⟨by simp only [answer, hstep, Option.isSome_map], hstep⟩

/-- An attempt that is not contested has the same answer and the same effect under both rules. -/
theorem attempt_under (hrule : u.coordinator.settings.rule = .exclusive)
    (h : u.contests x = false) :
    (u.under .cooperative).tried x = u.tried x ∧
      (u.under .cooperative).attempt x = (u.attempt x).under .cooperative := by
  have hspace : (u.under .cooperative).inSpace x.1 = (u.inSpace x.1).under .cooperative := rfl
  have hrule : (u.inSpace x.1).coordinator.settings.rule = .exclusive := hrule
  obtain ⟨hanswer, hstep⟩ := step_under hrule h
  refine ⟨hanswer, ?_⟩
  rw [attempt, attempt, hspace, hstep]
  cases (u.inSpace x.1).step x.2 with
  | none => rfl
  | some v => rfl

/-- What is contested is granted under the cooperative rule. -/
theorem grants_of_contests (hrule : u.coordinator.settings.rule = .exclusive)
    (h : u.contests x = true) : (u.under .cooperative).Grants x := by
  obtain ⟨access, id, he⟩ := access_of_isContest h
  obtain ⟨err, hrefused, hcontest⟩ := acquire_of_isContest he h
  have hrule : (u.inSpace x.1).coordinator.settings.rule = .exclusive := hrule
  have hgranted : ∃ ref r, u.coordinator.region? ref = some r ∧
      ((u.inSpace x.1).under .cooperative).coordinator.acquire access id =
        (.ok ref, ((u.inSpace x.1).under .cooperative).coordinator.changeRegion ref
          (Coordinator.declared access)) := by
    rcases Coordinator.acquire_under hrule access id with hsame | ⟨-, hgranted⟩
    · -- The cooperative rule does not refuse with this error.
      have hlax : ((u.inSpace x.1).coordinator.under .cooperative).settings.rule = .cooperative :=
        rfl
      have hanswer := congrArg Prod.fst hsame
      have hnone : err.isContest access = false :=
        Coordinator.isContest_of_acquire hlax (hanswer.trans hrefused)
      exact absurd hcontest (Bool.eq_false_iff.mp hnone)
    · exact hgranted
  obtain ⟨ref, r, hr, hacquire⟩ := hgranted
  have huses : (((u.inSpace x.1).under .cooperative).coordinator.changeRegion ref
      (Coordinator.declared access)).uses ref access =
        (u.under .cooperative).coordinator.uses ref access + 1 := by
    have hcount := Coordinator.uses_changeRegion_declared
      (c := ((u.inSpace x.1).under .cooperative).coordinator) hr access access ref
    rw [if_pos rfl] at hcount
    exact hcount
  have hspace : (u.under .cooperative).inSpace x.1 = (u.inSpace x.1).under .cooperative := rfl
  refine ⟨access, id, ref, ?_, ?_⟩
  · rcases he with he | he
    · exact .inl ⟨he, by rw [tried, hspace, he, answer, hacquire]⟩
    · exact .inr ⟨he, by rw [tried, hspace, he, answer, Coordinator.guard, hacquire]⟩
  · rw [attempt, hspace]
    rcases he with he | he
    · rw [he, step, hacquire]
      exact huses
    · rw [he, step, Coordinator.guard, hacquire]
      exact huses

/-! ### All attempts -/

theorem uncontested_nil (u : MemoryUsers) : u.Uncontested [] := by
  intro before x after hsplit
  cases before with
  | nil => cases hsplit
  | cons y before => cases hsplit

theorem uncontested_cons : u.Uncontested (x :: xs) ↔
    u.contests x = false ∧ (u.attempt x).Uncontested xs := by
  constructor
  · intro h
    refine ⟨h [] x xs rfl, ?_⟩
    rintro before y after rfl
    exact h (x :: before) y after rfl
  · rintro ⟨hfirst, hrest⟩ before y after hsplit
    cases before with
    | nil =>
      cases hsplit
      exact hfirst
    | cons z before =>
      cases hsplit
      exact hrest before y after rfl

/-- Without a contest among them, all attempts have the same answers and the same effect under both
rules. -/
theorem attempts_under (hrule : u.coordinator.settings.rule = .exclusive)
    (h : u.Uncontested xs) :
    (u.under .cooperative).answers xs = u.answers xs ∧
      (u.under .cooperative).attempts xs = (u.attempts xs).under .cooperative := by
  induction xs generalizing u with
  | nil => exact ⟨rfl, rfl⟩
  | cons x rest ih =>
    obtain ⟨hfirst, hrest⟩ := uncontested_cons.mp h
    obtain ⟨hanswer, hafter⟩ := attempt_under hrule hfirst
    have hrule' : (u.attempt x).coordinator.settings.rule = .exclusive := by
      rw [← hrule]
      exact congrArg MemorySettings.rule (settings_attempts u [x])
    obtain ⟨hanswers, hattempts⟩ := ih hrule' hrest
    constructor
    · rw [answers, answers, hanswer, hafter, hanswers]
    · rw [attempts, List.foldl_cons, hafter]
      exact hattempts

/-- The same attempts are made with two shared memories, both empty at first and of the same limit,
one under the exclusive and one under the cooperative rule.  Up to the first attempt that the
exclusive one refuses with an error of its rule, all answers are the same, and so is everything that
is kept (the table, the usage, the declared uses and the octets) and all that can be looked up; that
attempt is granted by the cooperative one.  The cooperative one never refuses anything with such an
error, and if the exclusive one does not either, there is no difference at all. -/
theorem rules_agree_until_contest (limit : UInt64) (space : AddressSpace)
    (xs : List (AddressSpace × MemoryEvent)) :
    let strict := start (.new { limit, rule := .exclusive } space)
    let lax := start (.new { limit, rule := .cooperative } space)
    (∀ before after, xs = before ++ after → strict.Uncontested before →
      lax.answers before = strict.answers before ∧
      lax.attempts before = (strict.attempts before).under .cooperative ∧
      ((∀ id, (lax.attempts before).coordinator.get id =
          (strict.attempts before).coordinator.get id) ∧
        (lax.attempts before).coordinator.ids = (strict.attempts before).coordinator.ids ∧
        (lax.attempts before).coordinator.stats = (strict.attempts before).coordinator.stats) ∧
      ∀ x rest, after = x :: rest → (strict.attempts before).contests x = true →
        (lax.attempts before).Grants x) ∧
    lax.Uncontested xs ∧
    (strict.Uncontested xs → lax.answers xs = strict.answers xs ∧
      lax.attempts xs = (strict.attempts xs).under .cooperative) := by
  intro strict lax
  have hunder : lax = strict.under .cooperative := rfl
  have hstrict : strict.coordinator.settings.rule = .exclusive := rfl
  refine ⟨?_, ?_, ?_⟩
  · intro before after _ hbefore
    obtain ⟨hanswers, hattempts⟩ := attempts_under hstrict hbefore
    rw [hunder, hattempts]
    refine ⟨hanswers, rfl, (strict.attempts before).coordinator.lookups_under .cooperative, ?_⟩
    intro x rest _ hcontest
    have hrule : (strict.attempts before).coordinator.settings.rule = .exclusive :=
      congrArg MemorySettings.rule (settings_attempts strict before)
    exact grants_of_contests hrule hcontest
  · intro before x after _
    exact contests_cooperative (congrArg MemorySettings.rule (settings_attempts lax before)) x
  · exact attempts_under hstrict

/-- A region has a reader when a writer comes:  The exclusive rule refuses the writer, and the
cooperative one, under which nothing was different until then, grants the access. -/
theorem rules_agree_until_writer_comes :
    let strict := start (.new { limit := 64, rule := .exclusive } .usual)
    let lax := start (.new { limit := 64, rule := .cooperative } .usual)
    let before : List (AddressSpace × MemoryEvent) :=
      [(.usual, .allocate "a" 4 .bytes), (.usual, .put 0 0 [7]), (.usual, .acquire .read "a")]
    strict.Uncontested before ∧
      lax.attempts before = (strict.attempts before).under .cooperative ∧
      (strict.attempts before).contests (.usual, .acquire .write "a") = true ∧
      (lax.attempts before).Grants (.usual, .acquire .write "a") := by
  intro strict lax before
  have hbefore : strict.Uncontested before := by
    refine uncontested_cons.mpr ⟨rfl, uncontested_cons.mpr ⟨rfl, ?_⟩⟩
    refine uncontested_cons.mpr ⟨?_, ?_⟩
    · decide +kernel
    · exact uncontested_nil _
  have hcontest : (strict.attempts before).contests (.usual, .acquire .write "a") = true := by
    decide +kernel
  obtain ⟨hagree, -, -⟩ :=
    rules_agree_until_contest 64 .usual (before ++ [(.usual, .acquire .write "a")])
  obtain ⟨-, hstates, -, hgrants⟩ := hagree before [(.usual, .acquire .write "a")] rfl hbefore
  exact ⟨hbefore, hstates, hcontest, hgrants _ [] rfl hcontest⟩

end MemoryUsers

end LanguageHost
