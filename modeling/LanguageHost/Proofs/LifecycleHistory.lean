import LanguageHost.Proofs.Lifecycle

/-!
# What the past of a lifecycle tells

A lifecycle may be called in any order, orderly or not: a state may be published without a claim or
after the stop, and a claim given back that nobody has or after a state was published.  Three facts
of the past decide every answer all the same: whether a stop came, which state was published first,
and whether a claim was given that nobody gave back since.  Each of them is kept in one cell of the
lifecycle (`Lifecycle.Recalls`), and every call changes the cells as it changes the facts
(`Lifecycle.recalls_concat`).  So the answers are as the past tells: `Lifecycle.answers_by_history`.
-/

namespace LanguageHost

/-- What a lifecycle can be called for. -/
inductive LifecycleCall (σ : Type) where
  | claim
  | abandon
  | publish (s : σ)
  /-- The state is asked for that may be used. -/
  | running
  /-- The state is asked for, be the lifecycle stopped or not. -/
  | started
  | stop

namespace LifecycleCall

variable {σ : Type}

/-- What becomes of a lifecycle with a call. -/
def apply (l : Lifecycle σ) : LifecycleCall σ → Lifecycle σ
  | claim => l.claim.2
  | abandon => l.abandon
  | publish s => l.publish s
  | running | started => l
  | stop => l.stop.2

/-- The state that a call publishes. -/
def published? : LifecycleCall σ → Option σ
  | publish s => some s
  | _ => none

/-! ### What a call does to the cells -/

theorem name_apply (c : LifecycleCall σ) (l : Lifecycle σ) : (c.apply l).name = l.name := by
  cases c with
  | claim => rcases l.claim_cases with ⟨h, -, -⟩ | ⟨e, h⟩ <;> rw [apply, h]
  | publish s => cases h : l.started? <;> simp [apply, Lifecycle.publish, h]
  | stop => cases h : l.stopped <;> simp [apply, Lifecycle.stop, h]
  | _ => rfl

theorem stopped_apply (c : LifecycleCall σ) (l : Lifecycle σ) :
    (c.apply l).stopped = true ↔ l.stopped = true ∨ c = .stop := by
  cases c with
  | claim => rcases l.claim_cases with ⟨h, -, -⟩ | ⟨e, h⟩ <;> simp [apply, h]
  | abandon => simp [apply, Lifecycle.abandon]
  | publish s => cases h : l.started? <;> simp [apply, Lifecycle.publish, h]
  | running => simp [apply]
  | started => simp [apply]
  | stop => cases h : l.stopped <;> simp [apply, Lifecycle.stop, h]

/-- A claim is taken once it is given, until it is given back. -/
theorem claimed_apply (c : LifecycleCall σ) (l : Lifecycle σ) : (c.apply l).claimed = true ↔
    c = .claim ∧ l.claim.1 = .ok () ∨ l.claimed = true ∧ c ≠ .abandon := by
  cases c with
  | claim => rcases l.claim_cases with ⟨h, -, -⟩ | ⟨e, h⟩ <;> simp [apply, h]
  | abandon => simp [apply, Lifecycle.abandon]
  | publish s => cases h : l.started? <;> simp [apply, Lifecycle.publish, h]
  | running => simp [apply]
  | started => simp [apply]
  | stop => cases h : l.stopped <;> simp [apply, Lifecycle.stop, h]

/-- Only the first state counts that is published. -/
theorem started?_apply (c : LifecycleCall σ) (l : Lifecycle σ) :
    (c.apply l).started? = l.started?.or c.published? := by
  cases c with
  | claim => rcases l.claim_cases with ⟨h, -, -⟩ | ⟨e, h⟩ <;> simp [apply, published?, h]
  | publish s => cases h : l.started? <;> simp [apply, published?, Lifecycle.publish, h]
  | stop => cases h : l.stopped <;> simp [apply, published?, Lifecycle.stop, h]
  | _ => simp [apply, published?, Lifecycle.abandon]

end LifecycleCall

namespace Lifecycle

variable {σ : Type} {name : String} {calls : List (LifecycleCall σ)} {c : LifecycleCall σ}
variable {l : Lifecycle σ}

/-- A lifecycle after some calls. -/
def after (l : Lifecycle σ) (calls : List (LifecycleCall σ)) : Lifecycle σ :=
  calls.foldl LifecycleCall.apply l

theorem after_concat (l : Lifecycle σ) (calls : List (LifecycleCall σ)) (c : LifecycleCall σ) :
    l.after (calls ++ [c]) = c.apply (l.after calls) := by
  rw [after, List.foldl_append]
  rfl

/-! ### The facts of the past -/

/-- The state that was published first. -/
def firstPublished? (calls : List (LifecycleCall σ)) : Option σ :=
  calls.findSome? LifecycleCall.published?

/-- A claim was given, and nobody gave it back since. -/
def Taken (name : String) (calls : List (LifecycleCall σ)) : Prop :=
  ∃ before later, calls = before ++ .claim :: later ∧
    ((new name).after before).claim.1 = .ok () ∧ .abandon ∉ later

theorem firstPublished?_concat (calls : List (LifecycleCall σ)) (c : LifecycleCall σ) :
    firstPublished? (calls ++ [c]) = (firstPublished? calls).or c.published? := by
  rw [firstPublished?, List.findSome?_append, List.findSome?_singleton]
  rfl

theorem taken_concat : Taken name (calls ++ [c]) ↔
    c = .claim ∧ ((new name).after calls).claim.1 = .ok () ∨ Taken name calls ∧ c ≠ .abandon := by
  constructor
  · rintro ⟨before, later, heq, hok, hkept⟩
    rcases List.eq_nil_or_concat later with rfl | ⟨later, last, rfl⟩
    · obtain ⟨rfl, hlast⟩ := List.append_inj' heq rfl
      exact .inl ⟨List.singleton_inj.mp hlast, hok⟩
    · rw [List.concat_eq_append, ← List.cons_append, ← List.append_assoc] at heq
      rw [List.concat_eq_append] at hkept
      obtain ⟨rfl, hlast⟩ := List.append_inj' heq rfl
      obtain rfl : c = last := List.singleton_inj.mp hlast
      obtain ⟨hkept, hc⟩ : .abandon ∉ later ∧ c ≠ .abandon := by simpa [eq_comm] using hkept
      exact .inr ⟨⟨before, later, rfl, hok, hkept⟩, hc⟩
  · rintro (⟨rfl, hok⟩ | ⟨⟨before, later, rfl, hok, hkept⟩, hc⟩)
    · exact ⟨calls, [], rfl, hok, List.not_mem_nil⟩
    · exact ⟨before, later ++ [c], by simp, hok, by simp [hkept, Ne.symm hc]⟩

/-! ### Every call keeps them in mind -/

/-- A lifecycle keeps the facts of its past in its cells. -/
structure Recalls (name : String) (calls : List (LifecycleCall σ)) (l : Lifecycle σ) : Prop where
  name_eq : l.name = name
  stopped_iff : l.stopped = true ↔ .stop ∈ calls
  claimed_iff : l.claimed = true ↔ Taken name calls
  started_eq : l.started? = firstPublished? calls

theorem recalls_new (name : String) : Recalls name [] (new name : Lifecycle σ) where
  name_eq := rfl
  stopped_iff := by simp [new]
  claimed_iff := by simp [new, Taken]
  started_eq := rfl

/-- Every call changes the cells as it changes the facts. -/
theorem recalls_concat (h : Recalls name calls ((new name).after calls)) (c : LifecycleCall σ) :
    Recalls name (calls ++ [c]) ((new name).after (calls ++ [c])) := by
  rw [after_concat]
  refine ⟨?_, ?_, ?_, ?_⟩
  · rw [LifecycleCall.name_apply, h.name_eq]
  · rw [LifecycleCall.stopped_apply, h.stopped_iff, List.mem_append, List.mem_singleton,
      eq_comm (a := c)]
  · rw [LifecycleCall.claimed_apply, h.claimed_iff, taken_concat]
  · rw [LifecycleCall.started?_apply, h.started_eq, firstPublished?_concat]

theorem recalls_after (name : String) (calls : List (LifecycleCall σ)) :
    Recalls name calls ((new name).after calls) := by
  induction calls using List.reverseRecOn with
  | nil => exact recalls_new name
  | append_singleton calls c ih => exact recalls_concat ih c

/-! ### Every answer -/

/-- What the past tells of the answers of a lifecycle. -/
structure AnswersBy (name : String) (calls : List (LifecycleCall σ)) (l : Lifecycle σ) :
    Prop where
  claim_iff : l.claim.1 = .ok () ↔ .stop ∉ calls ∧ ¬ Taken name calls
  /-- A claim that is refused changes nothing. -/
  claim_stopped : .stop ∈ calls →
    l.claim = (.error (.invalidState (name ++ " runtime is shut down")), l)
  claim_taken : .stop ∉ calls → Taken name calls →
    l.claim = (.error (.invalidState (name ++ " runtime already initialized")), l)
  started_eq : l.started? = firstPublished? calls
  /-- A state that is published later is ignored. -/
  publish_again : ∀ s, firstPublished? calls ≠ none → l.publish s = l
  running_iff : ∀ s, l.running = .ok s ↔ .stop ∉ calls ∧ firstPublished? calls = some s
  running_stopped : .stop ∈ calls →
    l.running = .error (.invalidState (name ++ " runtime is shut down"))
  running_idle : .stop ∉ calls → firstPublished? calls = none →
    l.running = .error (.invalidState (name ++ " runtime not initialized"))
  /-- Only the first stop hands out the state. -/
  stop_iff : ∀ s, l.stop.1 = some s ↔ .stop ∉ calls ∧ firstPublished? calls = some s
  /-- The stop is final. -/
  refuses : .stop ∈ calls → ∀ later,
    (l.after later).claim.1 = .error (.invalidState (name ++ " runtime is shut down")) ∧
      (l.after later).running = .error (.invalidState (name ++ " runtime is shut down"))

theorem Recalls.shutDownError_eq (h : Recalls name calls l) :
    l.shutDownError = .invalidState (name ++ " runtime is shut down") := by
  rw [shutDownError, h.name_eq]

theorem Recalls.not_stopped (h : Recalls name calls l) (hstop : .stop ∉ calls) :
    l.stopped = false := by
  rw [Bool.eq_false_iff, ne_eq, h.stopped_iff]
  exact hstop

theorem Recalls.claim_iff (h : Recalls name calls l) :
    l.claim.1 = .ok () ↔ .stop ∉ calls ∧ ¬ Taken name calls := by
  rw [← h.stopped_iff, ← h.claimed_iff, Bool.not_eq_true, Bool.not_eq_true]
  constructor
  · intro hok
    rcases l.claim_cases with ⟨-, hopen, hfree⟩ | ⟨e, hrefused⟩
    · exact ⟨hopen, hfree⟩
    · rw [hrefused] at hok
      cases hok
  · rintro ⟨hopen, hfree⟩
    rw [claim_of_free hopen hfree]

theorem Recalls.stop_iff (h : Recalls name calls l) (s : σ) :
    l.stop.1 = some s ↔ .stop ∉ calls ∧ firstPublished? calls = some s := by
  rw [← h.stopped_iff, ← h.started_eq]
  cases hstopped : l.stopped with
  | false => simp [stop_of_not_stopped hstopped]
  | true => simp [stop_of_stopped hstopped]

/-- Whatever a lifecycle is called for and in whatever order, its past tells all its answers.  A
claim is given exactly if no stop came before and no claim was given that nobody gave back since,
and one that is refused changes nothing.  The state that was published first is the one that
counts; it may be used until the stop, and is handed out by the first stop and by no other.  After
the stop every claim is refused, and so is every use. -/
theorem answers_by_history (name : String) (calls : List (LifecycleCall σ)) :
    AnswersBy name calls ((new name).after calls) := by
  have h := recalls_after name calls
  have hdown : .stop ∈ calls → ((new name).after calls).stopped = true := h.stopped_iff.mpr
  refine
    { claim_iff := h.claim_iff
      claim_stopped := fun hstop => h.shutDownError_eq ▸ claim_of_stopped (hdown hstop)
      claim_taken := fun hstop htaken => ?_
      started_eq := h.started_eq
      publish_again := fun s hsome => ?_
      running_iff := fun s => ?_
      running_stopped := fun hstop => h.shutDownError_eq ▸ running_of_stopped (hdown hstop)
      running_idle := fun hstop hnone => ?_
      stop_iff := h.stop_iff
      refuses := fun hstop later => ?_ }
  · rw [claim_of_claimed (h.not_stopped hstop) (h.claimed_iff.mpr htaken), takenError, h.name_eq]
  · obtain ⟨s₀, hs⟩ := Option.ne_none_iff_exists'.mp (h.started_eq ▸ hsome)
    simp only [publish, hs]
  · rw [running_eq_ok_iff, h.started_eq, ← Bool.not_eq_true, h.stopped_iff]
  · rw [running_of_none (h.not_stopped hstop) (h.started_eq.trans hnone), idleError, h.name_eq]
  · have hlater := recalls_after name (calls ++ later)
    have hstopped := hlater.stopped_iff.mpr (List.mem_append_left later hstop)
    rw [after, List.foldl_append, ← after, ← after] at hlater hstopped
    rw [claim_of_stopped hstopped, running_of_stopped hstopped, hlater.shutDownError_eq]
    exact ⟨rfl, rfl⟩

/-- A state that was published without a claim counts, and so it does after the claim was given back
and another state was published. -/
example : let l := (new "lua").after [.publish 1, .claim, .abandon, .claim, .publish 2]
    l.running = .ok 1 ∧ l.claim.1 = .error l.takenError ∧ l.stop.1 = some 1 ∧
      l.stop.2.stop.1 = none := ⟨rfl, rfl, rfl, rfl⟩

end Lifecycle

end LanguageHost
