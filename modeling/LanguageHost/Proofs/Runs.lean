import Mathlib.Data.List.Induction

/-!
# Runs

A run plays a list of events one after the other, as far as each is possible in the state that the
events before it have led to.  Pools run so, and their starts, and those who use engines: `Plays`.
What is said here of runs holds for each of them.  A run can be cut in two, and what every step
keeps holds after a whole run.

A run can be logged: each step may give a line, which depends on the state and the event (`logged`).
-/

namespace LanguageHost

/-- A machine runs by playing one event after the other. -/
structure Plays {σ ε : Type} (step : σ → ε → Option σ) (run : σ → List ε → Option σ) : Prop where
  run_nil : ∀ s, run s [] = some s
  run_cons : ∀ s e es, run s (e :: es) = (step s e).bind fun t => run t es

namespace Plays

variable {σ ε : Type} {step : σ → ε → Option σ} {run : σ → List ε → Option σ}
variable {s s' : σ} {e : ε} {es es' : List ε}

/-- A run that begins with an event takes a step. -/
theorem cons_eq_some (h : Plays step run) :
    run s (e :: es) = some s' ↔ ∃ t, step s e = some t ∧ run t es = some s' := by
  rw [h.run_cons]
  exact Option.bind_eq_some_iff

/-- A run goes on after each of its events. -/
theorem append_eq_some (h : Plays step run) :
    run s (es ++ es') = some s' ↔ ∃ t, run s es = some t ∧ run t es' = some s' := by
  induction es generalizing s with
  | nil => simp [h.run_nil]
  | cons e es ih =>
    simp only [List.cons_append, h.cons_eq_some, ih]
    constructor
    · rintro ⟨u, hu, t, ht, ht'⟩
      exact ⟨t, ⟨u, hu, ht⟩, ht'⟩
    · rintro ⟨t, ⟨u, hu, ht⟩, ht'⟩
      exact ⟨u, hu, t, ht, ht'⟩

/-- The last event of a run is a step. -/
theorem concat_eq_some (h : Plays step run) :
    run s (es ++ [e]) = some s' ↔ ∃ t, run s es = some t ∧ step t e = some s' := by
  simp only [h.append_eq_some, h.cons_eq_some, h.run_nil, Option.some.injEq, exists_eq_right]

/-- What every step keeps holds after a run. -/
theorem induction {motive : σ → Prop} (h : Plays step run) (start : motive s)
    (next : ∀ t e u, e ∈ es → motive t → step t e = some u → motive u)
    (hr : run s es = some s') : motive s' := by
  induction es generalizing s with
  | nil =>
    rw [h.run_nil] at hr
    cases hr
    exact start
  | cons e es ih =>
    obtain ⟨t, hstep, hrest⟩ := h.cons_eq_some.mp hr
    exact ih (next s e t List.mem_cons_self start hstep)
      (fun t e u he => next t e u (List.mem_cons_of_mem _ he)) hrest

/-- What holds at first and is kept by every step holds after a run, where the events that have
happened so far are at hand in every step. -/
theorem history {motive : List ε → σ → Prop} (h : Plays step run) (start : motive [] s)
    (next : ∀ es t e u, run s es = some t → motive es t → step t e = some u →
      motive (es ++ [e]) u)
    (hr : run s es = some s') : motive es s' := by
  induction es using List.reverseRecOn generalizing s' with
  | nil =>
    rw [h.run_nil] at hr
    cases hr
    exact start
  | append_singleton es e ih =>
    obtain ⟨t, ht, hstep⟩ := h.concat_eq_some.mp hr
    exact next es t e s' ht (ih ht) hstep

end Plays

/-- The log of a run: the lines that its steps give. -/
def logged {σ ε β : Type} (step : σ → ε → Option σ) (line? : σ → ε → Option β) :
    σ → List ε → List β
  | _, [] => []
  | s, e :: es => (line? s e).toList ++ (step s e).elim [] fun t => logged step line? t es

/-- The last event of a run gives the last line. -/
theorem Plays.logged_concat {σ ε β : Type} {step : σ → ε → Option σ}
    {run : σ → List ε → Option σ} {line? : σ → ε → Option β} {s t : σ} {es : List ε}
    (h : Plays step run) (hr : run s es = some t) (e : ε) :
    logged step line? s (es ++ [e]) = logged step line? s es ++ (line? t e).toList := by
  induction es generalizing s with
  | nil =>
    rw [h.run_nil] at hr
    obtain rfl : s = t := Option.some.inj hr
    cases hstep : step s e with
    | none => simp [logged, hstep]
    | some u => simp [logged, hstep]
  | cons e' es ih =>
    obtain ⟨u, hstep, hrest⟩ := h.cons_eq_some.mp hr
    simp only [List.cons_append, logged, hstep, Option.elim_some, ih hrest, List.append_assoc]

/-- What a step of a run gives is in the log. -/
theorem Plays.mem_logged {σ ε β : Type} {step : σ → ε → Option σ}
    {run : σ → List ε → Option σ} {line? : σ → ε → Option β} {s t : σ} {es es' : List ε} {e : ε}
    {b : β} (h : Plays step run) (hr : run s es = some t) (hb : line? t e = some b) :
    b ∈ logged step line? s (es ++ e :: es') := by
  induction es generalizing s with
  | nil =>
    rw [h.run_nil] at hr
    obtain rfl : s = t := Option.some.inj hr
    exact List.mem_append_left _ (by simp [hb])
  | cons e' es ih =>
    obtain ⟨u, hstep, hrest⟩ := h.cons_eq_some.mp hr
    refine List.mem_append_right _ ?_
    rw [hstep]
    exact ih hrest

/-- What is in the log of a run was given by one of its steps. -/
theorem Plays.step_of_mem_logged {σ ε β : Type} {step : σ → ε → Option σ}
    {run : σ → List ε → Option σ} {line? : σ → ε → Option β} {s t : σ} {es : List ε} {b : β}
    (h : Plays step run) (hr : run s es = some t) (hb : b ∈ logged step line? s es) :
    ∃ before e after mid next, es = before ++ e :: after ∧ run s before = some mid ∧
      step mid e = some next ∧ line? mid e = some b ∧ run next after = some t := by
  induction es generalizing s with
  | nil => cases hb
  | cons e es ih =>
    obtain ⟨u, hstep, hrest⟩ := h.cons_eq_some.mp hr
    rcases List.mem_append.mp hb with hfirst | hlater
    · exact ⟨[], e, es, s, u, rfl, h.run_nil s, hstep, Option.mem_toList.mp hfirst, hrest⟩
    · rw [hstep, Option.elim_some] at hlater
      obtain ⟨before, e', after, mid, next, rfl, hbefore, hmid⟩ := ih hrest hlater
      exact ⟨e :: before, e', after, mid, next, rfl, h.cons_eq_some.mpr ⟨u, hstep, hbefore⟩, hmid⟩

/-- A log of what is made of the lines of another. -/
theorem logged_bind {σ ε β γ : Type} (step : σ → ε → Option σ) (line? : σ → ε → Option β)
    (f : β → Option γ) (s : σ) (es : List ε) :
    logged step (fun s e => (line? s e).bind f) s es = (logged step line? s es).filterMap f := by
  induction es generalizing s with
  | nil => rfl
  | cons e es ih =>
    have hline : ((line? s e).bind f).toList = (line? s e).toList.filterMap f := by
      cases line? s e with
      | none => rfl
      | some b => cases hb : f b <;> simp [hb]
    rw [logged, logged, List.filterMap_append, hline]
    cases step s e with
    | none => rfl
    | some t => exact congrArg _ (ih t)

section

variable {α κ : Type} {f : α → κ} {l : List α} {line? : Option α} {k : κ} {b : α}

/-- A line that is added under one key is not a line of another. -/
theorem mem_append_toList (hline : ∀ a, line? = some a → f a = k) (hb : f b ≠ k) :
    b ∈ l ++ line?.toList ↔ b ∈ l := by
  rw [List.mem_append, Option.mem_toList]
  exact or_iff_left fun h => hb (hline b h)

/-- A line may be added under a key that has none. -/
theorem nodup_append_toList (hl : (l.map f).Nodup)
    (hline : ∀ a, line? = some a → ∀ b ∈ l, f b ≠ f a) : ((l ++ line?.toList).map f).Nodup := by
  cases line? with
  | none => simpa using hl
  | some a =>
    rw [Option.toList_some, List.map_append, List.nodup_append]
    refine ⟨hl, by simp, fun i hi j hj => ?_⟩
    obtain ⟨b, hb, rfl⟩ := List.mem_map.mp hi
    obtain rfl : j = f a := by simpa using hj
    exact hline a rfl b hb

end

end LanguageHost
