import LanguageHost.Engine.Step
import LanguageHost.Proofs.Pool.Trace

/-!
# The pools of engines

The pool of an engine was started with at least one worker, and whatever an engine does with it is
an event of the pool or nothing at all; so it is a pool that was started and then used
(`Pool.Used`), and what is known of such pools is known of it.  What an engine does for a task
neither panics as it is called nor cancels itself (`Pool.Tame`).  An engine closes its pool at once:
no worker is left idle, and all that were idle have been shut down (`shut_closeAtOnce`).
-/

namespace LanguageHost

/-- Whether an operation panics as it is called, or fires the token that it was handed. -/
def PoolEvent.isUnruly : PoolEvent → Bool
  | .crash _ | .fireOwn _ => true
  | _ => false

namespace Pool

variable {p p' : Pool} {e : PoolEvent} {workers : List Worker}

/-- A pool that was started and then used. -/
def Used (p : Pool) : Prop := ∃ n p₀ es, Fresh n p₀ ∧ p₀.run es = some p

/-- An event happens, or it is not possible and nothing does. -/
theorem follow_cases (p : Pool) (e : PoolEvent) :
    p.step e = some (p.follow e) ∨ p.follow e = p := by
  cases h : p.step e with
  | none => exact .inr (by rw [follow, h, Option.getD_none])
  | some p' => exact .inl (by rw [follow, h, Option.getD_some])

namespace Used

theorem step (h : p.Used) (hs : p.step e = some p') : p'.Used := by
  obtain ⟨n, p₀, es, h₀, hrun⟩ := h
  exact ⟨n, p₀, es ++ [e], h₀, run_concat_eq_some.mpr ⟨p, hrun, hs⟩⟩

theorem follow (h : p.Used) (e : PoolEvent) : (p.follow e).Used := by
  rcases p.follow_cases e with hstep | hnothing
  · exact h.step hstep
  · rw [hnothing]
    exact h

/-- A closed pool has no idle workers. -/
theorem idle_eq (h : p.Used) (hc : p.closed = true) : p.idle = [] := by
  obtain ⟨n, p₀, es, h₀, hrun⟩ := h
  exact (accounted_run h₀ hrun).2.idle_of_closed hc

end Used

/-- A pool that was started and then used, in which no operation has panicked as it was called or
fired the token that it was handed. -/
def Tame (p : Pool) : Prop :=
  ∃ n p₀ es, Fresh n p₀ ∧ p₀.run es = some p ∧ ∀ e ∈ es, e.isUnruly = false

namespace Tame

theorem used (h : p.Tame) : p.Used := by
  obtain ⟨n, p₀, es, h₀, hrun, -⟩ := h
  exact ⟨n, p₀, es, h₀, hrun⟩

theorem step (h : p.Tame) (he : e.isUnruly = false) (hs : p.step e = some p') : p'.Tame := by
  obtain ⟨n, p₀, es, h₀, hrun, hall⟩ := h
  refine ⟨n, p₀, es ++ [e], h₀, run_concat_eq_some.mpr ⟨p, hrun, hs⟩, fun e' he' => ?_⟩
  rcases List.mem_append.mp he' with hold | hlast
  · exact hall e' hold
  · exact List.mem_singleton.mp hlast ▸ he

theorem follow (h : p.Tame) (he : e.isUnruly = false) : (p.follow e).Tame := by
  rcases p.follow_cases e with hstep | hnothing
  · exact h.step he hstep
  · rw [hnothing]
    exact h

/-- A tame pool was started, and no operation has panicked in it as it was called. -/
theorem traced (h : p.Tame) : ∃ p₀ es, Traced p₀ es p ∧ ∀ t, .crash t ∉ es := by
  obtain ⟨n, p₀, es, h₀, hrun, hall⟩ := h
  refine ⟨p₀, es, traced_run h₀ hrun, fun t hmem => ?_⟩
  cases hall _ hmem

end Tame

/-- The pool that the settings of a runtime ask for has a worker. -/
theorem tame_forSettings (name : String) (settings : RuntimeSettings) (now : Nat) :
    (forSettings name settings now).Tame := by
  have hpos : 0 < settings.poolSize := by
    unfold RuntimeSettings.poolSize RuntimeSettings.usualPoolSize
    split
    · decide
    · next hne => exact Nat.pos_of_ne_zero hne
  exact ⟨_, _, [], fresh_opened hpos name _ now, rfl, nofun⟩

/-! ### Closing -/

/-- An event of an engine other than closing the pool. -/
def Within (e : PoolEvent) : Prop := e.isWithin = true ∨ ∃ fired, e = .askRun fired

theorem Within.tame (he : Within e) : e.isUnruly = false := by
  rcases he with he | ⟨fired, rfl⟩
  · cases e <;> first | rfl | cases he
  · rfl

theorem closing_within (he : Within e) (h : p.Occurs e p') : p'.closing = p.closing := by
  cases h with
  | closeAgain => rfl
  | close => simp [Within, PoolEvent.isWithin] at he
  | closedOne => simp [Within, PoolEvent.isWithin] at he
  | abandonClose => simp [Within, PoolEvent.isWithin] at he
  | _ => rfl

theorem closing_follow (he : Within e) (p : Pool) : (p.follow e).closing = p.closing := by
  rcases p.follow_cases e with hstep | hnothing
  · exact closing_within he (occurs_of_step hstep)
  · rw [hnothing]

/-- The pool is closed, no worker is idle, and these workers have been shut down. -/
structure Shut (workers : List Worker) (p : Pool) : Prop where
  used : p.Used
  closed : p.closed = true
  closing_eq : p.closing = []
  retired : workers ⊆ p.retired

theorem Shut.follow (h : p.Shut workers) (he : Within e) : (p.follow e).Shut workers := by
  refine ⟨h.used.follow e, ?_, (closing_follow he p).trans h.closing_eq, ?_⟩
  · rcases p.follow_cases e with hstep | hnothing
    · by_contra hopen
      have hbefore := closed_step (occurs_of_step hstep) (by simpa using hopen)
      cases h.closed.symm.trans hbefore
    · rw [hnothing]
      exact h.closed
  · rcases p.follow_cases e with hstep | hnothing
    · exact List.Subset.trans h.retired (retired_suffix (occurs_of_step hstep)).subset
    · rw [hnothing]
      exact h.retired

/-- Shutting down the workers that closing has left, one after the other. -/
theorem foldl_closedOne (p : Pool) (workers : List Worker) (h : p.closing = workers) :
    workers.foldl (fun p _ => p.follow .closedOne) p =
      { p with closing := [], retired := workers.tail.reverse ++ p.retired } := by
  induction workers generalizing p with
  | nil => rw [List.foldl_nil, List.tail_nil, List.reverse_nil, List.nil_append, ← h]
  | cons w rest ih =>
    have hstep : p.follow .closedOne =
        { p with closing := rest, retired := rest.take 1 ++ p.retired } := by
      rw [Pool.follow, step, h]
      rfl
    rw [List.foldl_cons, hstep, ih _ rfl]
    cases rest with
    | nil => rfl
    | cons w' rest =>
      simp only [List.tail_cons, List.reverse_cons, List.take_succ_cons, List.take_zero,
        List.append_assoc]

/-- Closing a pool at once keeps what any of its steps keeps. -/
theorem closeAtOnce_keeps {motive : Pool → Prop} (hp : motive p)
    (next : ∀ q e, e.isUnruly = false → motive q → motive (q.follow e)) :
    motive p.closeAtOnce :=
  List.foldlRecOn _ _ (next p .close rfl hp) fun q hq _ _ => next q .closedOne rfl hq

theorem used_closeAtOnce (h : p.Used) : p.closeAtOnce.Used :=
  closeAtOnce_keeps h fun _ e _ hq => hq.follow e

theorem tame_closeAtOnce (h : p.Tame) : p.closeAtOnce.Tame :=
  closeAtOnce_keeps h fun _ _ he hq => hq.follow he

/-- Closing a pool at once shuts all idle workers down. -/
theorem shut_closeAtOnce (h : p.Used) : p.closeAtOnce.Shut p.idle := by
  have hused := used_closeAtOnce h
  have hclose : p.closeAtOnce = { p.close with
      closing := [], retired := p.close.closing.tail.reverse ++ p.close.retired } :=
    foldl_closedOne p.close _ rfl
  rw [hclose] at hused ⊢
  cases hc : p.closed with
  | true =>
    refine ⟨hused, ?_, rfl, ?_⟩
    · rw [close, if_pos hc]
      exact hc
    · rw [h.idle_eq hc]
      exact List.nil_subset _
  | false =>
    have heq : p.close = (({ p with closed := true, idle := [], closing := p.idle.reverse }.dropLive
        p.idle.reverse.length).closeNext) := by
      rw [close, if_neg (by simp [hc])]
    refine ⟨hused, ?_, rfl, fun w hw => ?_⟩
    · rw [heq]
      rfl
    · -- Closing retires the first worker, and the others follow one by one.
      have hmem : w ∈ p.idle.reverse := List.mem_reverse.mpr hw
      rw [heq]
      simp only [closeNext, dropLive]
      cases hdrained : p.idle.reverse with
      | nil =>
        rw [hdrained] at hmem
        cases hmem
      | cons first rest =>
        rw [hdrained] at hmem
        rcases List.mem_cons.mp hmem with rfl | hrest
        · exact List.mem_append_right _ List.mem_cons_self
        · exact List.mem_append_left _ (List.mem_reverse.mpr hrest)

/-! ### A pool that nobody uses -/

/-- In a pool that nobody has asked for anything only time passes. -/
theorem follow_opened (name : String) (grace now : Nat) (workers : List Worker) (n : Nat)
    (he : e.isWithin = true) :
    ∃ time, (opened name grace now workers n).follow e = opened name grace time workers n := by
  cases e with
  | wait time =>
    by_cases hle : now ≤ time
    · have hstep : (opened name grace now workers n).step (.wait time) =
          some (opened name grace time workers n) := if_pos hle
      exact ⟨time, by rw [follow, hstep, Option.getD_some]⟩
    · have hstep : (opened name grace now workers n).step (.wait time) = none := if_neg hle
      exact ⟨now, by rw [follow, hstep, Option.getD_none]⟩
  | withdraw t => exact ⟨now, rfl⟩
  | fire t => exact ⟨now, rfl⟩
  | take t => exact ⟨now, rfl⟩
  | learn t => exact ⟨now, rfl⟩
  | finish t r => exact ⟨now, rfl⟩
  | panic t => exact ⟨now, rfl⟩
  | expire t => exact ⟨now, rfl⟩
  | jobDown t => exact ⟨now, rfl⟩
  | built t made => exact ⟨now, rfl⟩
  | _ => cases he

end Pool

end LanguageHost
