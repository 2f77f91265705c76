import LanguageHost.Proofs.Keyed
import LanguageHost.Proofs.Pool.Steps

/-!
# The tickets of a pool

Every ticket is in one place at a time.  Its caller waits in line, watches a job, or was told an
answer; and in what concerns workers it waits in line, holds a worker, or had an operation started.
`Orderly` says so, together with the rule that the permits count the idle workers of an open pool.
It is kept by every step (`orderly_step`), so it holds along every run of a pool that starts
orderly.
-/

open scoped List

namespace LanguageHost

namespace Line

/-- The tickets in line. -/
def members (l : Line) : List Ticket := l.queue ++ l.granted

/-- The permits that nobody has and those that somebody has. -/
def allPermits (l : Line) : Nat := l.permits + l.granted.length

variable {l : Line} {t : Ticket} {closed : Bool}

theorem members_give (l : Line) (closed : Bool) : (l.give closed).members.Perm l.members := by
  unfold give
  split
  · exact .refl _
  · split
    · exact .refl _
    · next t queue hq =>
      simp only [members, hq]
      rw [← List.append_assoc, List.cons_append]
      exact List.perm_append_singleton t (queue ++ l.granted)

theorem members_join (l : Line) (closed : Bool) (t : Ticket) :
    (l.join closed t).members.Perm (t :: l.members) := by
  unfold join
  split
  · simp only [members, List.append_assoc, List.singleton_append]
    exact List.perm_middle
  · simp only [members, ← List.append_assoc]
    exact List.perm_append_singleton t (l.queue ++ l.granted)

theorem members_spend (h : l.members.Nodup) (ht : t ∈ l.granted) :
    (l.spend t).members = l.members.filter (· ≠ t) := by
  have hq : t ∉ l.queue := fun hq => List.disjoint_of_nodup_append h hq ht
  simp only [members, spend, List.filter_append]
  rw [filter_ne_eq_self hq]

theorem members_leave (h : l.members.Nodup) (closed : Bool) (t : Ticket) :
    (l.leave closed t).members.Perm (l.members.filter (· ≠ t)) := by
  unfold leave
  split
  · next ht =>
    refine (members_give _ _).trans (.of_eq ?_)
    exact members_spend h (by simpa using ht)
  · next ht =>
    simp only [members, List.filter_append]
    rw [filter_ne_eq_self (l := l.granted) (by simpa using ht)]

theorem allPermits_give (l : Line) : (l.give false).allPermits = l.allPermits + 1 := by
  unfold give
  rw [if_neg Bool.false_ne_true]
  split
  · simp only [allPermits]
    omega
  · simp [allPermits, Nat.add_assoc]

theorem allPermits_join (l : Line) (closed : Bool) (t : Ticket) :
    (l.join closed t).allPermits = l.allPermits := by
  unfold join
  split
  · rfl
  · next h =>
    simp only [not_or] at h
    simp only [allPermits, List.length_append, List.length_singleton]
    omega

theorem allPermits_spend (h : l.members.Nodup) (ht : t ∈ l.granted) :
    (l.spend t).allPermits + 1 = l.allPermits := by
  have hg : l.granted.Nodup := (List.nodup_append.mp h).2.1
  have := (perm_cons_filter_ne hg ht).length_eq
  simp only [List.length_cons] at this
  simp only [allPermits, spend]
  omega

theorem allPermits_leave (h : l.members.Nodup) (t : Ticket) :
    (l.leave false t).allPermits = l.allPermits := by
  unfold leave
  split
  · next ht =>
    rw [allPermits_give]
    exact allPermits_spend h (by simpa using ht)
  · rfl

end Line

namespace Pool

variable {p p' : Pool} {e : PoolEvent} {t : Ticket} {j : Job}

/-- The tickets whose callers wait in line, watch a job, or were told an answer. -/
def callers (p : Pool) : List Ticket := p.members ++ (p.watching ++ p.answers.map Prod.fst)

/-- The tickets that wait in line, hold a worker, or had an operation started. -/
def claims (p : Pool) : List Ticket := p.members ++ (p.held.map Prod.fst ++ p.started.map Prod.fst)

/-- Every ticket is in one place at a time, and permits count idle workers. -/
structure Orderly (p : Pool) : Prop where
  callers_nodup : p.callers.Nodup
  claims_nodup : p.claims.Nodup
  callers_asked : ∀ t ∈ p.callers, t < p.asked
  claims_asked : ∀ t ∈ p.claims, t < p.asked
  runs_asked : ∀ t ∈ p.runs, t < p.asked
  jobs_nodup : (p.jobs.map Job.ticket).Nodup
  job_started : ∀ j ∈ p.jobs, j.ticket ∈ p.started.map Prod.fst
  permits_eq : p.closed = false → p.allPermits = p.idle.length

/-- The jobs of all other tickets. -/
def otherJobs (p : Pool) (t : Ticket) : List Job := p.jobs.filter fun j => j.ticket ≠ t

namespace Orderly

theorem members_nodup (h : p.Orderly) : p.members.Nodup := (List.nodup_append.mp h.callers_nodup).1

theorem watching_nodup (h : p.Orderly) : p.watching.Nodup :=
  (List.nodup_append.mp (List.nodup_append.mp h.callers_nodup).2.1).1

theorem held_nodup (h : p.Orderly) : (p.held.map Prod.fst).Nodup :=
  (List.nodup_append.mp (List.nodup_append.mp h.claims_nodup).2.1).1

/-- The jobs are the job of a ticket and all others. -/
theorem jobs_perm (h : p.Orderly) (hj : p.job? t = some j) : p.jobs.Perm (j :: p.otherJobs t) := by
  have := perm_cons_filter_key h.jobs_nodup (mem_jobs_of_job? hj)
  rwa [ticket_eq_of_job? hj] at this

/-- Changing the job of a ticket leaves all others alone. -/
theorem setJob_perm (h : p.Orderly) (hj : p.job? t = some j) (f : Job → Job) :
    (p.setJob t f).jobs.Perm (f j :: p.otherJobs t) := by
  have := map_key_perm f h.jobs_nodup (mem_jobs_of_job? hj)
  rwa [ticket_eq_of_job? hj] at this

/-- The workers that were handed out are that of a ticket and all others. -/
theorem held_perm {w : Worker} (h : p.Orderly) (hh : p.held? t = some w) :
    p.held.Perm ((t, w) :: p.held.filter fun h => h.1 ≠ t) := by
  obtain ⟨⟨t', w'⟩, hfind, rfl⟩ := Option.map_eq_some_iff.mp hh
  have ht : t' = t := by simpa using List.find?_some hfind
  subst ht
  exact perm_cons_filter_key h.held_nodup (List.mem_of_find?_eq_some hfind)

end Orderly

/-! ### One step -/

theorem mem_members : t ∈ p.members ↔ t ∈ p.queue ∨ t ∈ p.granted := List.mem_append

/-- A caller that leaves the line with an answer has changed its place. -/
theorem callers_leave (ho : p.Orderly) (ht : t ∈ p.members) (r : Outcome Json) :
    ((p.forget t).tell t r).callers.Perm p.callers := by
  have hleave := Line.members_leave ho.members_nodup p.closed t
  have hcons := perm_cons_filter_ne ho.members_nodup ht
  calc ((p.forget t).tell t r).callers
      = (p.toLine.leave p.closed t).members ++ (p.watching ++ t :: p.answers.map Prod.fst) := rfl
    _ ~ p.members.filter (· ≠ t) ++ (p.watching ++ t :: p.answers.map Prod.fst) :=
        hleave.append_right _
    _ ~ p.members.filter (· ≠ t) ++ t :: (p.watching ++ p.answers.map Prod.fst) :=
        .append_left _ List.perm_middle
    _ ~ t :: p.members.filter (· ≠ t) ++ (p.watching ++ p.answers.map Prod.fst) :=
        List.perm_middle
    _ ~ p.callers := hcons.symm.append_right _

/-- A caller that stops watching with an answer has changed its place. -/
theorem callers_learn (ho : p.Orderly) (ht : t ∈ p.watching) (r : Outcome Json) :
    ({ p with watching := p.watching.filter (· ≠ t) }.tell t r).callers.Perm p.callers := by
  have hcons := perm_cons_filter_ne ho.watching_nodup ht
  refine .append_left p.members ?_
  calc p.watching.filter (· ≠ t) ++ t :: p.answers.map Prod.fst
      ~ t :: p.watching.filter (· ≠ t) ++ p.answers.map Prod.fst := List.perm_middle
    _ ~ p.watching ++ p.answers.map Prod.fst := hcons.symm.append_right _

/-- Leaving the line gives up a claim. -/
theorem claims_leave (ho : p.Orderly) (t : Ticket) : (p.forget t).claims.Subperm p.claims :=
  ((Line.members_leave ho.members_nodup p.closed t).subperm.trans
    List.filter_sublist.subperm).append (List.Subperm.refl _)

/-- A ticket that takes a worker leaves the line for another place. -/
theorem members_take (ho : p.Orderly) (hg : t ∈ p.granted) (l : List Ticket) :
    ((p.toLine.spend t).members ++ t :: l).Perm (p.members ++ l) := by
  rw [Line.members_spend ho.members_nodup hg]
  have hcons := perm_cons_filter_ne ho.members_nodup (mem_members.mpr (.inr hg))
  exact List.perm_middle.trans (hcons.symm.append_right l)

/-- Giving a worker back lets nobody into the line. -/
theorem members_putBack (p : Pool) (w : Worker) : (p.putBack w).members.Perm p.members :=
  Line.members_give p.toLine p.closed

/-- What a step does to the places of the tickets: one ticket may be new, and some may leave. -/
theorem tickets_step (ho : p.Orderly) (h : p.Occurs e p') :
    ∃ new, (new = [] ∧ p'.asked = p.asked ∨ new = [p.asked] ∧ p'.asked = p.asked + 1) ∧
      p'.callers.Subperm (new ++ p.callers) ∧ p'.claims.Subperm (new ++ p.claims) := by
  cases h with
  | ask =>
    have hjoin := Line.members_join p.toLine p.closed p.asked
    exact ⟨[p.asked], .inr ⟨rfl, rfl⟩, (hjoin.append_right _).subperm,
      (hjoin.append_right _).subperm⟩
  | askRun =>
    have hjoin := Line.members_join p.toLine p.closed p.asked
    exact ⟨[p.asked], .inr ⟨rfl, rfl⟩, (hjoin.append_right _).subperm,
      (hjoin.append_right _).subperm⟩
  | askFired =>
    refine ⟨[p.asked], .inr ⟨rfl, rfl⟩, ?_, (List.sublist_cons_self _ _).subperm⟩
    exact ((List.perm_middle.append_left p.members).trans List.perm_middle).subperm
  | withdraw t =>
    refine ⟨[], .inl ⟨rfl, rfl⟩, ?_, claims_leave ho t⟩
    exact ((Line.members_leave ho.members_nodup p.closed t).subperm.trans
      List.filter_sublist.subperm).append (List.filter_sublist.append (.refl _)).subperm
  | takeFired hg _ =>
    exact ⟨[], .inl ⟨rfl, rfl⟩, (callers_leave ho (mem_members.mpr (.inr hg)) _).subperm,
      claims_leave ho _⟩
  | takeClosed hg _ _ =>
    exact ⟨[], .inl ⟨rfl, rfl⟩, (callers_leave ho (mem_members.mpr (.inr hg)) _).subperm,
      claims_leave ho _⟩
  | takeNothing hg _ _ _ =>
    exact ⟨[], .inl ⟨rfl, rfl⟩, (callers_leave ho (mem_members.mpr (.inr hg)) _).subperm,
      claims_leave ho _⟩
  | @takeRun t w idle hg _ _ _ _ =>
    refine ⟨[], .inl ⟨rfl, rfl⟩, (members_take ho hg _).subperm, ?_⟩
    refine (List.Perm.trans ?_ (members_take ho hg _)).subperm
    exact List.perm_middle.append_left _
  | takeHeld hg _ _ _ _ =>
    refine ⟨[], .inl ⟨rfl, rfl⟩, ?_, (members_take ho hg _).subperm⟩
    rw [List.nil_append, callers, callers, Line.members_spend ho.members_nodup hg]
    exact (List.filter_sublist.append (.refl _)).subperm
  | learnResult hw _ => exact ⟨[], .inl ⟨rfl, rfl⟩, (callers_learn ho hw _).subperm, .refl _⟩
  | learnLost hw _ _ => exact ⟨[], .inl ⟨rfl, rfl⟩, (callers_learn ho hw _).subperm, .refl _⟩
  | learnFired hw _ _ _ => exact ⟨[], .inl ⟨rfl, rfl⟩, (callers_learn ho hw _).subperm, .refl _⟩
  | learnWaiting _ hl _ =>
    exact ⟨[], .inl ⟨rfl, rfl⟩, (callers_leave ho (mem_members.mpr hl) _).subperm,
      claims_leave ho _⟩
  | finishOpen _ _ _ =>
    exact ⟨[], .inl ⟨rfl, rfl⟩, ((members_putBack _ _).append_right _).subperm,
      ((members_putBack _ _).append_right _).subperm⟩
  | builtOpen _ _ _ =>
    exact ⟨[], .inl ⟨rfl, rfl⟩, ((members_putBack _ _).append_right _).subperm,
      ((members_putBack _ _).append_right _).subperm⟩
  | releaseOpen _ _ =>
    refine ⟨[], .inl ⟨rfl, rfl⟩, ((members_putBack _ _).append_right _).subperm, ?_⟩
    refine ((members_putBack _ _).subperm).append (List.Sublist.subperm ?_)
    exact (List.filter_sublist.map _).append (.refl _)
  | releaseClosed _ _ =>
    refine ⟨[], .inl ⟨rfl, rfl⟩, .refl _, List.Sublist.subperm ?_⟩
    exact (List.Sublist.refl _).append ((List.filter_sublist.map _).append (.refl _))
  | _ => exact ⟨[], .inl ⟨rfl, rfl⟩, .refl _, .refl _⟩

/-- Operations that were started stay so. -/
theorem started_suffix (h : p.Occurs e p') : p.started <:+ p'.started := by
  cases h with
  | takeRun => exact List.suffix_cons _ _
  | _ => exact List.suffix_rfl

/-- Changing a job does not change the tickets of the jobs. -/
theorem map_ticket_setJob (p : Pool) (t : Ticket) {f : Job → Job}
    (hf : ∀ k, (f k).ticket = k.ticket) :
    (p.setJob t f).jobs.map Job.ticket = p.jobs.map Job.ticket := by
  simp only [setJob, List.map_map]
  refine List.map_congr_left fun k _ => ?_
  simp only [Function.comp_apply]
  split
  · exact hf k
  · rfl

/-- A step starts at most one job, for a ticket with a permit, and ends some. -/
theorem jobs_step (h : p.Occurs e p') :
    p'.jobs.map Job.ticket <+ p.jobs.map Job.ticket ∨
      ∃ t w, t ∈ p.granted ∧ p'.started = (t, w) :: p.started ∧
        p'.jobs.map Job.ticket = p.jobs.map Job.ticket ++ [t] := by
  have hset : ∀ (q : Pool) (t : Ticket) (f : Job → Job), (∀ k, (f k).ticket = k.ticket) →
      (q.setJob t f).jobs.map Job.ticket <+ q.jobs.map Job.ticket :=
    fun q t f hf => (map_ticket_setJob q t hf).symm ▸ .refl _
  have hend : ∀ q : Pool, ∀ t, (q.endJob t).jobs.map Job.ticket <+ q.jobs.map Job.ticket :=
    fun q t => List.filter_sublist.map _
  cases h with
  | @takeRun t w idle hg _ _ _ _ => exact .inr ⟨t, w, hg, rfl, by simp⟩
  | fireRunning => exact .inl (hset _ _ _ fun _ => rfl)
  | finishClosed => exact .inl (hset _ _ _ fun _ => rfl)
  | panic => exact .inl (hset _ _ _ fun _ => rfl)
  | expire => exact .inl (hset _ _ _ fun _ => rfl)
  | fireOwn => exact .inl (hset _ _ _ fun _ => rfl)
  | crash => exact .inl (hend _ _)
  | downOpen => exact .inl (hset _ _ _ fun _ => rfl)
  | builtClosed => exact .inl (hset _ _ _ fun _ => rfl)
  | finishOpen => exact .inl (hend _ _)
  | downReturning => exact .inl (hend _ _)
  | downClosed => exact .inl (hend _ _)
  | downDiscarding => exact .inl (hend _ _)
  | builtOpen => exact .inl (hend _ _)
  | builtNothing => exact .inl (hend _ _)
  | _ => exact .inl (.refl _)

/-- Only tickets that came ask for a run. -/
theorem runs_step (ho : p.Orderly) (h : p.Occurs e p') : ∀ t ∈ p'.runs, t < p'.asked := by
  have hold := ho.runs_asked
  cases h with
  | ask => exact fun t ht => Nat.lt_succ_of_lt (hold t ht)
  | askRun =>
    intro t ht
    rcases List.mem_cons.mp ht with rfl | ht
    · exact Nat.lt_succ_self _
    · exact Nat.lt_succ_of_lt (hold t ht)
  | askFired =>
    intro t ht
    rcases List.mem_cons.mp ht with rfl | ht
    · exact Nat.lt_succ_self _
    · exact Nat.lt_succ_of_lt (hold t ht)
  | _ => exact hold

/-- A pool that was closed stays closed. -/
theorem closed_step (h : p.Occurs e p') (hc : p'.closed = false) : p.closed = false := by
  cases h with
  | builtNothing => exact (Bool.or_eq_false_iff.mp hc).1
  | close => cases hc
  | _ => exact hc

/-- As long as a pool is open, permits count idle workers. -/
theorem permits_step (ho : p.Orderly) (h : p.Occurs e p') (hc : p'.closed = false) :
    p'.allPermits = p'.idle.length := by
  have hold := closed_step h hc
  have hp : p.allPermits = p.idle.length := ho.permits_eq hold
  have hgive : ∀ w, (p.toLine.give p.closed).allPermits = (w :: p.idle).length := fun w => by
    rw [hold, Line.allPermits_give, hp, List.length_cons]
  have hleave : ∀ t, (p.toLine.leave p.closed t).allPermits = p.idle.length := fun t => by
    rw [hold, Line.allPermits_leave ho.members_nodup, hp]
  have hspend : ∀ {t w idle}, t ∈ p.granted → p.idle = w :: idle →
      (p.toLine.spend t).allPermits = idle.length := fun hg hi => by
    have := Line.allPermits_spend ho.members_nodup hg
    rw [hp, hi, List.length_cons] at this
    exact Nat.succ.inj this
  cases h with
  | ask => exact (Line.allPermits_join _ _ _).trans hp
  | askRun => exact (Line.allPermits_join _ _ _).trans hp
  | withdraw t => exact hleave t
  | takeFired => exact hleave _
  | takeClosed => exact hleave _
  | takeNothing => exact hleave _
  | takeRun hg _ _ hi _ => exact hspend hg hi
  | takeHeld hg _ _ hi _ => exact hspend hg hi
  | learnWaiting => exact hleave _
  | finishOpen => exact hgive _
  | builtOpen => exact hgive _
  | releaseOpen => exact hgive _
  | close => cases hc
  | _ => exact hp

/-- Every step keeps the tickets in order. -/
theorem orderly_step (ho : p.Orderly) (h : p.Occurs e p') : p'.Orderly := by
  obtain ⟨new, hnew, hcallers, hclaims⟩ := tickets_step ho h
  -- The new ticket is larger than all others, so it is in no place yet.
  have hfresh : ∀ {l : List Ticket}, l.Nodup → (∀ t ∈ l, t < p.asked) →
      (new ++ l).Nodup ∧ ∀ t ∈ new ++ l, t < p'.asked := by
    intro l hl hlt
    rcases hnew with ⟨rfl, hasked⟩ | ⟨rfl, hasked⟩
    · exact ⟨hl, fun t ht => hasked ▸ hlt t ht⟩
    · refine ⟨List.nodup_cons.mpr ⟨fun hmem => Nat.lt_irrefl _ (hlt _ hmem), hl⟩, fun t ht => ?_⟩
      rw [hasked]
      rcases List.mem_cons.mp ht with rfl | ht
      · exact Nat.lt_succ_self _
      · exact Nat.lt_succ_of_lt (hlt t ht)
  obtain ⟨hcnodup, hclt⟩ := hfresh ho.callers_nodup ho.callers_asked
  obtain ⟨hmnodup, hmlt⟩ := hfresh ho.claims_nodup ho.claims_asked
  have hstarted : ∀ t ∈ p.started.map Prod.fst, t ∈ p'.started.map Prod.fst := fun t ht =>
    (((started_suffix h).map Prod.fst).subset) ht
  refine
    { callers_nodup := nodup_of_subperm hcallers hcnodup
      claims_nodup := nodup_of_subperm hclaims hmnodup
      callers_asked := fun t ht => hclt t (hcallers.subset ht)
      claims_asked := fun t ht => hmlt t (hclaims.subset ht)
      runs_asked := runs_step ho h
      jobs_nodup := ?_
      job_started := ?_
      permits_eq := permits_step ho h }
  · rcases jobs_step h with hsub | ⟨t, w, hg, -, heq⟩
    · exact hsub.nodup ho.jobs_nodup
    · rw [heq]
      refine List.nodup_append'.mpr ⟨ho.jobs_nodup, List.nodup_singleton t, ?_⟩
      rw [List.disjoint_singleton]
      intro hmem
      obtain ⟨k, hk, rfl⟩ := List.mem_map.mp hmem
      refine List.disjoint_of_nodup_append ho.claims_nodup (mem_members.mpr (.inr hg)) ?_
      exact List.mem_append_right _ (ho.job_started k hk)
  · intro k hk
    have hmem : k.ticket ∈ p'.jobs.map Job.ticket := List.mem_map_of_mem hk
    have hold : ∀ t ∈ p.jobs.map Job.ticket, t ∈ p'.started.map Prod.fst := fun t ht => by
      obtain ⟨i, hi, rfl⟩ := List.mem_map.mp ht
      exact hstarted _ (ho.job_started i hi)
    rcases jobs_step h with hsub | ⟨t, w, -, hstart, heq⟩
    · exact hold _ (hsub.subset hmem)
    · rw [heq] at hmem
      rcases List.mem_append.mp hmem with hmem | hmem
      · exact hold _ hmem
      · rw [hstart]
        simp [List.mem_singleton.mp hmem]

/-- A pool of idle workers is orderly. -/
theorem orderly_opened (name : String) (grace now : Nat) (workers : List Worker)
    (nextSerial : Nat) : (opened name grace now workers nextSerial).Orderly where
  callers_nodup := List.nodup_nil
  claims_nodup := List.nodup_nil
  callers_asked := nofun
  claims_asked := nofun
  runs_asked := nofun
  jobs_nodup := List.nodup_nil
  job_started := nofun
  permits_eq := fun _ => by simp [opened, Line.allPermits]

end Pool

end LanguageHost
