import LanguageHost.Proofs.Pool.Tickets

/-!
# What the holders of workers have

Workers are held by the pool itself, which keeps the idle ones, by tickets that were handed one, and
by jobs.  `gathered f g` collects something from all of them: `f` from each worker that is idle or
was handed out, `g` from each job.  A step concerns one holder, and the lemmas here take what that
holder has out of the collection: `gathered_endJob` and `gathered_setJob` for a job, with
`flatMap_endJob` and `flatMap_setJob` for the jobs alone, and `gathered_held` for a ticket.
-/

open scoped List

namespace LanguageHost

namespace Pool

variable {α : Type} {f : Worker → α} {g : Job → List α}
variable {p : Pool} {t : Ticket} {j : Job} {w : Worker}

/-- Something of every worker that is idle or was handed out, and of every job. -/
def gathered (f : Worker → α) (g : Job → List α) (p : Pool) : List α :=
  p.idle.map f ++ (p.held.map (fun h => f h.2) ++ p.jobs.flatMap g)

/-- Taking a part out of the middle. -/
theorem perm_append_middle (a b c s : List α) : (a ++ (b ++ (s ++ c))) ~ s ++ (a ++ (b ++ c)) := by
  calc a ++ (b ++ (s ++ c))
      = (a ++ b) ++ (s ++ c) := (List.append_assoc _ _ _).symm
    _ = (a ++ b) ++ s ++ c := (List.append_assoc _ _ _).symm
    _ ~ s ++ (a ++ b) ++ c := List.perm_append_comm.append_right c
    _ = s ++ (a ++ (b ++ c)) := by rw [List.append_assoc, List.append_assoc]

/-! ### Jobs -/

/-- What a job has goes when it ends. -/
theorem flatMap_endJob (ho : p.Orderly) (hj : p.job? t = some j) :
    p.jobs.flatMap g ~ g j ++ (p.endJob t).jobs.flatMap g :=
  (ho.jobs_perm hj).flatMap_right _

/-- Changing a job changes what that job has. -/
theorem flatMap_setJob (ho : p.Orderly) (hj : p.job? t = some j) (c : Job → Job) :
    (p.setJob t c).jobs.flatMap g ~ g (c j) ++ (p.endJob t).jobs.flatMap g :=
  (ho.setJob_perm hj c).flatMap_right _

/-! ### All holders -/

theorem gathered_endJob (ho : p.Orderly) (hj : p.job? t = some j) :
    p.gathered f g ~ g j ++ (p.endJob t).gathered f g :=
  (((flatMap_endJob ho hj).append_left _).append_left _).trans (perm_append_middle _ _ _ _)

theorem gathered_setJob (ho : p.Orderly) (hj : p.job? t = some j) (c : Job → Job) :
    (p.setJob t c).gathered f g ~ g (c j) ++ (p.endJob t).gathered f g :=
  (((flatMap_setJob ho hj c).append_left _).append_left _).trans (perm_append_middle _ _ _ _)

/-- A job that has the same afterwards takes nothing from the others. -/
theorem gathered_setJob_of_eq (ho : p.Orderly) (hj : p.job? t = some j) {c : Job → Job}
    (hc : g (c j) = g j) : p.gathered f g ~ (p.setJob t c).gathered f g :=
  (gathered_endJob ho hj).trans (hc ▸ (gathered_setJob ho hj c).symm)

/-- A job that has nothing afterwards has given up what it had. -/
theorem gathered_setJob_of_nil (ho : p.Orderly) (hj : p.job? t = some j) {c : Job → Job}
    (hc : g (c j) = []) : p.gathered f g ~ g j ++ (p.setJob t c).gathered f g := by
  have hset := gathered_setJob (f := f) (g := g) ho hj c
  rw [hc, List.nil_append] at hset
  exact (gathered_endJob ho hj).trans (hset.symm.append_left _)

/-- What a ticket has that was handed a worker goes when the worker is released. -/
theorem gathered_held (ho : p.Orderly) (hh : p.held? t = some w) :
    p.gathered f g ~ f w :: { p with held := p.held.filter fun h => h.1 ≠ t }.gathered f g := by
  have hheld : p.held.map (fun h => f h.2) ~
      f w :: (p.held.filter fun h => h.1 ≠ t).map (fun h => f h.2) := (ho.held_perm hh).map _
  exact ((hheld.append_right _).append_left _).trans List.perm_middle

/-- A worker that is handed out takes along what the pool had of it. -/
theorem gathered_takeHeld {idle : List Worker} (hi : p.idle = w :: idle) (l : Line) :
    p.gathered f g ~
      { p with idle, toLine := l, held := (t, w) :: p.held }.gathered f g := by
  simp only [gathered, hi, List.map_cons, List.cons_append]
  exact List.perm_middle.symm

/-- A new job takes along what the pool had of its worker. -/
theorem gathered_takeRun {idle : List Worker} (hi : p.idle = w :: idle) (hg : g j = [f w]) :
    p.gathered f g ~ { p with idle, jobs := p.jobs ++ [j] }.gathered f g := by
  have hjobs : (p.jobs ++ [j]).flatMap g = p.jobs.flatMap g ++ [f w] := by
    rw [List.flatMap_append, List.flatMap_singleton, hg]
  simp only [gathered, hi, hjobs, List.map_cons, List.cons_append]
  rw [← List.append_assoc, ← List.append_assoc, ← List.append_assoc]
  exact (List.perm_append_singleton _ _).symm

end Pool

end LanguageHost
