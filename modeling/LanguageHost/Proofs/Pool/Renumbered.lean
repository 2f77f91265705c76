import LanguageHost.Proofs.Pool.CallerSide

/-!
# Tickets under other numbers

Tickets are numbered in the order in which they come, so a request that is never made moves all
later ones up.  `past t` is the renumbering that leaves the number `t` out.  A pool whose tickets
are renumbered so does the same as before by events that are renumbered in the same way
(`step_shifted`): nothing in a pool depends on the numbers but which of them are the same.
-/

namespace LanguageHost

/-- The number of a ticket if another request had been made as number `t`. -/
def past (t u : Nat) : Nat := if u < t then u else u + 1

theorem past_ne (t u : Nat) : past t u ≠ t := by
  unfold past
  split <;> omega

theorem past_of_le {t u : Nat} (h : t ≤ u) : past t u = u + 1 := if_neg (Nat.not_lt.mpr h)

theorem past_of_lt {t u : Nat} (h : u < t) : past t u = u := if_pos h

theorem past_injective (t : Nat) : Function.Injective (past t) := by
  intro u v h
  unfold past at h
  split at h <;> split at h <;> omega

theorem past_inj {t u v : Nat} : past t u = past t v ↔ u = v := (past_injective t).eq_iff

theorem exists_past {t u : Nat} (h : u ≠ t) : ∃ v, past t v = u := by
  by_cases hlt : u < t
  · exact ⟨u, past_of_lt hlt⟩
  · refine ⟨u - 1, ?_⟩
    rw [past_of_le (by omega)]
    omega

theorem past_lt_succ {t u n : Nat} (h : u < n) : past t u < n + 1 := by
  unfold past
  split <;> omega

theorem past_lt_past {t u v : Nat} (h : u < v) : past t u < past t v := by
  unfold past
  split <;> split <;> omega

def Job.shifted (t : Ticket) (j : Job) : Job := { j with ticket := past t j.ticket }

/-- An entry of a list that is kept by tickets. -/
def shiftKey {α : Type} (t : Ticket) (a : Ticket × α) : Ticket × α := (past t a.1, a.2)

def Line.shifted (t : Ticket) (l : Line) : Line :=
  { l with queue := l.queue.map (past t), granted := l.granted.map (past t) }

def PoolEvent.shifted (t : Ticket) : PoolEvent → PoolEvent
  | .ask => .ask
  | .askRun fired => .askRun fired
  | .fire u => .fire (past t u)
  | .withdraw u => .withdraw (past t u)
  | .take u => .take (past t u)
  | .learn u => .learn (past t u)
  | .finish u r => .finish (past t u) r
  | .panic u => .panic (past t u)
  | .crash u => .crash (past t u)
  | .fireOwn u => .fireOwn (past t u)
  | .expire u => .expire (past t u)
  | .jobDown u => .jobDown (past t u)
  | .built u made => .built (past t u) made
  | .release u => .release (past t u)
  | .released u => .released (past t u)
  | .abandonRelease u => .abandonRelease (past t u)
  | .close => .close
  | .closedOne => .closedOne
  | .abandonClose => .abandonClose
  | .wait time => .wait time

namespace Pool

variable {p q q' : Pool} {e : PoolEvent} {es : List PoolEvent} {t u : Ticket}

/-- The pool if another request had been made as number `t`, and nothing had come of it. -/
def shifted (t : Ticket) (p : Pool) : Pool :=
  { p with
    toLine := p.toLine.shifted t, asked := p.asked + 1, runs := p.runs.map (past t)
    fired := p.fired.map (past t), ownFired := p.ownFired.map (past t)
    held := p.held.map (shiftKey t), jobs := p.jobs.map (.shifted t)
    started := p.started.map (shiftKey t), watching := p.watching.map (past t)
    sent := p.sent.map (shiftKey t), answers := p.answers.map (shiftKey t)
    discards := p.discards.map (shiftKey t) }

/-! ### Lists of tickets -/

theorem contains_map_past (t u : Ticket) (l : List Ticket) :
    (l.map (past t)).contains (past t u) = l.contains u := by
  rw [List.contains_eq_mem, List.contains_eq_mem, decide_eq_decide,
    List.mem_map_of_injective (past_injective t)]

theorem filter_map_past (t u : Ticket) (l : List Ticket) :
    (l.map (past t)).filter (· ≠ past t u) = (l.filter (· ≠ u)).map (past t) := by
  simp only [List.filter_map, Function.comp_def, past_inj, ne_eq]

theorem filter_map_shiftKey {α : Type} (t u : Ticket) (l : List (Ticket × α)) :
    (l.map (shiftKey t)).filter (fun a => a.1 ≠ past t u) =
      (l.filter fun a => a.1 ≠ u).map (shiftKey t) := by
  simp only [List.filter_map, Function.comp_def, shiftKey, past_inj, ne_eq]

theorem find?_map_shiftKey {α : Type} (t u : Ticket) (l : List (Ticket × α)) :
    ((l.map (shiftKey t)).find? fun a => a.1 = past t u).map Prod.snd =
      (l.find? fun a => a.1 = u).map Prod.snd := by
  simp only [List.find?_map, Function.comp_def, shiftKey, past_inj, Option.map_map]

theorem job?_shifted (p : Pool) (t u : Ticket) :
    (p.shifted t).job? (past t u) = (p.job? u).map (.shifted t) := by
  simp only [job?, shifted, List.find?_map, Function.comp_def, Job.shifted, past_inj]

theorem sent?_shifted (p : Pool) (t u : Ticket) :
    (p.shifted t).sent? (past t u) = p.sent? u := find?_map_shiftKey t u p.sent

theorem answer?_shifted (p : Pool) (t u : Ticket) :
    (p.shifted t).answer? (past t u) = p.answer? u := find?_map_shiftKey t u p.answers

theorem held?_shifted (p : Pool) (t u : Ticket) :
    (p.shifted t).held? (past t u) = p.held? u := find?_map_shiftKey t u p.held

theorem hasFired_shifted (p : Pool) (t u : Ticket) :
    (p.shifted t).hasFired (past t u) = p.hasFired u := by
  simp only [hasFired, shifted, contains_map_past]

/-! ### Lines -/

theorem give_shifted (l : Line) (closed : Bool) :
    (l.shifted t).give closed = (l.give closed).shifted t := by
  unfold Line.give
  split
  · rfl
  · cases hq : l.queue with
    | nil => simp [Line.shifted, hq]
    | cons u queue => simp [Line.shifted, hq]

theorem join_shifted (l : Line) (closed : Bool) (u : Ticket) :
    (l.shifted t).join closed (past t u) = (l.join closed u).shifted t := by
  unfold Line.join
  show (if closed ∨ l.permits = 0 then _ else _) =
    Line.shifted t (if closed ∨ l.permits = 0 then _ else _)
  split <;> simp [Line.shifted]

theorem spend_shifted (l : Line) (u : Ticket) :
    (l.shifted t).spend (past t u) = (l.spend u).shifted t := by
  simp only [Line.spend, Line.shifted, filter_map_past]

theorem leave_shifted (l : Line) (closed : Bool) (u : Ticket) :
    (l.shifted t).leave closed (past t u) = (l.leave closed u).shifted t := by
  unfold Line.leave
  simp only [Line.shifted, contains_map_past, filter_map_past]
  split
  · exact give_shifted { l with granted := l.granted.filter (· ≠ u) } closed
  · rfl

/-! ### Steps -/

theorem forget_shifted (p : Pool) (t u : Ticket) :
    (p.shifted t).forget (past t u) = (p.forget u).shifted t := by
  simp only [forget, shifted, leave_shifted]

theorem take_shifted (p : Pool) (t u : Ticket) :
    (p.shifted t).take (past t u) = (p.take u).shifted t := by
  have hruns : (p.shifted t).runs.contains (past t u) = p.runs.contains u :=
    contains_map_past t u p.runs
  have hclosed : (p.shifted t).closed = p.closed := rfl
  have hidle : (p.shifted t).idle = p.idle := rfl
  simp only [take, hasFired_shifted, forget_shifted, hruns, hclosed, hidle]
  split
  · rfl
  · split
    · rfl
    · cases p.idle with
      | nil => rfl
      | cons w idle =>
        show (if p.runs.contains u then _ else _) = shifted t (if p.runs.contains u then _ else _)
        split
        · simp only [shifted, spend_shifted, List.map_append, List.map_cons, List.map_nil]
          rfl
        · simp only [shifted, spend_shifted, List.map_cons]
          rfl

theorem endJob_shifted (p : Pool) (t u : Ticket) :
    (p.shifted t).endJob (past t u) = (p.endJob u).shifted t := by
  have hfilter : (p.jobs.map (Job.shifted t)).filter (fun j => j.ticket ≠ past t u) =
      (p.jobs.filter fun j => j.ticket ≠ u).map (Job.shifted t) := by
    simp only [List.filter_map, Function.comp_def, Job.shifted, past_inj, ne_eq]
  simp only [endJob, shifted, hfilter]

theorem setJob_shifted (p : Pool) (t u : Ticket) {f : Job → Job}
    (hf : ∀ j, f (j.shifted t) = (f j).shifted t) :
    (p.shifted t).setJob (past t u) f = (p.setJob u f).shifted t := by
  have hmap : (p.jobs.map (Job.shifted t)).map (fun j => if j.ticket = past t u then f j else j) =
      (p.jobs.map fun j => if j.ticket = u then f j else j).map (Job.shifted t) := by
    simp only [List.map_map]
    refine List.map_congr_left fun j _ => ?_
    simp only [Function.comp_apply, hf]
    by_cases h : j.ticket = u
    · simp [h, Job.shifted]
    · simp [h, Job.shifted, past_inj]
  simp only [setJob, shifted, hmap]

theorem putBack_shifted (p : Pool) (t : Ticket) (w : Worker) :
    (p.shifted t).putBack w = (p.putBack w).shifted t := by
  simp only [putBack, addPermit, shifted, give_shifted]

theorem finish_shifted (p : Pool) (t : Ticket) (j : Job) (r : Outcome Json) :
    (p.shifted t).finish (j.shifted t) r = (p.finish j r).shifted t := by
  show (if p.closed then _ else _) = shifted t (if p.closed then _ else _)
  split
  · exact setJob_shifted ((p.dropLive 1).retire j.worker) t j.ticket fun _ => rfl
  · show (((p.shifted t).endJob (past t j.ticket)).putBack j.worker).send (past t j.ticket) r = _
    rw [endJob_shifted, putBack_shifted]
    rfl

theorem giveUp_shifted (p : Pool) (t : Ticket) (j : Job) (err : HostError) :
    (p.shifted t).giveUp (j.shifted t) err = (p.giveUp j err).shifted t :=
  setJob_shifted ((p.send j.ticket (.error err)).retire j.worker) t j.ticket fun _ => rfl

theorem jobDown_shifted (p : Pool) (t : Ticket) (j : Job) :
    (p.shifted t).jobDown (j.shifted t) = (p.jobDown j).map (shifted t) := by
  obtain ⟨u, w, phase⟩ := j
  cases phase with
  | returning r =>
    exact congrArg (fun q : Pool => some (q.send (past t u) r)) (endJob_shifted p t u)
  | retiring =>
    show (if p.closed then _ else _) = Option.map _ (if p.closed then _ else _)
    split
    · let q : Pool := { p with replaced := p.replaced + 1 }
      exact congrArg some (endJob_shifted (q.dropLive 1) t u)
    · exact congrArg some (setJob_shifted { p with replaced := p.replaced + 1 } t u fun _ => rfl)
  | discarding => exact congrArg some (endJob_shifted p t u)
  | _ => rfl

theorem builtWorker_shifted (p : Pool) (t : Ticket) (j : Job) :
    (p.shifted t).builtWorker (j.shifted t) = (p.builtWorker j).shifted t := by
  let w : Worker := ⟨j.worker.slot, p.nextSerial⟩
  let q : Pool := { p with nextSerial := p.nextSerial + 1, made := p.made ++ [w] }
  show (if p.closed then _ else _) = shifted t (if p.closed then _ else _)
  split
  · exact setJob_shifted ((q.dropLive 1).retire w) t j.ticket fun _ => rfl
  · show ((q.shifted t).endJob (past t j.ticket)).putBack w = _
    rw [endJob_shifted, putBack_shifted]

theorem builtNothing_shifted (p : Pool) (t : Ticket) (j : Job) :
    (p.shifted t).builtNothing (j.shifted t) = (p.builtNothing j).shifted t :=
  congrArg shrink (endJob_shifted { p with nextSerial := p.nextSerial + 1 } t j.ticket)

theorem release_shifted (p : Pool) (t u : Ticket) (w : Worker) :
    (p.shifted t).release (past t u) w = (p.release u w).shifted t := by
  have hheld : (p.held.map (shiftKey t)).filter (fun h => h.1 ≠ past t u) =
      (p.held.filter fun h => h.1 ≠ u).map (shiftKey t) := filter_map_shiftKey t u p.held
  show (if p.closed then _ else _) = shifted t (if p.closed then _ else _)
  split
  · simp only [shifted, retire, dropLive, hheld, List.map_append]
    rfl
  · simp only [putBack, addPermit, shifted, give_shifted, hheld]

theorem watching_shifted (p : Pool) (t u : Ticket) :
    (p.shifted t).watching.contains (past t u) = p.watching.contains u :=
  contains_map_past t u p.watching

theorem canLearn_shifted (p : Pool) (t u : Ticket) :
    (p.shifted t).canLearn (past t u) = p.canLearn u := by
  have hqueue : (p.shifted t).queue.contains (past t u) = p.queue.contains u :=
    contains_map_past t u p.queue
  have hgranted : (p.shifted t).granted.contains (past t u) = p.granted.contains u :=
    contains_map_past t u p.granted
  have hclosed : (p.shifted t).closed = p.closed := rfl
  simp only [canLearn, hqueue, hgranted, hclosed, watching_shifted, hasFired_shifted,
    sent?_shifted, job?_shifted, Option.isNone_map]

theorem unwatch_shifted (p : Pool) (t u : Ticket) :
    { p.shifted t with watching := (p.shifted t).watching.filter (· ≠ past t u) } =
      ({ p with watching := p.watching.filter (· ≠ u) } : Pool).shifted t := by
  simp only [shifted, filter_map_past]

theorem learn_shifted (p : Pool) (t u : Ticket) :
    (p.shifted t).learn (past t u) = (p.learn u).shifted t := by
  simp only [learn, watching_shifted, sent?_shifted, job?_shifted, Option.isNone_map,
    forget_shifted, hasFired_shifted, unwatch_shifted]
  split
  · cases p.sent? u <;> rfl
  · rfl

theorem line_shifted (p : Pool) (t u : Ticket) :
    (p.shifted t).line (past t u) = (p.line u).shifted t := by
  simp only [line, shifted, join_shifted]

theorem discards_any_shifted (p : Pool) (t u : Ticket) :
    ((p.shifted t).discards.any fun d => d.1 = past t u) = p.discards.any fun d => d.1 = u := by
  simp only [shifted, List.any_map, Function.comp_def, shiftKey, past_inj]

theorem discards_filter_shifted (p : Pool) (t u : Ticket) :
    ((p.shifted t).discards.filter fun d => d.1 ≠ past t u) =
      (p.discards.filter fun d => d.1 ≠ u).map (shiftKey t) :=
  filter_map_shiftKey t u p.discards

theorem step_askRun_shifted (h : t ≤ p.asked) (fired : Bool) :
    (p.shifted t).step (.askRun fired) = (p.step (.askRun fired)).map (shifted t) := by
  have hasked : p.asked + 1 = past t p.asked := (past_of_le h).symm
  cases fired with
  | false =>
    let q : Pool := { p with asked := p.asked + 1, runs := p.asked :: p.runs }
    have hline : ({ p.shifted t with
          asked := p.asked + 1 + 1, runs := past t p.asked :: p.runs.map (past t) } : Pool).line
        (past t p.asked) = (q.line p.asked).shifted t := line_shifted q t p.asked
    rw [← hasked] at hline
    exact congrArg some hline
  | true =>
    simp only [step, if_true, Option.map_some, tell, shifted, List.map_cons, shiftKey, ← hasked]

theorem step_fire_shifted (u : Ticket) :
    (p.shifted t).step (.fire (past t u)) = (p.step (.fire u)).map (shifted t) := by
  have hruns : (p.shifted t).runs.contains (past t u) = p.runs.contains u :=
    contains_map_past t u p.runs
  have hfired : (p.shifted t).fired.contains (past t u) = p.fired.contains u :=
    contains_map_past t u p.fired
  let q : Pool := { p with fired := u :: p.fired }
  simp only [step, hruns, hfired]
  split
  · rfl
  · simp only [job?_with_fired, job?_shifted]
    cases p.job? u with
    | none => rfl
    | some j =>
      obtain ⟨v, w, phase⟩ := j
      cases phase with
      | running => exact congrArg some (setJob_shifted q t u fun _ => rfl)
      | _ => rfl

theorem step_fireOwn_shifted (u : Ticket) :
    (p.shifted t).step (.fireOwn (past t u)) = (p.step (.fireOwn u)).map (shifted t) := by
  let q : Pool := { p with ownFired := u :: p.ownFired }
  simp only [step, job?_shifted]
  cases p.job? u with
  | none => rfl
  | some j =>
    obtain ⟨v, w, phase⟩ := j
    cases phase with
    | running => exact congrArg some (setJob_shifted q t u fun _ => rfl)
    | _ => rfl

theorem step_expire_shifted (u : Ticket) :
    (p.shifted t).step (.expire (past t u)) = (p.step (.expire u)).map (shifted t) := by
  simp only [step, job?_shifted]
  cases p.job? u with
  | none => rfl
  | some j =>
    obtain ⟨v, w, phase⟩ := j
    cases phase with
    | winding d =>
      show (if d ≤ p.now then
          some ((p.shifted t).giveUp (Job.shifted t ⟨v, w, .winding d⟩) .operationCancelled)
        else none) = Option.map _ (if d ≤ p.now then
          some (p.giveUp ⟨v, w, .winding d⟩ .operationCancelled) else none)
      rw [giveUp_shifted]
      split <;> rfl
    | _ => rfl

theorem step_built_shifted (u : Ticket) (made : Bool) :
    (p.shifted t).step (.built (past t u) made) = (p.step (.built u made)).map (shifted t) := by
  simp only [step, job?_shifted]
  cases p.job? u with
  | none => rfl
  | some j =>
    obtain ⟨v, w, phase⟩ := j
    cases phase with
    | rebuilding =>
      cases made with
      | true => exact congrArg some (builtWorker_shifted p t ⟨v, w, .rebuilding⟩)
      | false => exact congrArg some (builtNothing_shifted p t ⟨v, w, .rebuilding⟩)
    | _ => rfl

/-- Nothing depends on the numbers of tickets. -/
theorem step_shifted (h : t ≤ p.asked) (e : PoolEvent) :
    (p.shifted t).step (e.shifted t) = (p.step e).map (shifted t) := by
  cases e with
  | ask =>
    have hline := line_shifted { p with asked := p.asked + 1 } t p.asked
    rw [past_of_le h] at hline
    exact congrArg some hline
  | askRun fired => exact step_askRun_shifted h fired
  | fire u => exact step_fire_shifted u
  | withdraw u =>
    show some ({ (p.shifted t).forget (past t u) with
      watching := (p.watching.map (past t)).filter (· ≠ past t u) } : Pool) = _
    rw [forget_shifted, filter_map_past]
    rfl
  | take u =>
    have hgranted : (p.shifted t).granted.contains (past t u) = p.granted.contains u :=
      contains_map_past t u p.granted
    simp only [PoolEvent.shifted, step, hgranted, take_shifted]
    split <;> rfl
  | learn u =>
    simp only [PoolEvent.shifted, step, canLearn_shifted, learn_shifted]
    split <;> rfl
  | finish u r =>
    simp only [PoolEvent.shifted, step, job?_shifted]
    cases p.job? u with
    | none => rfl
    | some j =>
      show (if j.phase.operating then some ((p.shifted t).finish (j.shifted t) r) else none) =
        Option.map _ (if j.phase.operating then some (p.finish j r) else none)
      rw [finish_shifted]
      split <;> rfl
  | panic u =>
    simp only [PoolEvent.shifted, step, job?_shifted]
    cases p.job? u with
    | none => rfl
    | some j =>
      show (if j.phase.operating then some ((p.shifted t).giveUp (j.shifted t) p.panicError)
          else none) =
        Option.map _ (if j.phase.operating then some (p.giveUp j p.panicError) else none)
      rw [giveUp_shifted]
      split <;> rfl
  | crash u =>
    simp only [PoolEvent.shifted, step, job?_shifted]
    cases p.job? u with
    | none => rfl
    | some j =>
      show (if j.phase.operating then some (((p.shifted t).endJob (past t u)).lose j.worker)
          else none) =
        Option.map _ (if j.phase.operating then some ((p.endJob u).lose j.worker) else none)
      rw [endJob_shifted]
      split <;> rfl
  | fireOwn u => exact step_fireOwn_shifted u
  | expire u => exact step_expire_shifted u
  | jobDown u =>
    simp only [PoolEvent.shifted, step, job?_shifted]
    cases p.job? u with
    | none => rfl
    | some j => exact jobDown_shifted p t j
  | built u made => exact step_built_shifted u made
  | release u =>
    simp only [PoolEvent.shifted, step, held?_shifted]
    cases p.held? u with
    | none => rfl
    | some w => exact congrArg some (release_shifted p t u w)
  | released u =>
    simp only [PoolEvent.shifted, step, discards_any_shifted, discards_filter_shifted]
    split <;> rfl
  | abandonRelease u =>
    simp only [PoolEvent.shifted, step, discards_any_shifted, discards_filter_shifted]
    split <;> rfl
  | close =>
    show some (if p.closed then _ else _) = some (shifted t (if p.closed then _ else _))
    split <;> rfl
  | closedOne =>
    have hclosing : (p.shifted t).closing = p.closing := rfl
    simp only [PoolEvent.shifted, step, hclosing]
    cases p.closing <;> rfl
  | abandonClose => rfl
  | wait time =>
    show (if p.now ≤ time then _ else none) = Option.map _ (if p.now ≤ time then _ else none)
    split <;> rfl

end Pool

end LanguageHost
