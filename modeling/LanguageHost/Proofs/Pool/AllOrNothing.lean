import LanguageHost.Pool.Session
import LanguageHost.Proofs.Pool.Start

/-!
# Pools start with all of their workers or with none

Starting a pool asks for one thing after the other: a worker is made, and another one, and if one
cannot be made, those that were made are shut down.  With the supply of the workers given, a start
takes its course (`Startup.play`), and what remains to be said is which calls it makes and how it
ends (`Supply.start_all_or_nothing`).

Where there is no room for so many workers the program breaks down before the first one is asked
for, also if that one could not have been made (`Supply.broken_down_before_first_failure`).

The course has two stretches, with a lemma for each.  `play_building_of_made` goes through the
slots as long as their workers are made, and `play_undoing` through the workers that are shut down,
whatever comes of that.  The first slot whose worker cannot be made is where the one stretch ends
and the other one begins.

Sessions start their pools in the same way, with the supply that their plan describes
(`PoolSession.begin_of_describes`).
-/

namespace LanguageHost

/-- The calls for the workers of the first slots, in the order of the slots. -/
def makes (n : Nat) : List StartupCall := (List.range n).map .make

theorem makes_succ (n : Nat) : makes (n + 1) = makes n ++ [.make n] := by
  simp [makes, List.range_succ]

namespace Startup

variable {supply : Supply} {calls : List StartupCall} {s : Startup} {cause : HostError}
variable {room : Room} {name : String} {n grace i m now : Nat} {left : List Worker}

theorem play_of_call?_eq_none (h : s.call? = none) : s.play supply m calls = (calls, s) := by
  cases m with
  | zero => rfl
  | succ m =>
    unfold play
    rw [h]

/-- A worker is made, and the next slot is up, if there is one. -/
theorem play_building_succ (h : supply.answer (makes i) (.make i) = .ok ()) :
    (building name n grace i).play supply (m + 1) (makes i) =
      play supply m (makes (i + 1))
        { building name n grace (i + 1) with
          phase := if i + 1 < n then .building else .ready } := by
  have hcall : (building name n grace i).call? = some (.make i) := by
    simp [call?, building]
  have hstep : (building name n grace i).step .made = some { building name n grace (i + 1) with
      phase := if i + 1 < n then .building else .ready } := step_made rfl rfl
  rw [play, hcall]
  simp only [h, StartupCall.event, hstep, Option.getD_some, makes_succ]

/-- As long as workers are made, one slot comes up after the other. -/
theorem play_building_of_made (hi : i < n)
    (h : ∀ j < i, supply.answer (makes j) (.make j) = .ok ()) :
    (building name n grace 0).play supply (i + m) [] =
      (building name n grace i).play supply m (makes i) := by
  induction i generalizing m with
  | zero =>
    rw [Nat.zero_add]
    rfl
  | succ i ih =>
    have hbefore : ∀ j < i, supply.answer (makes j) (.make j) = .ok () :=
      fun j hj => h j (Nat.lt_succ_of_lt hj)
    have hfuel : i + 1 + m = i + (m + 1) := by omega
    rw [hfuel, ih (Nat.lt_of_succ_lt hi) hbefore, play_building_succ (h i (Nat.lt_succ_self i)),
      if_pos hi]
    rfl

/-- The last worker is made, and the start is ready. -/
theorem play_building_last (h : supply.answer (makes i) (.make i) = .ok ()) :
    (building name (i + 1) grace i).play supply (m + 1) (makes i) =
      (makes (i + 1), { building name (i + 1) grace (i + 1) with phase := .ready }) := by
  rw [play_building_succ h, if_neg (Nat.lt_irrefl _), play_of_call?_eq_none rfl]

/-- What is left to be shut down, which may be nothing, is shut down in order, whatever comes of
it. -/
theorem play_undoing (supply : Supply) (m : Nat) (calls : List StartupCall)
    (hp : s.phase = if left.isEmpty then .failed cause else .undoing cause left) :
    ∃ s', s.play supply (left.length + m) calls = (calls ++ left.map .shutDown, s') ∧
      s'.phase = .failed cause := by
  induction left generalizing s calls with
  | nil =>
    have hphase : s.phase = .failed cause := hp
    have hcall : s.call? = none := by rw [call?, hphase]
    refine ⟨s, ?_, hphase⟩
    rw [play_of_call?_eq_none hcall, List.map_nil, List.append_nil]
  | cons w left ih =>
    have hphase : s.phase = .undoing cause (w :: left) := hp
    have hcall : s.call? = some (.shutDown w) := by rw [call?, hphase]
    have hstep : s.step .down = some { s with
        retired := s.retired ++ [w]
        phase := if left.isEmpty then .failed cause else .undoing cause left } := by
      simp only [step, hphase]
    have hfuel : (w :: left).length + m = left.length + m + 1 := by
      rw [List.length_cons]
      omega
    rw [hfuel, play, hcall]
    simp only [StartupCall.event, hstep, Option.getD_some]
    obtain ⟨s', hplay, hfailed⟩ := ih (calls ++ [.shutDown w]) (s := { s with
      retired := s.retired ++ [w]
      phase := if left.isEmpty then .failed cause else .undoing cause left }) rfl
    refine ⟨s', ?_, hfailed⟩
    rw [hplay, List.map_cons, List.append_assoc]
    rfl

/-- A worker cannot be made, and all that were made before it are shut down. -/
theorem play_building_of_unmade (name : String) (n grace m : Nat)
    (h : supply.answer (makes i) (.make i) = .error cause) :
    ∃ s', (building name n grace i).play supply (i + m + 1) (makes i) =
      (makes (i + 1) ++ (firstWorkers i).map .shutDown, s') ∧ s'.phase = .failed cause := by
  have hcall : (building name n grace i).call? = some (.make i) := by
    simp [call?, building]
  have hstep : (building name n grace i).step (.unmade cause) = some { building name n grace i with
      nextSerial := i + 1
      phase := if (firstWorkers i).isEmpty then .failed cause
        else .undoing cause (firstWorkers i) } := rfl
  rw [play, hcall]
  simp only [h, StartupCall.event, hstep, Option.getD_some]
  have hundo := play_undoing supply m (makes (i + 1)) (s := { building name n grace i with
    nextSerial := i + 1
    phase := if (firstWorkers i).isEmpty then .failed cause
      else .undoing cause (firstWorkers i) }) rfl
  rw [length_firstWorkers] at hundo
  rw [← makes_succ]
  exact hundo

end Startup

namespace Supply

variable {supply : Supply} {room : Room} {name : String} {n grace now : Nat}

/-- The worker of a slot is the first one that cannot be made. -/
def FailsFirst (supply : Supply) (k : Nat) (cause : HostError) : Prop :=
  (∀ i < k, supply.answer (makes i) (.make i) = .ok ()) ∧
    supply.answer (makes k) (.make k) = .error cause

/-- All workers can be made, or there is a first one that cannot. -/
theorem all_made_or_failsFirst (supply : Supply) (n : Nat) :
    (∀ i < n, supply.answer (makes i) (.make i) = .ok ()) ∨
      ∃ k < n, ∃ cause, supply.FailsFirst k cause := by
  induction n with
  | zero => exact .inl nofun
  | succ n ih =>
    rcases ih with hmade | ⟨k, hk, cause, hfirst⟩
    · cases hanswer : supply.answer (makes n) (.make n) with
      | ok =>
        refine .inl ?_
        intro i hi
        rcases Nat.lt_succ_iff_lt_or_eq.mp hi with hi | rfl
        · exact hmade i hi
        · exact hanswer
      | error cause => exact .inr ⟨n, Nat.lt_succ_self n, cause, hmade, hanswer⟩
    · exact .inr ⟨k, Nat.lt_succ_of_lt hk, cause, hfirst⟩

theorem start_of_noRoom {b : Breakdown} (hn : 0 < n) (hroom : room.breakdown? n = some b)
    (m : Nat) : supply.start m room name n grace now = ([], some (.error (.brokenDown b))) := by
  simp only [start, Startup.begin, if_neg (Nat.ne_of_gt hn), hroom]

theorem start_of_room (hn : 0 < n) (hroom : room.breakdown? n = none) (m : Nat) :
    supply.start m room name n grace now =
      (((Startup.building name n grace 0).play supply m []).1,
        ((Startup.building name n grace 0).play supply m []).2.result? now) := by
  have hbegin : Startup.begin room name n grace = .ok (Startup.building name n grace 0) :=
    Startup.begin_eq_ok_iff.mpr ⟨hn, hroom, rfl⟩
  rw [start, hbegin]

theorem start_of_made (hn : 0 < n) (hroom : room.breakdown? n = none)
    (h : ∀ i < n, supply.answer (makes i) (.make i) = .ok ()) (more : Nat) :
    supply.start (2 * n + more) room name n grace now = (makes n, some
      (match Breakdown.ofPermits? n with
        | some b => .error (.brokenDown b)
        | none => .ok (.opened name grace now (firstWorkers n) n))) := by
  obtain ⟨i, rfl⟩ : ∃ i, n = i + 1 := ⟨n - 1, by omega⟩
  have hfuel : 2 * (i + 1) + more = i + (i + 1 + more + 1) := by omega
  rw [start_of_room hn hroom, hfuel, Startup.play_building_of_made (Nat.lt_succ_self i)
    fun j hj => h j (Nat.lt_succ_of_lt hj), Startup.play_building_last (h i (Nat.lt_succ_self i))]
  refine congrArg (Prod.mk _) ?_
  simp only [Startup.result?, Startup.building]
  cases Breakdown.ofPermits? (i + 1) with
  | _ => rfl

theorem start_of_failsFirst {k : Nat} {cause : HostError} (hk : k < n)
    (hroom : room.breakdown? n = none) (h : supply.FailsFirst k cause) (more : Nat) :
    supply.start (2 * n + more) room name n grace now =
      (makes (k + 1) ++ (firstWorkers k).map .shutDown, some (.error (.failed cause))) := by
  obtain ⟨hmade, hfails⟩ := h
  obtain ⟨m, hm⟩ : ∃ m, 2 * n + more = k + (k + m + 1) := ⟨2 * n + more - (2 * k + 1), by omega⟩
  obtain ⟨s', hplay, hfailed⟩ :=
    Startup.play_building_of_unmade name n grace m hfails
  rw [start_of_room (Nat.lt_of_le_of_lt (Nat.zero_le k) hk) hroom, hm,
    Startup.play_building_of_made hk hmade, hplay, Startup.result?]
  simp only [hfailed]

/-- A start is over after so many calls. -/
theorem exists_result (supply : Supply) (hn : 0 < n) (hroom : room.breakdown? n = none)
    (name : String) (grace now more : Nat) : ∃ calls r,
      supply.start (2 * n + more) room name n grace now = (calls, some r) := by
  rcases supply.all_made_or_failsFirst n with hmade | ⟨k, hk, cause, hfirst⟩
  · exact ⟨_, _, start_of_made hn hroom hmade more⟩
  · exact ⟨_, _, start_of_failsFirst hk hroom hfirst more⟩

end Supply

/-! ### Sessions -/

namespace WorkerPlan

/-- A supply makes the workers of a plan.  How they are shut down is not said. -/
def Describes (plan : WorkerPlan) (supply : Supply) : Prop :=
  ∀ calls slot, supply.answer calls (.make slot) =
    if plan.createFail.contains slot then .error (createError ⟨slot, slot⟩) else .ok ()

/-- The log line for a call. -/
def callLine (plan : WorkerPlan) : StartupCall → String
  | .make slot => plan.createLine ⟨slot, slot⟩
  | .shutDown w => plan.shutdownLine w

end WorkerPlan

namespace PoolSession

variable {plan : WorkerPlan} {supply : Supply} {s : Startup} {calls : List StartupCall}
variable {c : StartupCall} {r : Except NoStart Pool}

/-- A start that is over is played no further. -/
theorem start_of_result? {m now : Nat} (h : s.result? now = some r) :
    start plan (m + 1) now s = ([], now, r) := by
  unfold Startup.result? at h
  unfold start
  cases hp : s.phase with
  | failed cause =>
    rw [hp] at h
    simp only [Option.some.injEq] at h
    simp only [h]
  | ready =>
    simp only [hp] at h
    cases hpermits : Breakdown.ofPermits? s.size with
    | _ =>
      simp only [hpermits, Option.some.injEq] at h
      simp only [h]
  | building | undoing cause left =>
    rw [hp] at h
    cases h

/-- A session answers a call as the supply of its plan does, and logs the call. -/
theorem start_of_call? (hplan : plan.Describes supply) (calls : List StartupCall) (hs : s.Sound)
    (hcall : s.call? = some c) (m now : Nat) : ∃ soon, start plan (m + 1) now s =
      (plan.callLine c ::
          (start plan m soon ((s.step (c.event (supply.answer calls c))).getD s)).1,
        (start plan m soon ((s.step (c.event (supply.answer calls c))).getD s)).2) := by
  unfold Startup.call? at hcall
  split at hcall
  · next hp =>
    obtain rfl : .make s.made.length = c := Option.some.inj hcall
    have hserial : s.nextSerial = s.made.length := (hs.building hp).2.1
    refine ⟨now + plan.createDelay, ?_⟩
    rw [start, hplan]
    simp only [hp, hserial]
    split
    · rfl
    · rfl
  · next cause w left hp =>
    obtain rfl : .shutDown w = c := Option.some.inj hcall
    refine ⟨now + plan.shutdownDelay, ?_⟩
    rw [start]
    simp only [hp]
    rfl
  · cases hcall

/-- A session plays a start as the supply of its plan does, and logs the calls. -/
theorem start_of_describes (hplan : plan.Describes supply) (calls : List StartupCall)
    (hs : s.Sound) (m now : Nat) : ∃ asked later, (s.play supply m calls).1 = calls ++ asked ∧
      ∀ r, (s.play supply m calls).2.result? later = some r →
        start plan (m + 1) now s = (asked.map plan.callLine, later, r) := by
  induction m generalizing s calls now with
  | zero =>
    refine ⟨[], now, (List.append_nil calls).symm, ?_⟩
    intro r hr
    exact start_of_result? hr
  | succ m ih =>
    cases hcall : s.call? with
    | none =>
      rw [Startup.play_of_call?_eq_none hcall]
      refine ⟨[], now, (List.append_nil calls).symm, ?_⟩
      intro r hr
      exact start_of_result? hr
    | some c =>
      let s' := (s.step (c.event (supply.answer calls c))).getD s
      have hs' : s'.Sound := by
        cases hstep : s.step (c.event (supply.answer calls c)) with
        | none => simpa [s', hstep] using hs
        | some u => simpa [s', hstep] using Startup.sound_step hs hstep
      have hplay : s.play supply (m + 1) calls = s'.play supply m (calls ++ [c]) := by
        rw [Startup.play, hcall]
      obtain ⟨soon, hstart⟩ := start_of_call? hplan calls hs hcall (m + 1) now
      obtain ⟨asked, later, hasked, hend⟩ := ih (calls ++ [c]) hs' soon
      refine ⟨c :: asked, later, ?_, ?_⟩
      · rw [hplay, hasked, List.append_assoc]
        rfl
      · intro r hr
        rw [hplay] at hr
        have hrest : start plan (m + 1) soon
            ((s.step (c.event (supply.answer calls c))).getD s) =
              (asked.map plan.callLine, later, r) := hend r hr
        rw [hstart, hrest]
        rfl

/-- A session that follows a plan starts as the supply of its plan does, and logs the calls. -/
theorem begin_of_describes (hplan : plan.Describes supply) (room : Room) (name : String)
    (n grace : Nat) :
    ∃ later calls r, supply.start (2 * n + 1) room name n grace later = (calls, some r) ∧
      begin plan room name n grace = (calls.map plan.callLine, r.map (new plan)) := by
  rcases Nat.eq_zero_or_pos n with rfl | hn
  · exact ⟨0, [], _, rfl, rfl⟩
  · cases hroom : room.breakdown? n with
    | some b =>
      refine ⟨0, [], _, Supply.start_of_noRoom hn hroom _, ?_⟩
      simp only [begin, Startup.begin, if_neg (Nat.ne_of_gt hn), hroom]
      rfl
    | none =>
      have hbegin : Startup.begin room name n grace = .ok (Startup.building name n grace 0) :=
        Startup.begin_eq_ok_iff.mpr ⟨hn, hroom, rfl⟩
      obtain ⟨asked, later, hasked, hend⟩ :=
        start_of_describes hplan [] (Startup.sound_begin hbegin) (2 * n + 1) 0
      obtain ⟨calls, r, hr⟩ :=
        supply.exists_result hn hroom name grace later 1
      have hstart := hr
      rw [Supply.start_of_room hn hroom] at hstart
      obtain ⟨rfl, hresult⟩ := Prod.mk.inj hstart
      refine ⟨later, _, r, hr, ?_⟩
      rw [begin, hbegin]
      simp only
      rw [hend r hresult, hasked]
      rfl

end PoolSession

/-- Without a worker to be made no pool is started, and nothing is asked for.  Where there is no room
for the workers the program breaks down before anything is asked for.  Otherwise the workers of the
slots are asked for in order, and all of them can be made, or there is a first one that cannot.  If
all are made, and are not more than there may be permits, the pool is open, and these workers are
idle.  If one cannot be made, none is asked for after it, those before it are shut down, each once
and in order, whatever comes of it, and the start fails with what that worker failed with.  It makes
no difference how many more calls might be made.  A session that follows a plan starts so as
well. -/
theorem Supply.start_all_or_nothing (supply : Supply) (room : Room) (name : String)
    (n grace now more : Nat) :
    (n = 0 → supply.start (2 * n + more) room name n grace now = ([], some (.error
      (.failed (.configInvalid ("pool " ++ name ++ " must have at least one worker")))))) ∧
    (0 < n → ∀ b, room.breakdown? n = some b →
      supply.start (2 * n + more) room name n grace now = ([], some (.error (.brokenDown b)))) ∧
    ((∀ i < n, supply.answer (makes i) (.make i) = .ok ()) ∨
      ∃ k < n, ∃ cause, supply.FailsFirst k cause) ∧
    (0 < n → room.breakdown? n = none →
      (∀ i < n, supply.answer (makes i) (.make i) = .ok ()) →
      (∀ b, Breakdown.ofPermits? n = some b →
        supply.start (2 * n + more) room name n grace now =
          (makes n, some (.error (.brokenDown b)))) ∧
      (Breakdown.ofPermits? n = none → ∃ p : Pool,
        supply.start (2 * n + more) room name n grace now = (makes n, some (.ok p)) ∧
        p.Fresh n ∧ p.closed = false ∧ p.idle.reverse = firstWorkers n ∧ p.live = n)) ∧
    (room.breakdown? n = none → ∀ k < n, ∀ cause, supply.FailsFirst k cause →
      supply.start (2 * n + more) room name n grace now =
        (makes (k + 1) ++ (firstWorkers k).map .shutDown, some (.error (.failed cause)))) ∧
    ∀ plan : WorkerPlan, plan.Describes supply → ∃ later calls r,
      supply.start (2 * n + 1) room name n grace later = (calls, some r) ∧
      PoolSession.begin plan room name n grace = (calls.map plan.callLine, r.map (.new plan)) := by
  refine ⟨?_, ?_, supply.all_made_or_failsFirst n, ?_, ?_, ?_⟩
  · rintro rfl
    rfl
  · intro hn b hroom
    exact start_of_noRoom hn hroom _
  · intro hn hroom hmade
    have hstart : supply.start (2 * n + more) room name n grace now = _ :=
      start_of_made hn hroom hmade more
    constructor
    · intro b hpermits
      rw [hstart, hpermits]
    · intro hpermits
      rw [hpermits] at hstart
      refine ⟨_, hstart, Pool.fresh_opened hn name grace now, rfl, ?_, ?_⟩
      · exact List.reverse_reverse _
      · exact length_firstWorkers n
  · intro hroom k hk cause hfirst
    exact start_of_failsFirst hk hroom hfirst more
  · intro plan hplan
    exact PoolSession.begin_of_describes hplan room name n grace

/-- Makes no third worker, and fails to shut down any. -/
def flaky : Supply where
  answer
    | _, .make 2 => .error (.processSpawnFailed "worker 2")
    | _, .make _ => .ok ()
    | _, .shutDown _ => .error .poolClosed

/-- Of four workers the third one cannot be made, so the two before it are shut down.  Two workers
can be made. -/
theorem Supply.start_all_or_nothing_flaky :
    flaky.start 8 ⟨64, 4096⟩ "flaky" 4 10 0 =
      ([.make 0, .make 1, .make 2, .shutDown ⟨0, 0⟩, .shutDown ⟨1, 1⟩],
        some (.error (.failed (.processSpawnFailed "worker 2")))) ∧
    ∃ p : Pool, flaky.start 4 ⟨64, 4096⟩ "flaky" 2 10 0 = ([.make 0, .make 1], some (.ok p)) ∧
      p.closed = false ∧ p.live = 2 := by
  obtain ⟨-, -, -, -, hfails, -⟩ := start_all_or_nothing flaky ⟨64, 4096⟩ "flaky" 4 10 0 0
  obtain ⟨-, -, -, hmade, -⟩ := start_all_or_nothing flaky ⟨64, 4096⟩ "flaky" 2 10 0 0
  constructor
  · refine hfails rfl 2 (by decide) (.processSpawnFailed "worker 2") ⟨?_, rfl⟩
    intro i hi
    match i, hi with
    | 0, _ => rfl
    | 1, _ => rfl
  · have hfirst : ∀ i < 2, flaky.answer (makes i) (.make i) = .ok () := by
      intro i hi
      match i, hi with
      | 0, _ => rfl
      | 1, _ => rfl
    obtain ⟨-, hpool⟩ := hmade (by decide) rfl hfirst
    obtain ⟨p, hstart, -, hopen, -, hlive⟩ := hpool rfl
    exact ⟨p, hstart, hopen, hlive⟩

/-- Makes no worker. -/
def unable : Supply where
  answer
    | _, .make slot => .error (.processSpawnFailed ("worker " ++ toString slot))
    | _, .shutDown _ => .ok ()

/-- The first of very many workers cannot be made, but the program breaks down before it is asked
for, as there is no room for all of them. -/
theorem Supply.broken_down_before_first_failure :
    unable.answer [] (.make 0) = .error (.processSpawnFailed "worker 0") ∧
    ∀ m, unable.start m ⟨24, 0x800000000000⟩ "wide" 0x1000000000000 10 0 =
      ([], some (.error (.brokenDown (.outOfMemory (24 * 0x1000000000000))))) := by
  have hroom : Room.breakdown? ⟨24, 0x800000000000⟩ 0x1000000000000 =
      some (.outOfMemory (24 * 0x1000000000000)) := by decide
  exact ⟨rfl, fun m => start_of_noRoom (by decide) hroom m⟩

end LanguageHost
