import LanguageHost.Profiler
import Mathlib.Algebra.Group.Action.Defs
import Mathlib.Algebra.Order.BigOperators.Group.List
import Mathlib.Algebra.Order.Ring.Nat
import Mathlib.Data.List.Induction

/-!
# What a summary says of its calls

A summary is kept up to date one call at a time: its total is cut off at the longest duration and
its average at the largest word, and its least and its most duration start as those of the first
call.
None of this shows in the end.  After any calls the summary is as if it had been made of all of them
at once (`CallStats.Summarizes`), which is kept by each call that is added
(`CallStats.Summarizes.add`).  As long as the total is a word of nanoseconds nothing is cut off, and
the average lies between the least and the most duration (`CallStats.Summarizes.exact`).  So the
order of the calls does not matter: `Profiler.summary_of_records`.

The numbers of calls and of failures are not cut off here.  Counters that are words stop at the
largest word, or begin again at zero after it; up to there they are these numbers
(`CallStats.Summarizes.words_eq`).
-/

namespace LanguageHost

/-- A call that has ended, and is put on record. -/
structure CallRecord where
  runtime : String
  function : String
  spent : Duration
  failed : Bool
  deriving Repr, DecidableEq

namespace CallRecord

/-- The name of the summary that a call is added to. -/
def key (r : CallRecord) : String := Profiler.key r.runtime r.function

/-- How many nanoseconds a call took. -/
def nanos (r : CallRecord) : Nat := r.spent.nanos

/-- How many nanoseconds some calls took together. -/
def totalNanos (records : List CallRecord) : Nat := (records.map nanos).sum

theorem totalNanos_concat (records : List CallRecord) (r : CallRecord) :
    totalNanos (records ++ [r]) = totalNanos records + r.nanos := by
  simp [totalNanos]

end CallRecord

/-- The least of some numbers and one more. -/
theorem min?_concat {l : List Nat} {m : Nat} (h : l.min? = some m) (n : Nat) :
    (l ++ [n]).min? = some (min m n) := by
  obtain ⟨hmem, hle⟩ := List.min?_eq_some_iff.mp h
  simp only [List.min?_eq_some_iff, List.mem_append, List.mem_singleton]
  refine ⟨?_, ?_⟩
  · rcases Nat.le_total m n with hold | hnew
    · rw [Nat.min_eq_left hold]
      exact .inl hmem
    · exact .inr (Nat.min_eq_right hnew)
  · rintro k (hk | rfl)
    · exact Nat.le_trans (Nat.min_le_left m n) (hle k hk)
    · exact Nat.min_le_right m k

/-- The most of some numbers and one more. -/
theorem max?_concat {l : List Nat} {m : Nat} (h : l.max? = some m) (n : Nat) :
    (l ++ [n]).max? = some (max m n) := by
  obtain ⟨hmem, hle⟩ := List.max?_eq_some_iff.mp h
  simp only [List.max?_eq_some_iff, List.mem_append, List.mem_singleton]
  refine ⟨?_, ?_⟩
  · rcases Nat.le_total n m with hold | hnew
    · rw [Nat.max_eq_left hold]
      exact .inl hmem
    · exact .inr (Nat.max_eq_right hnew)
  · rintro k (hk | rfl)
    · exact Nat.le_trans (hle k hk) (Nat.le_max_left m n)
    · exact Nat.le_max_right m k

namespace CallStats

open CallRecord

variable {s s' : CallStats} {records records' : List CallRecord}

/-- A summary says this of the calls that were added to it, whatever they are. -/
structure Summarizes (s : CallStats) (records : List CallRecord) : Prop where
  /-- The runtime is that of the first call. -/
  runtime_eq : (records.map CallRecord.runtime).head? = some s.runtime
  calls_eq : s.calls = records.length
  errors_eq : s.errors = records.countP CallRecord.failed
  total_eq : s.total.nanos = min (totalNanos records) longest.nanos
  average_eq : s.average.nanos = min (s.total.nanos / records.length) longestAverage
  least_eq : (records.map nanos).min? = some s.least.nanos
  most_eq : (records.map nanos).max? = some s.most.nanos

/-- The first call makes a summary. -/
theorem summarizes_opened (r : CallRecord) :
    ((opened r.runtime r.spent).add r.spent r.failed).Summarizes [r] where
  runtime_eq := rfl
  calls_eq := rfl
  errors_eq := by cases h : r.failed <;> simp [add, opened, h]
  total_eq := by simp [add, opened, totalNanos, nanos]
  average_eq := rfl
  least_eq := by simp [add, opened, nanos]
  most_eq := by simp [add, opened, nanos]

/-- One more call is added to a summary. -/
theorem Summarizes.add (h : s.Summarizes records) (r : CallRecord) :
    (s.add r.spent r.failed).Summarizes (records ++ [r]) where
  runtime_eq := by
    rw [List.map_append, List.head?_append, h.runtime_eq]
    rfl
  calls_eq := by rw [List.length_append, ← h.calls_eq]; rfl
  errors_eq := by
    rw [List.countP_append, ← h.errors_eq]
    cases hfailed : r.failed <;> simp [CallStats.add, hfailed]
  total_eq := by
    -- What was cut off before is cut off again.
    have htotal := h.total_eq
    simp only [CallStats.add, totalNanos_concat, nanos]
    omega
  average_eq := by rw [List.length_append, ← h.calls_eq]; rfl
  least_eq := by
    rw [List.map_append]
    exact min?_concat h.least_eq r.nanos
  most_eq := by
    rw [List.map_append]
    exact max?_concat h.most_eq r.nanos

/-- Summaries of the same calls in another order differ in the runtime at most. -/
theorem Summarizes.eq_of_perm (h : s.Summarizes records) (h' : s'.Summarizes records')
    (hperm : records'.Perm records) : s' = { s with runtime := s'.runtime } := by
  have hnanos : (records'.map nanos).Perm (records.map nanos) := hperm.map nanos
  have hcalls : s'.calls = s.calls := by rw [h'.calls_eq, h.calls_eq, hperm.length_eq]
  have herrors : s'.errors = s.errors := by
    rw [h'.errors_eq, h.errors_eq, hperm.countP_eq]
  have htotal : s'.total.nanos = s.total.nanos := by
    rw [h'.total_eq, h.total_eq, totalNanos, hnanos.sum_eq, ← totalNanos]
  have haverage : s'.average.nanos = s.average.nanos := by
    rw [h'.average_eq, h.average_eq, htotal, hperm.length_eq]
  have hleast : s'.least.nanos = s.least.nanos := by
    obtain ⟨hmem, hle⟩ := List.min?_eq_some_iff.mp h.least_eq
    obtain ⟨hmem', hle'⟩ := List.min?_eq_some_iff.mp h'.least_eq
    exact Nat.le_antisymm (hle' _ (hnanos.mem_iff.mpr hmem)) (hle _ (hnanos.mem_iff.mp hmem'))
  have hmost : s'.most.nanos = s.most.nanos := by
    obtain ⟨hmem, hle⟩ := List.max?_eq_some_iff.mp h.most_eq
    obtain ⟨hmem', hle'⟩ := List.max?_eq_some_iff.mp h'.most_eq
    exact Nat.le_antisymm (hle _ (hnanos.mem_iff.mp hmem')) (hle' _ (hnanos.mem_iff.mpr hmem))
  obtain ⟨r, n, ⟨T⟩, ⟨A⟩, ⟨L⟩, ⟨M⟩, f⟩ := s
  obtain ⟨r', n', ⟨T'⟩, ⟨A'⟩, ⟨L'⟩, ⟨M'⟩, f'⟩ := s'
  simp only at hcalls herrors htotal haverage hleast hmost
  subst hcalls herrors htotal haverage hleast hmost
  rfl

/-- A summary says exactly this of the calls that were added to it. -/
structure Exact (s : CallStats) (records : List CallRecord) : Prop where
  calls_eq : s.calls = records.length
  errors_eq : s.errors = records.countP CallRecord.failed
  total_eq : s.total.nanos = totalNanos records
  /-- The average is rounded down to a whole number of nanoseconds. -/
  average_eq : s.average.nanos = totalNanos records / records.length
  least_eq : (records.map nanos).min? = some s.least.nanos
  most_eq : (records.map nanos).max? = some s.most.nanos
  least_le_average : s.least.nanos ≤ s.average.nanos
  average_le_most : s.average.nanos ≤ s.most.nanos

/-- Nothing is cut off as long as the total is a word of nanoseconds. -/
theorem Summarizes.exact (h : s.Summarizes records) (hne : records ≠ [])
    (htotal : totalNanos records ≤ Word.largest) : s.Exact records := by
  have hpos : 0 < records.length := List.length_pos_iff.mpr hne
  have hlength : (records.map nanos).length = records.length := List.length_map nanos
  have hsum : s.total.nanos = totalNanos records := by
    rw [h.total_eq]
    exact Nat.min_eq_left (Nat.le_trans htotal (by decide))
  have haverage : s.average.nanos = totalNanos records / records.length := by
    rw [h.average_eq, hsum]
    exact Nat.min_eq_left (Nat.le_trans (Nat.div_le_self _ _) htotal)
  refine ⟨h.calls_eq, h.errors_eq, hsum, haverage, h.least_eq, h.most_eq, ?_, ?_⟩
  · have hle := List.card_nsmul_le_sum _ _ (List.min?_eq_some_iff.mp h.least_eq).2
    rw [hlength, smul_eq_mul] at hle
    rw [haverage, Nat.le_div_iff_mul_le hpos, Nat.mul_comm]
    exact hle
  · have hle := List.sum_le_card_nsmul _ _ (List.max?_eq_some_iff.mp h.most_eq).2
    rw [hlength, smul_eq_mul] at hle
    rw [haverage]
    exact Nat.div_le_of_le_mul hle

end CallStats

/-! ### Counting in words -/

/-- The calls and the failures of a summary, counted in words. -/
structure CallWords where
  calls : UInt64
  errors : UInt64
  deriving Repr, DecidableEq

namespace CallWords

/-- Counts a call.  The calls stay at the largest word, and the failures begin again after it. -/
def add (w : CallWords) (failed : Bool) : CallWords where
  calls := if w.calls.toNat < Word.largest then w.calls + 1 else w.calls
  errors := if failed then w.errors + 1 else w.errors

/-- Counts calls one after the other. -/
def ofRecords (records : List CallRecord) : CallWords :=
  records.foldl (fun w r => w.add r.failed) ⟨0, 0⟩

theorem toNat_ofRecords (records : List CallRecord) (hfew : records.length < Word.count) :
    (ofRecords records).calls.toNat = records.length ∧
      (ofRecords records).errors.toNat = records.countP CallRecord.failed := by
  induction records using List.reverseRecOn with
  | nil => exact ⟨rfl, rfl⟩
  | append_singleton records r ih =>
    rw [List.length_append, List.length_singleton] at hfew ⊢
    obtain ⟨hcalls, herrors⟩ := ih (Nat.lt_of_succ_lt hfew)
    have hlast : ofRecords (records ++ [r]) = (ofRecords records).add r.failed := by
      rw [ofRecords, List.foldl_append]
      rfl
    have hroom : (ofRecords records).calls.toNat < Word.largest := by
      rw [hcalls]
      exact Nat.lt_of_succ_lt_succ hfew
    rw [hlast, add, if_pos hroom, List.countP_append, ← hcalls, ← herrors]
    refine ⟨Word.toNat_add_one (Nat.succ_lt_succ hroom), ?_⟩
    cases hfailed : r.failed with
    | false => simp [hfailed]
    | true =>
      -- There are no more failures than calls.
      have hle : (ofRecords records).errors.toNat + 1 < Word.count := by
        rw [herrors]
        exact Nat.lt_of_le_of_lt (Nat.succ_le_succ List.countP_le_length) hfew
      simp [hfailed, Word.toNat_add_one hle]

end CallWords

/-- A summary of fewer calls than there are words counts them as words do. -/
theorem CallStats.Summarizes.words_eq {s : CallStats} {records : List CallRecord}
    (h : s.Summarizes records) (hfew : records.length < Word.count) :
    (CallWords.ofRecords records).calls.toNat = s.calls ∧
      (CallWords.ofRecords records).errors.toNat = s.errors := by
  rw [h.calls_eq, h.errors_eq]
  exact CallWords.toNat_ofRecords records hfew

namespace Profiler

open CallRecord

variable {p p' : Profiler} {runtime function : String} {records records' : List CallRecord}

/-- Puts calls on record one after the other. -/
def recordAll (p : Profiler) (records : List CallRecord) : Profiler :=
  records.foldl (fun p r => p.record r.runtime r.function r.spent r.failed) p

theorem recordAll_concat (p : Profiler) (records : List CallRecord) (r : CallRecord) :
    p.recordAll (records ++ [r]) =
      (p.recordAll records).record r.runtime r.function r.spent r.failed := by
  rw [recordAll, List.foldl_append]
  rfl

/-- The calls among others that are added to the summary of a function. -/
def recordsOf (runtime function : String) (records : List CallRecord) : List CallRecord :=
  records.filter fun r => r.key = key runtime function

theorem recordsOf_concat (runtime function : String) (records : List CallRecord)
    (r : CallRecord) :
    recordsOf runtime function (records ++ [r]) =
      if r.key = key runtime function then recordsOf runtime function records ++ [r]
      else recordsOf runtime function records := by
  rw [recordsOf, List.filter_append, ← recordsOf, List.filter_singleton]
  by_cases h : r.key = key runtime function
  · rw [if_pos h, decide_eq_true h, cond_true]
  · rw [if_neg h, decide_eq_false h, cond_false, List.append_nil]

/-- A call is added to the summary of its name. -/
theorem statsOf?_recordAll_concat (p : Profiler) (runtime function : String)
    (records : List CallRecord) (r : CallRecord) :
    (p.recordAll (records ++ [r])).statsOf? runtime function =
      if r.key = key runtime function then
        some ((((p.recordAll records).statsOf? runtime function).getD
          (.opened r.runtime r.spent)).add r.spent r.failed)
      else (p.recordAll records).statsOf? runtime function := by
  rw [recordAll_concat, statsOf?_record, ← CallRecord.key]
  by_cases h : r.key = key runtime function
  · have hsame : (p.recordAll records).statsOf? r.runtime r.function =
        (p.recordAll records).statsOf? runtime function := congrArg _ h
    rw [if_pos h.symm, if_pos h, hsame]
  · rw [if_neg (Ne.symm h), if_neg h]

/-- Where a function has no summary, calls make one of those among them that are added to it. -/
theorem summarizes_recordAll (hnew : p.statsOf? runtime function = none)
    (records : List CallRecord) :
    recordsOf runtime function records = [] ∧
        (p.recordAll records).statsOf? runtime function = none ∨
      ∃ s, (p.recordAll records).statsOf? runtime function = some s ∧
        s.Summarizes (recordsOf runtime function records) := by
  induction records using List.reverseRecOn with
  | nil => exact .inl ⟨rfl, hnew⟩
  | append_singleton records r ih =>
    rw [recordsOf_concat, statsOf?_recordAll_concat]
    by_cases hkey : r.key = key runtime function
    · rw [if_pos hkey, if_pos hkey]
      rcases ih with ⟨hnil, hnone⟩ | ⟨s, hs, hsum⟩
      · rw [hnil, hnone]
        exact .inr ⟨_, rfl, CallStats.summarizes_opened r⟩
      · rw [hs]
        exact .inr ⟨_, rfl, hsum.add r⟩
    · rw [if_neg hkey, if_neg hkey]
      exact ih

/-- Some calls are put on record, among others of other functions, and their total is a word of
nanoseconds.  Then the summary has the number of the calls and of the failures among them, their
total, their average, rounded down, and the least and the most duration, between which the average
lies.  If the same calls are put on record in another order, then the summary is the same, apart
from the runtime of the first call, which may differ only if other functions have the same name. -/
theorem summary_of_records (hnew : p.statsOf? runtime function = none)
    (hsome : recordsOf runtime function records ≠ [])
    (htotal : totalNanos (recordsOf runtime function records) ≤ Word.largest) :
    ∃ s, (p.recordAll records).statsOf? runtime function = some s ∧
      s.Exact (recordsOf runtime function records) ∧
      ∀ (p' : Profiler) (records' : List CallRecord), p'.statsOf? runtime function = none →
        (recordsOf runtime function records').Perm (recordsOf runtime function records) →
        ∃ s', (p'.recordAll records').statsOf? runtime function = some s' ∧
          s' = { s with runtime := s'.runtime } ∧
          ((∀ r ∈ recordsOf runtime function records, r.runtime = runtime) → s' = s) := by
  obtain ⟨hnil, -⟩ | ⟨s, hs, hsum⟩ := summarizes_recordAll hnew records
  · exact absurd hnil hsome
  refine ⟨s, hs, hsum.exact hsome htotal, fun p' records' hnew' hperm => ?_⟩
  obtain ⟨hnil, -⟩ | ⟨s', hs', hsum'⟩ := summarizes_recordAll hnew' records'
  · exact absurd (hnil ▸ hperm).nil_eq.symm hsome
  have heq := hsum.eq_of_perm hsum' hperm
  refine ⟨s', hs', heq, fun hruntime => ?_⟩
  have hfirst : ∀ {s : CallStats} {l : List CallRecord}, s.Summarizes l →
      (∀ r ∈ l, r.runtime = runtime) → s.runtime = runtime := fun h hl => by
    obtain ⟨r, hr, heq⟩ := List.mem_map.mp (List.mem_of_mem_head? h.runtime_eq)
    exact heq.symm.trans (hl r hr)
  have hsame := hfirst hsum' fun r hr => hruntime r (hperm.mem_iff.mp hr)
  rw [heq, hsame, ← hfirst hsum hruntime]

/-- Three calls of a function, one of which fails, with a call of another function among them: the
average is rounded down. -/
theorem summary_of_three_records :
    let r : String → Nat → Bool → CallRecord := fun f n failed => ⟨"python", f, ⟨n⟩, failed⟩
    let records := [r "add" 5 false, r "sub" 90 false, r "add" 3 true, r "add" 9 false]
    let s : CallStats := ⟨"python", 3, ⟨17⟩, ⟨5⟩, ⟨3⟩, ⟨9⟩, 1⟩
    (new.recordAll records).statsOf? "python" "add" = some s ∧
      s.Exact (recordsOf "python" "add" records) ∧
      (new.recordAll records.reverse).statsOf? "python" "add" = some s := by
  intro r records s
  have hof : recordsOf "python" "add" records =
      [r "add" 5 false, r "add" 3 true, r "add" 9 false] := by decide +kernel
  have hs : (new.recordAll records).statsOf? "python" "add" = some s := by decide +kernel
  have hnew : new.statsOf? "python" "add" = none := by decide +kernel
  have hsome : recordsOf "python" "add" records ≠ [] := by rw [hof]; decide
  obtain ⟨s₁, hs₁, hexact, hany⟩ := summary_of_records hnew hsome (by rw [hof]; decide)
  obtain rfl : s = s₁ := Option.some.inj (hs.symm.trans hs₁)
  obtain ⟨s₂, hs₂, -, heq⟩ := hany new records.reverse (by decide +kernel)
    ((List.reverse_perm records).filter _)
  refine ⟨hs, hexact, ?_⟩
  rw [hs₂, heq (by rw [hof]; decide)]

end Profiler

end LanguageHost
