import LanguageHost.Pattern.Reader
import LanguageHost.Proofs.Pattern.Search

/-!
# Patterns that were read

Reading refuses a repetition whose lower bound exceeds the upper one (`bounds?_inOrder`) and builds
patterns from parts that it has read before.  So the bounds in all patterns that come out of it are
in order (`inOrder_of_read`), and such a pattern fits a text exactly if the text contains a stretch
of it (`occursIn_of_read`).
-/

namespace LanguageHost.Pattern

variable {r r' : Scan} {f : Flags} {l : Level} {cs rest : List Char} {parts : List Part} {p : Part}

/-- The bounds that a repetition can have are in order. -/
theorem bounds?_inOrder {least m : Nat} (h : bounds? f cs = some ((least, some m), rest)) :
    least ≤ m := by
  simp only [bounds?, Option.bind_eq_bind, Option.bind_eq_some_iff] at h
  obtain ⟨⟨n, cs⟩, -, n, rfl, h⟩ := h
  dsimp only at h
  split at h
  · split at h
    · cases h
    · simp only [Option.bind_eq_some_iff] at h
      obtain ⟨⟨m, cs⟩, -, m, rfl, h⟩ := h
      dsimp only at h
      split at h
      · split at h
        · next hle =>
          cases h
          exact hle
        · cases h
      · cases h
  · cases h
    exact Nat.le_refl _
  · cases h

namespace Level

/-- The parts of a group that was read so far are in order. -/
structure InOrder (l : Level) : Prop where
  branches : ∀ p ∈ l.branches, p.pattern.InOrder
  parts : ∀ p ∈ l.parts, p.pattern.InOrder

theorem inOrder_start : start.InOrder := ⟨nofun, nofun⟩

theorem InOrder.push (hl : l.InOrder) (hp : p.pattern.InOrder) : (l.push p).InOrder :=
  ⟨hl.branches, List.forall_mem_cons.mpr ⟨hp, hl.parts⟩⟩

theorem inOrder_sequence (h : ∀ p ∈ parts, p.pattern.InOrder) :
    (sequence parts).pattern.InOrder := by
  have hfoldr : ∀ ps : List Part, (∀ p ∈ ps, p.pattern.InOrder) →
      (ps.foldr (fun p q => .seq p.pattern q) Pattern.empty).InOrder := by
    intro ps hps
    induction ps with
    | nil => exact trivial
    | cons p ps ih =>
      obtain ⟨hp, hps⟩ := List.forall_mem_cons.mp hps
      exact ⟨hp, ih hps⟩
  unfold sequence
  split
  · exact trivial
  · exact h _ List.mem_cons_self
  · exact hfoldr _ fun p hp => h p (List.mem_reverse.mp hp)

theorem InOrder.nextBranch (hl : l.InOrder) : l.nextBranch.InOrder :=
  ⟨List.forall_mem_cons.mpr ⟨inOrder_sequence hl.parts, hl.branches⟩, nofun⟩

theorem InOrder.close (hl : l.InOrder) : l.close.pattern.InOrder := by
  have hfoldl : ∀ (ps : List Part) (q : Pattern), q.InOrder → (∀ p ∈ ps, p.pattern.InOrder) →
      (ps.foldl (fun q p => .either p.pattern q) q).InOrder := by
    intro ps
    induction ps with
    | nil => exact fun q hq _ => hq
    | cons p ps ih =>
      intro q hq hps
      obtain ⟨hp, hps⟩ := List.forall_mem_cons.mp hps
      exact ih _ ⟨hp, hq⟩ hps
  have hlast : (sequence l.parts).pattern.InOrder := inOrder_sequence hl.parts
  unfold Level.close
  split
  · exact hlast
  · exact hfoldl _ _ trivial (List.forall_mem_cons.mpr ⟨hlast, hl.branches⟩)

end Level

namespace Scan

/-- All parts that were read so far are in order. -/
structure InOrder (r : Scan) : Prop where
  level : r.level.InOrder
  outer : ∀ o ∈ r.outer, o.2.InOrder

theorem InOrder.push (hr : r.InOrder) (hp : p.pattern.InOrder) :
    InOrder { r with level := r.level.push p } :=
  ⟨hr.level.push hp, hr.outer⟩

theorem InOrder.openGroup (hr : r.InOrder) (f : Flags) : (r.openGroup f).InOrder :=
  ⟨Level.inOrder_start, List.forall_mem_cons.mpr ⟨hr.level, hr.outer⟩⟩

theorem InOrder.named (hr : r.InOrder) (h : r.named? cs = some (r', rest)) : r'.InOrder := by
  simp only [named?, Option.bind_eq_bind, Option.bind_eq_some_iff] at h
  obtain ⟨⟨name, after⟩, -, h⟩ := h
  split at h
  · cases h
  · cases h
    exact ⟨(hr.openGroup r.flags).level, (hr.openGroup r.flags).outer⟩

theorem InOrder.group (hr : r.InOrder) (h : r.group? cs = some (r', rest)) : r'.InOrder := by
  unfold group? at h
  split at h
  · cases h
  · cases h
  · cases h
  · cases h
  · exact hr.named h
  · exact hr.named h
  · simp only [Option.bind_eq_bind, Option.bind_eq_some_iff] at h
    obtain ⟨⟨g, seen, after⟩, -, h⟩ := h
    dsimp only at h
    split at h
    · split at h
      · cases h
      · cases h
        exact ⟨hr.level.push trivial, hr.outer⟩
    · cases h
      exact hr.openGroup g
    · cases h
  · cases h
    exact hr.openGroup r.flags

theorem InOrder.closeGroup (hr : r.InOrder) (h : r.closeGroup? = some r') : r'.InOrder := by
  unfold closeGroup? at h
  split at h
  · cases h
  · next f l outer hout =>
    cases h
    obtain ⟨hl, houter⟩ := List.forall_mem_cons.mp (hout ▸ hr.outer)
    exact ⟨hl.push hr.level.close, houter⟩

theorem InOrder.repeated {least : Nat} {most : Option Nat} (hr : r.InOrder)
    (hbounds : ∀ m, most = some m → least ≤ m) (h : r.repeated? least most = some r') :
    r'.InOrder := by
  unfold repeated? at h
  split at h
  · next p parts hparts =>
    split at h
    · cases h
      obtain ⟨hp, hps⟩ := List.forall_mem_cons.mp (hparts ▸ hr.level.parts)
      exact ⟨⟨hr.level.branches, List.forall_mem_cons.mpr ⟨⟨hp, hbounds⟩, hps⟩⟩, hr.outer⟩
    · cases h
  · cases h

theorem InOrder.primitive {a : Primitive} (hr : r.InOrder) (h : r.primitive? a = some r') :
    r'.InOrder := by
  unfold primitive? at h
  cases a with
  | literal c octet =>
    dsimp only at h
    split at h
    · cases h
    · split at h
      · cases h
        exact hr.push trivial
      · cases h
        exact hr.push trivial
  | set codes =>
    cases h
    exact hr.push trivial
  | anchor a =>
    cases h
    exact hr.push trivial

/-- What was read, when the rest of the text is handed on with it. -/
theorem eq_some_of_bind_pair {o : Option Scan}
    (h : (o.bind fun s => some (s, cs)) = some (r', rest)) : o = some r' := by
  obtain ⟨s, hs, h⟩ := Option.bind_eq_some_iff.mp h
  cases h
  exact hs

/-- Reading one part keeps everything in order. -/
theorem InOrder.step (hr : r.InOrder) (h : r.step? cs = some (r', rest)) : r'.InOrder := by
  unfold step? at h
  split at h
  · cases h
  · exact hr.group h
  · exact hr.closeGroup (eq_some_of_bind_pair h)
  · cases h
    exact ⟨hr.level.nextBranch, hr.outer⟩
  · obtain ⟨⟨set, after⟩, -, h⟩ := Option.bind_eq_some_iff.mp h
    cases h
    exact hr.push trivial
  · exact hr.repeated (fun m _ => Nat.zero_le m) (eq_some_of_bind_pair h)
  · exact hr.repeated (fun m _ => Nat.zero_le m) (eq_some_of_bind_pair h)
  · exact hr.repeated (fun m hm => by cases hm) (eq_some_of_bind_pair h)
  · obtain ⟨⟨⟨least, most⟩, after⟩, hbounds, h⟩ := Option.bind_eq_some_iff.mp h
    have hinOrder : ∀ m, most = some m → least ≤ m := by
      rintro m rfl
      exact bounds?_inOrder hbounds
    exact hr.repeated hinOrder (eq_some_of_bind_pair h)
  · obtain ⟨⟨a, after⟩, -, h⟩ := Option.bind_eq_some_iff.mp h
    exact hr.primitive (eq_some_of_bind_pair h)
  · obtain ⟨codes, -, h⟩ := Option.bind_eq_some_iff.mp h
    exact hr.primitive (eq_some_of_bind_pair h)
  · exact hr.primitive (eq_some_of_bind_pair h)
  · exact hr.primitive (eq_some_of_bind_pair h)
  · exact hr.primitive (eq_some_of_bind_pair h)

theorem InOrder.finish {fuel : Nat} (hr : r.InOrder) (h : finish? fuel r cs = some p) :
    p.pattern.InOrder := by
  induction fuel generalizing r cs with
  | zero => cases h
  | succ fuel ih =>
    unfold finish? at h
    split at h
    · split at h
      · cases h
        exact hr.level.close
      · cases h
    · simp only [Option.bind_eq_bind, Option.bind_eq_some_iff] at h
      obtain ⟨⟨r', rest⟩, hstep, hfinish⟩ := h
      exact ih (hr.step hstep) hfinish

end Scan

/-- A pattern that was read is in order. -/
theorem inOrder_of_read {text : String} {p : Pattern} (h : read text = .ok p) : p.InOrder := by
  unfold read at h
  dsimp only at h
  split at h
  · cases h
  · next part hpart =>
    split at h
    · cases h
    · split at h
      · cases h
      · cases h
        have hstart : Scan.InOrder ⟨.usual, .start, [], []⟩ := ⟨Level.inOrder_start, nofun⟩
        exact hstart.finish hpart

/-- A text fits a pattern that was read exactly if it contains a stretch of the pattern. -/
theorem occursIn_of_read {text s : String} {p : Pattern} (h : read text = .ok p) :
    p.occursIn s = true ↔ ∃ i j, Spans s.toList.toArray p i j :=
  occursIn_iff (inOrder_of_read h)

end LanguageHost.Pattern
