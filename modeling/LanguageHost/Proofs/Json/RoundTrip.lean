import LanguageHost.Proofs.Json.Scalars
import LanguageHost.Proofs.Keyed

/-!
# Values that are read from their own text

A value without doubles is read back from its text (`read?_write`), if it is nested no deeper than
the reader goes.  The reader goes down by the depth that is left, so the proof is by induction on
it: items and members that are read back by themselves are read back as the parts of an array or of
an object (`items?_writeItems`, `members?_writeMembers`), by induction on the list, and the fuel of
these loops is enough because every part takes a character at least.
-/

namespace LanguageHost

namespace Json

/-! ### Values that their text tells -/

/-- A value without doubles, as it is met in a text: its whole numbers have 64 bits, and the members
of its objects stand in the order of their names. -/
inductive Exact : Json → Prop where
  | null : Exact .null
  | bool (b : Bool) : Exact (.bool b)
  | int {n : Int} (hlow : -(Word.half : Int) ≤ n) (hhigh : n < Word.count) : Exact (.int n)
  | str (s : String) : Exact (.str s)
  | arr {items : List Json} (h : ∀ v ∈ items, Exact v) : Exact (.arr items)
  | obj {members : List (String × Json)} (hsorted : SortedByName members)
      (h : ∀ m ∈ members, Exact m.2) : Exact (.obj members)

mutual

/-- How many arrays and objects stand inside each other in a value. -/
def depth : Json → Nat
  | arr items => itemsDepth items + 1
  | obj members => membersDepth members + 1
  | _ => 0

def itemsDepth : List Json → Nat
  | [] => 0
  | v :: rest => max (depth v) (itemsDepth rest)

def membersDepth : List (String × Json) → Nat
  | [] => 0
  | (_, v) :: rest => max (depth v) (membersDepth rest)

end

/-! ### The ends of a text -/

/-- The text of a value begins with no blank, and does not look like the end of an array. -/
theorem exists_cons_write {v : Json} (h : Exact v) :
    ∃ c cs, v.write = c :: cs ∧ Text.isBlank c = false ∧ c ≠ ']' := by
  cases h with
  | null => exact ⟨_, _, rfl, by decide, by decide⟩
  | bool b => cases b <;> exact ⟨_, _, rfl, by decide, by decide⟩
  | @int n =>
    cases n with
    | ofNat k =>
      obtain ⟨d, ds, hds⟩ := List.exists_cons_of_ne_nil (Nat.toDigits_ne_nil (n := k) (b := 10))
      have hdigit := isDigit_of_toDigits hds
      refine ⟨d, ds, (toList_toString_ofNat k).trans hds, isBlank_of_isDigit hdigit, ?_⟩
      rintro rfl
      cases hdigit
    | negSucc k => exact ⟨_, _, toList_toString_negSucc k, by decide, by decide⟩
  | str => exact ⟨_, _, rfl, by decide, by decide⟩
  | arr => exact ⟨_, _, rfl, by decide, by decide⟩
  | obj => exact ⟨_, _, rfl, by decide, by decide⟩

/-- The text of a value does not end with a blank. -/
theorem isBlank_getLast?_write {v : Json} (h : Exact v) :
    ∀ c ∈ v.write.getLast?, Text.isBlank c = false := by
  have hdigits : ∀ k, ∀ c ∈ (Nat.toDigits 10 k).getLast?, Text.isBlank c = false := fun k c hc =>
    isBlank_of_isDigit (Nat.isDigit_of_mem_toDigits (by decide) (by decide)
      (List.mem_of_getLast? hc))
  have hconcat : ∀ (cs : List Char) (d : Char), Text.isBlank d = false →
      ∀ c ∈ (cs ++ [d]).getLast?, Text.isBlank c = false := fun cs d hd c hc => by
    rw [List.getLast?_concat] at hc
    exact Option.some.inj hc ▸ hd
  cases h with
  | null => simp [write, Text.isBlank]
  | bool b => cases b <;> simp [write, Text.isBlank]
  | @int n =>
    cases n with
    | ofNat k =>
      rw [write, toList_toString_ofNat]
      exact hdigits k
    | negSucc k =>
      obtain ⟨d, ds, hds⟩ :=
        List.exists_cons_of_ne_nil (Nat.toDigits_ne_nil (n := k + 1) (b := 10))
      have hlast := hdigits (k + 1)
      rw [hds] at hlast
      rw [write, toList_toString_negSucc, hds, List.getLast?_cons_cons]
      exact hlast
  | str s => exact hconcat ('"' :: s.toList.flatMap escapeChar) '"' (by decide)
  | @arr items => exact hconcat ('[' :: writeItems items) ']' (by decide)
  | @obj members => exact hconcat (_ :: writeMembers members) _ (by decide)

/-! ### Values -/

section

variable {d : Nat} {items : List Json} {members : List (String × Json)}

theorem depth_le_itemsDepth {v : Json} (h : v ∈ items) : v.depth ≤ itemsDepth items := by
  induction items with
  | nil => cases h
  | cons w items ih =>
    rcases List.mem_cons.mp h with rfl | hmem
    · exact Nat.le_max_left _ _
    · exact Nat.le_trans (ih hmem) (Nat.le_max_right _ _)

theorem depth_le_membersDepth {m : String × Json} (h : m ∈ members) :
    m.2.depth ≤ membersDepth members := by
  induction members with
  | nil => cases h
  | cons w members ih =>
    rcases List.mem_cons.mp h with rfl | hmem
    · exact Nat.le_max_left _ _
    · exact Nat.le_trans (ih hmem) (Nat.le_max_right _ _)

theorem writeItems_cons_cons (v w : Json) (items : List Json) :
    writeItems (v :: w :: items) = v.write ++ ',' :: writeItems (w :: items) := rfl

theorem writeMembers_cons_cons (m n : String × Json) (members : List (String × Json)) :
    writeMembers (m :: n :: members) =
      writeString m.1 ++ ':' :: m.2.write ++ ',' :: writeMembers (n :: members) := rfl

/-- Every item of a text takes a character at least, and every comma one. -/
theorem length_le_writeItems (items : List Json) :
    items.length ≤ (writeItems items).length + 1 := by
  induction items with
  | nil => exact Nat.zero_le _
  | cons v items ih =>
    cases items with
    | nil => exact Nat.succ_le_succ (Nat.zero_le _)
    | cons w items =>
      rw [writeItems_cons_cons, List.length_cons, List.length_append, List.length_cons (a := ',')]
      omega

theorem length_le_writeMembers (members : List (String × Json)) :
    members.length ≤ (writeMembers members).length + 1 := by
  induction members with
  | nil => exact Nat.zero_le _
  | cons m members ih =>
    cases members with
    | nil => exact Nat.succ_le_succ (Nat.zero_le _)
    | cons n members =>
      rw [writeMembers_cons_cons, List.length_cons, List.length_append, List.length_cons (a := ',')]
      omega

/-- Values that are read back by themselves are read back as the items of an array. -/
theorem items?_writeItems {read : List Char → Option (Json × List Char)} (hne : items ≠ [])
    (h : ∀ v ∈ items, ∀ rest, Ends rest → read (v.write ++ rest) = some (v, rest)) {fuel : Nat}
    (hfuel : items.length ≤ fuel) (rest : List Char) :
    items? read fuel (writeItems items ++ ']' :: rest) = some (items, rest) := by
  have hclose : Ends (']' :: rest) := ends_cons (by decide) (by decide) (by decide) (by decide) rest
  have hcomma : ∀ cs, Ends (',' :: cs) :=
    fun cs => ends_cons (by decide) (by decide) (by decide) (by decide) cs
  induction items generalizing fuel with
  | nil => exact absurd rfl hne
  | cons v items ih =>
    obtain ⟨hv, hitems⟩ := List.forall_mem_cons.mp h
    obtain _ | fuel := fuel
    · cases hfuel
    cases items with
    | nil =>
      rw [writeItems, items?, hv _ hclose]
      rfl
    | cons w items =>
      have hrest := ih (List.cons_ne_nil _ _) hitems (Nat.le_of_succ_le_succ hfuel)
      rw [writeItems_cons_cons, List.append_assoc, List.cons_append, items?, hv _ (hcomma _)]
      simp [skipSpace_cons, isSpace, hrest]

/-- Values that are read back by themselves are read back as the members of an object. -/
theorem members?_writeMembers {read : List Char → Option (Json × List Char)} (hne : members ≠ [])
    (h : ∀ m ∈ members, ∀ rest, Ends rest → read (m.2.write ++ rest) = some (m.2, rest))
    {fuel : Nat} (hfuel : members.length ≤ fuel) (rest : List Char) :
    members? read fuel (writeMembers members ++ '\x7d' :: rest) = some (members, rest) := by
  have hclose : Ends ('\x7d' :: rest) :=
    ends_cons (by decide) (by decide) (by decide) (by decide) rest
  have hcomma : ∀ cs, Ends (',' :: cs) :=
    fun cs => ends_cons (by decide) (by decide) (by decide) (by decide) cs
  induction members generalizing fuel with
  | nil => exact absurd rfl hne
  | cons m members ih =>
    obtain ⟨name, v⟩ := m
    obtain ⟨hv, hmembers⟩ := List.forall_mem_cons.mp h
    obtain _ | fuel := fuel
    · cases hfuel
    have hname : ∀ cs, string? (name.toList.flatMap escapeChar ++ '"' :: cs) =
        some (name.toList, cs) := string?_flatMap_escapeChar name.toList
    cases members with
    | nil =>
      simp only [writeMembers, writeString, members?, List.cons_append, List.append_assoc,
        List.nil_append]
      simp [skipSpace_cons, isSpace, hname, hv _ hclose]
    | cons n members =>
      have hrest := ih (List.cons_ne_nil _ _) hmembers (Nat.le_of_succ_le_succ hfuel)
      simp only [writeMembers, writeString, members?, List.cons_append, List.append_assoc,
        List.nil_append]
      simp [skipSpace_cons, isSpace, hname, hv _ (hcomma _), hrest]

/-- Members in the order of their names are the members of the object that is made of them. -/
theorem ofMembers_of_sorted (h : SortedByName members) : ofMembers members = .obj members :=
  congrArg Json.obj h.foldl_insert

/-! ### Whole values -/

/-- What does not look like an array or an object is read in the same way at every depth. -/
theorem value?_of_scalar {c : Char} (hspace : isSpace c = false) (harr : c ≠ '[')
    (hobj : c ≠ '\x7b') (cs : List Char) (d : Nat) :
    value? d (c :: cs) = scalarValue? (c :: cs) := by
  have hskip := skipSpace_cons hspace cs
  cases d with
  | zero =>
    rw [value?, hskip]
    split
    · next h => exact absurd (List.cons.inj h).1 harr
    · next h => exact absurd (List.cons.inj h).1 hobj
    · rfl
  | succ d =>
    rw [value?, hskip]
    split
    · next h => exact absurd (List.cons.inj h).1 harr
    · next h => exact absurd (List.cons.inj h).1 hobj
    · rfl

theorem value?_write_int {n : Int} (hlow : -(Word.half : Int) ≤ n) (hhigh : n < Word.count)
    {rest : List Char} (hrest : Ends rest) (d : Nat) :
    value? d ((toString n).toList ++ rest) = some (.int n, rest) := by
  have hread := scalarValue?_int hlow hhigh hrest
  have hnumber : ∃ c cs, (toString n).toList = c :: cs ∧ isSpace c = false ∧ c ≠ '[' ∧
      c ≠ '\x7b' := by
    cases n with
    | ofNat k =>
      obtain ⟨c, cs, hcs⟩ := List.exists_cons_of_ne_nil (Nat.toDigits_ne_nil (n := k) (b := 10))
      have hdigit := isDigit_of_toDigits hcs
      refine ⟨c, cs, (toList_toString_ofNat k).trans hcs,
        isSpace_of_not_isBlank (isBlank_of_isDigit hdigit), ?_, ?_⟩
      · rintro rfl
        cases hdigit
      · rintro rfl
        cases hdigit
    | negSucc k => exact ⟨_, _, toList_toString_negSucc k, by decide, by decide, by decide⟩
  obtain ⟨c, cs, htext, hspace, harr, hobj⟩ := hnumber
  rw [htext, List.cons_append] at hread ⊢
  rw [value?_of_scalar hspace harr hobj, hread]

theorem value?_write_str (s : String) (rest : List Char) (d : Nat) :
    value? d (writeString s ++ rest) = some (.str s, rest) := by
  have hread := string?_flatMap_escapeChar s.toList rest
  rw [writeString, List.cons_append, List.cons_append,
    value?_of_scalar (by decide) (by decide) (by decide), scalarValue?, List.append_assoc,
    List.singleton_append, hread, Option.map_some]
  simp only [String.ofList_toList]

/-- An array is read back if its items are. -/
theorem value?_write_arr (h : ∀ v ∈ items, Exact v)
    (hread : ∀ v ∈ items, ∀ rest, Ends rest → value? d (v.write ++ rest) = some (v, rest))
    (rest : List Char) : value? (d + 1) (write (.arr items) ++ rest) = some (.arr items, rest) := by
  cases items with
  | nil => rfl
  | cons v items =>
    obtain ⟨c, cs, htext, hblank, hclose⟩ := exists_cons_write (h v List.mem_cons_self)
    have hfirst : ∃ cs, writeItems (v :: items) ++ ']' :: rest = c :: cs := by
      cases items with
      | nil => exact ⟨_, by rw [writeItems, htext]; rfl⟩
      | cons w items => exact ⟨_, by rw [writeItems_cons_cons, htext]; rfl⟩
    obtain ⟨cs, hfirst⟩ := hfirst
    have hskip := skipSpace_cons (isSpace_of_not_isBlank hblank) cs
    have hfuel : (v :: items).length ≤ (writeItems (v :: items) ++ ']' :: rest).length + 1 := by
      have hlen := length_le_writeItems (v :: items)
      rw [List.length_append]
      omega
    have hitems := items?_writeItems (List.cons_ne_nil v items) hread hfuel rest
    rw [write, List.cons_append, List.cons_append, List.append_assoc, List.singleton_append, value?,
      skipSpace_cons (by decide)]
    simp only
    rw [hfirst] at hitems ⊢
    rw [hskip]
    split
    · next heq => exact absurd (List.cons.inj heq).1 hclose
    · rw [hitems, Option.map_some]

/-- An object is read back if its members are, which stand in the order of their names. -/
theorem value?_write_obj (hsorted : SortedByName members)
    (hread : ∀ m ∈ members, ∀ rest, Ends rest → value? d (m.2.write ++ rest) = some (m.2, rest))
    (rest : List Char) :
    value? (d + 1) (write (.obj members) ++ rest) = some (.obj members, rest) := by
  cases members with
  | nil => rfl
  | cons m members =>
    have hfirst : ∃ cs, writeMembers (m :: members) ++ '\x7d' :: rest = '"' :: cs := by
      cases members with
      | nil => exact ⟨_, rfl⟩
      | cons n members => exact ⟨_, rfl⟩
    obtain ⟨cs, hfirst⟩ := hfirst
    have hfuel : (m :: members).length ≤
        (writeMembers (m :: members) ++ '\x7d' :: rest).length + 1 := by
      have hlen := length_le_writeMembers (m :: members)
      rw [List.length_append]
      omega
    have hmembers := members?_writeMembers (List.cons_ne_nil m members) hread hfuel rest
    rw [write, List.cons_append, List.cons_append, List.append_assoc, List.singleton_append, value?,
      skipSpace_cons (by decide)]
    simp only
    rw [hfirst] at hmembers ⊢
    rw [skipSpace_cons (by decide), hmembers, Option.map_some]
    exact congrArg (fun v => some (v, rest)) (ofMembers_of_sorted hsorted)

/-- Every value is read back from its text, if it may be nested so deeply and what follows does not
go on as a number does. -/
theorem value?_write {v : Json} (h : Exact v) (hdepth : v.depth ≤ d) {rest : List Char}
    (hrest : Ends rest) : value? d (v.write ++ rest) = some (v, rest) := by
  induction d generalizing v rest with
  | zero =>
    cases h with
    | null => rfl
    | bool b => cases b <;> rfl
    | int hlow hhigh => exact value?_write_int hlow hhigh hrest 0
    | str s => exact value?_write_str s rest 0
    | arr => cases hdepth
    | obj => cases hdepth
  | succ d ih =>
    cases h with
    | null => rfl
    | bool b => cases b <;> rfl
    | int hlow hhigh => exact value?_write_int hlow hhigh hrest (d + 1)
    | str s => exact value?_write_str s rest (d + 1)
    | arr hitems =>
      have hd := Nat.le_of_succ_le_succ hdepth
      refine value?_write_arr hitems (fun v hv rest hrest => ?_) rest
      exact ih (hitems v hv) (Nat.le_trans (depth_le_itemsDepth hv) hd) hrest
    | obj hsorted hmembers =>
      have hd := Nat.le_of_succ_le_succ hdepth
      refine value?_write_obj hsorted (fun m hm rest hrest => ?_) rest
      exact ih (hmembers m hm) (Nat.le_trans (depth_le_membersDepth hm) hd) hrest

end

/-- A value that is nested no deeper than the reader goes is read back from its text. -/
theorem read?_write {v : Json} (h : Exact v) (hdepth : v.depth ≤ maxDepth) :
    read? v.write = some v := by
  have hread := value?_write h hdepth ends_nil
  rw [List.append_nil] at hread
  rw [read?, readNested?, hread, Option.bind_eq_bind, Option.bind_some]
  rfl

end Json

end LanguageHost
