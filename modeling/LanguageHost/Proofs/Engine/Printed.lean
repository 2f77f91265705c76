import LanguageHost.Engine.Child
import LanguageHost.Proofs.Json.RoundTrip
import LanguageHost.Proofs.Keyed

/-!
# What a child prints and what it is given

What a child prints is decoded, taken between its blanks and read as a value.  If it is the text of
a value, then it is this value again, whatever blanks stand around it
(`outcome_of_printed`).  The arguments of a call are the text of one array in the environment of the
child (`Spawn.finds_args`).  A variable that the settings ask for under the same name gives way to
it, but one may be named like that variable together with a value.  Unless there is such a name, the
child finds nothing but its arguments (`Spawn.eq_of_finds`).
-/

namespace LanguageHost

/-- What a child leaves behind that exits with success after it has printed a text. -/
def ChildOutput.printed (text : List Char) (err : List UInt8) : ChildOutput :=
  ⟨.code 0, Text.Utf8.encode text, err⟩

/-- The text of a value is the value again, without the blanks around it. -/
theorem printedValue_of_write {v : Json} (h : v.Exact) (hdepth : v.depth ≤ Json.maxDepth)
    {before after : List Char} (hbefore : ∀ c ∈ before, Text.isBlank c = true)
    (hafter : ∀ c ∈ after, Text.isBlank c = true) :
    printedValue (trimmedText (Text.Utf8.encode (before ++ v.write ++ after))) = v := by
  obtain ⟨c, cs, htext, hblank, -⟩ := Json.exists_cons_write h
  have hhead : ∀ d ∈ v.write.head?, Text.isBlank d = false := by
    rw [htext]
    rintro d hd
    exact Option.some.inj hd ▸ hblank
  have hstrip : Text.stripBlanks (before ++ v.write ++ after) = v.write :=
    Text.stripBlanks_surrounded hbefore hafter hhead (Json.isBlank_getLast?_write h)
      (htext ▸ List.cons_ne_nil c cs)
  have hsaid : (String.ofList v.write).isEmpty = false := by
    rw [Bool.eq_false_iff, ne_eq, String.isEmpty_iff, ← String.toList_eq_nil_iff,
      String.toList_ofList, htext]
    exact List.cons_ne_nil c cs
  rw [trimmedText, Text.Utf8.decodeLossy_encode, hstrip, printedValue, hsaid, if_neg (by decide),
    String.toList_ofList, Json.read?_write h hdepth, Option.getD_some]

/-- The outcome of a call whose child has printed a value. -/
theorem outcome_of_printed {v : Json} (h : v.Exact) (hdepth : v.depth ≤ Json.maxDepth)
    {before after : List Char} (hbefore : ∀ c ∈ before, Text.isBlank c = true)
    (hafter : ∀ c ∈ after, Text.isBlank c = true) (err : List UInt8) (runtime : String) :
    (ChildOutput.printed (before ++ v.write ++ after) err).outcome runtime = .ok v := by
  have hvalue := printedValue_of_write h hdepth hbefore hafter
  exact congrArg Except.ok hvalue

namespace Spawn

/-- A process may find a text in a variable.  Where there are two texts, some programs take the first
one and others the last one. -/
def Finds (spawn : Spawn) (name text : String) : Prop := name ++ "=" ++ text ∈ spawn.variableTexts

/-- No name begins like a text of the variable of the arguments. -/
def Clear (spawn : Spawn) : Prop :=
  ∀ name ∈ spawn.environment.keys, ¬ argsVariable.toList ++ ['='] <+: name.toList

variable (language : Language) (settings : RuntimeSettings) (program : String) (args : List Json)

/-- The arguments of a call are in the environment of its child, whatever the settings ask for. -/
theorem environment_of_args : (of language settings program args).environment.get? argsVariable =
    some (Json.arr args).render := by
  rw [of, Dict.get?_insert, if_pos rfl]

theorem finds_args :
    (of language settings program args).Finds argsVariable (Json.arr args).render :=
  List.mem_map.mpr ⟨_, Dict.mem_entries_iff.mpr (environment_of_args ..), rfl⟩

/-- A variable whose text is read as one of the arguments has the name of the arguments, or a name
that begins like such a text. -/
theorem eq_of_text_eq {name value text : String}
    (h : name ++ "=" ++ value = argsVariable ++ "=" ++ text)
    (hname : ¬ argsVariable.toList ++ ['='] <+: name.toList) :
    name = argsVariable ∧ value = text := by
  have hplain : '=' ∉ argsVariable.toList := by decide
  have hlists : name.toList ++ '=' :: value.toList = argsVariable.toList ++ '=' :: text.toList := by
    simpa using congrArg String.toList h
  have hsame : name.toList = argsVariable.toList := by
    rcases List.append_eq_append_iff.mp hlists with ⟨rest, hargs, hrest⟩ | ⟨rest, hlonger, hrest⟩
    · cases rest with
      | nil => simpa using hargs.symm
      | cons c rest =>
        obtain ⟨rfl, -⟩ := List.cons.inj hrest
        exact absurd (hargs ▸ List.mem_append_right _ List.mem_cons_self) hplain
    · cases rest with
      | nil => simpa using hlonger
      | cons c rest =>
        obtain ⟨rfl, -⟩ := List.cons.inj hrest
        exact absurd ⟨rest, by rw [hlonger, List.append_assoc, List.singleton_append]⟩ hname
  rw [hsame] at hlists
  obtain ⟨-, hvalue⟩ := List.cons.inj (List.append_cancel_left hlists)
  exact ⟨String.toList_inj.mp hsame, String.toList_inj.mp hvalue⟩

/-- A child finds nothing but its arguments. -/
theorem eq_of_finds {text : String} (hclear : (of language settings program args).Clear)
    (h : (of language settings program args).Finds argsVariable text) :
    text = (Json.arr args).render := by
  obtain ⟨⟨name, value⟩, hentry, heq⟩ := List.mem_map.mp h
  have hname := Dict.mem_keys.mpr ⟨value, Dict.mem_entries_iff.mp hentry⟩
  obtain ⟨rfl, rfl⟩ := eq_of_text_eq heq (hclear name hname)
  have hvalue := Dict.mem_entries_iff.mp hentry
  rw [environment_of_args] at hvalue
  exact (Option.some.inj hvalue).symm

end Spawn

/-- Arguments that are nested one level less than values may be. -/
theorem exact_args {args : List Json} (h : ∀ v ∈ args, v.Exact)
    (hdepth : ∀ v ∈ args, v.depth < Json.maxDepth) :
    (Json.arr args).Exact ∧ (Json.arr args).depth ≤ Json.maxDepth := by
  refine ⟨.arr h, ?_⟩
  have hall : Json.itemsDepth args < Json.maxDepth := by
    clear h
    induction args with
    | nil => decide
    | cons v args ih =>
      obtain ⟨hv, hargs⟩ := List.forall_mem_cons.mp hdepth
      exact Nat.max_lt.mpr ⟨hv, ih hargs⟩
  exact hall

end LanguageHost
