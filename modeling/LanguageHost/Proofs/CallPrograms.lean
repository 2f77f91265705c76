import Mathlib.Data.List.TakeWhile
import LanguageHost.Proofs.Text.Printed
import LanguageHost.Proofs.Host.Spawns
import LanguageHost.Proofs.Host.Verdicts

/-!
# Programs that call a function

The name of a function is put into a program as it is, so what it may look like decides what can get
into a program.  The names that are accepted are plain names joined by dots (`FunctionName`,
`isFunctionName_iff`); a plain name is made of Latin letters, digits and underscores.

A program is a frame that depends on the language and the function, around the script
(`Language.Carries`).  The name stands in the part behind the script, between two fixed texts; so
the programs of one script tell the functions apart (`Language.function_eq_of_callProgram`).  A name
that is not accepted gets no further: an interpreter that is asked to call it is given no work
(`Host.step_of_call`).
-/

namespace LanguageHost

/-! ### Function names -/

/-- A Latin letter or an underscore. -/
def NameStart (c : Char) : Prop := 'A' ≤ c ∧ c ≤ 'Z' ∨ 'a' ≤ c ∧ c ≤ 'z' ∨ c = '_'

/-- A Latin letter, a digit or an underscore. -/
def NamePart (c : Char) : Prop := NameStart c ∨ '0' ≤ c ∧ c ≤ '9'

/-- A plain name begins with a letter or an underscore and has no other characters than letters,
digits and underscores. -/
inductive PlainName : String → Prop where
  | intro {c : Char} {rest : List Char} (hc : NameStart c) (hrest : ∀ d ∈ rest, NamePart d) :
      PlainName (String.ofList (c :: rest))

/-- A function is named by one or more plain names with dots between them. -/
def FunctionName (s : String) : Prop :=
  ∃ parts : List String, parts ≠ [] ∧ (∀ part ∈ parts, PlainName part) ∧
    s = ".".intercalate parts

section Names

variable {c : Char} {cs : List Char} {s : String}

theorem isNameStart_iff : isNameStart c = true ↔ NameStart c := by
  have hupper : c.isUpper = decide ('A' ≤ c ∧ c ≤ 'Z') := rfl
  have hlower : c.isLower = (decide ('a' ≤ c) && decide (c ≤ 'z')) := rfl
  have halpha : c.isAlpha = (c.isUpper || c.isLower) := rfl
  simp only [isNameStart, NameStart, halpha, hupper, hlower, Bool.or_eq_true, Bool.and_eq_true,
    decide_eq_true_eq, or_assoc]

theorem isNamePart_iff : isNamePart c = true ↔ NamePart c := by
  rw [NamePart, ← isNameStart_iff]
  simp only [isNamePart, isNameStart, Char.isAlphanum, Char.isDigit, Bool.or_eq_true,
    Bool.and_eq_true, decide_eq_true_eq, ge_iff_le, Char.le_def, or_right_comm]

theorem isPlainName_iff : isPlainName cs = true ↔ PlainName (String.ofList cs) := by
  constructor
  · intro h
    cases cs with
    | nil => cases h
    | cons c rest =>
      obtain ⟨hc, hrest⟩ := Bool.and_eq_true_iff.mp h
      exact .intro (isNameStart_iff.mp hc) fun d hd =>
        isNamePart_iff.mp (List.all_eq_true.mp hrest d hd)
  · generalize hs : String.ofList cs = s
    rintro ⟨hc, hrest⟩
    obtain rfl := String.ofList_injective hs
    exact Bool.and_eq_true_iff.mpr ⟨isNameStart_iff.mpr hc,
      List.all_eq_true.mpr fun d hd => isNamePart_iff.mpr (hrest d hd)⟩

/-- The characters of a name come from three ranges, or are underscores. -/
theorem NamePart.bounds (h : NamePart c) :
    65 ≤ c.toNat ∧ c.toNat ≤ 90 ∨ 97 ≤ c.toNat ∧ c.toNat ≤ 122 ∨ c.toNat = 95 ∨
      48 ≤ c.toNat ∧ c.toNat ≤ 57 := by
  rcases h with (h | h | rfl) | h
  · exact .inl h
  · exact .inr (.inl h)
  · exact .inr (.inr (.inl rfl))
  · exact .inr (.inr (.inr h))

theorem PlainName.namePart (h : PlainName s) (hc : c ∈ s.toList) : NamePart c := by
  obtain ⟨hfirst, hrest⟩ := h
  rw [String.toList_ofList] at hc
  rcases List.mem_cons.mp hc with rfl | hc
  · exact .inl hfirst
  · exact hrest c hc

theorem not_namePart_dot : ¬ NamePart '.' := fun h => by
  have := h.bounds
  simp at this

theorem dotParts_ne_nil (cs : List Char) : dotParts cs ≠ [] := by
  cases cs with
  | nil => exact List.cons_ne_nil _ _
  | cons c rest =>
    unfold dotParts
    split
    · exact List.cons_ne_nil _ _
    · split <;> exact List.cons_ne_nil _ _

/-- What is no dot stands in a part. -/
theorem mem_dotParts (hc : c ∈ cs) : c = '.' ∨ ∃ part ∈ dotParts cs, c ∈ part := by
  induction cs with
  | nil => cases hc
  | cons d rest ih =>
    rw [dotParts]
    by_cases hd : d = '.'
    · rw [if_pos hd]
      rcases List.mem_cons.mp hc with rfl | hc
      · exact .inl hd
      · exact (ih hc).imp_right fun ⟨part, hpart, hmem⟩ =>
          ⟨part, List.mem_cons_of_mem _ hpart, hmem⟩
    · rw [if_neg hd]
      cases hparts : dotParts rest with
      | nil => exact absurd hparts (dotParts_ne_nil rest)
      | cons part parts =>
        rw [hparts] at ih
        rcases List.mem_cons.mp hc with rfl | hc
        · exact .inr ⟨_, List.mem_cons_self, List.mem_cons_self⟩
        · refine (ih hc).imp_right fun ⟨other, hother, hmem⟩ => ?_
          rcases List.mem_cons.mp hother with rfl | hother
          · exact ⟨_, List.mem_cons_self, List.mem_cons_of_mem _ hmem⟩
          · exact ⟨other, List.mem_cons_of_mem _ hother, hmem⟩

/-- The parts of a text between dots are what the text is split into at the dots. -/
theorem dotParts_eq_splitOn (cs : List Char) : dotParts cs = cs.splitOn '.' := by
  induction cs with
  | nil => rfl
  | cons c rest ih =>
    rw [dotParts, List.splitOn, List.splitOnP_cons_eq_if_modifyHead, ← List.splitOn, ← ih]
    by_cases hc : c = '.'
    · simp [hc]
    · rw [if_neg hc, if_neg (by simpa using hc)]
      cases hparts : dotParts rest with
      | nil => exact absurd hparts (dotParts_ne_nil rest)
      | cons part parts => rfl

/-- The names that are accepted are plain names joined by dots. -/
theorem isFunctionName_iff : isFunctionName s = true ↔ FunctionName s := by
  rw [isFunctionName, dotParts_eq_splitOn]
  constructor
  · intro h
    refine ⟨(s.toList.splitOn '.').map String.ofList, ?_, ?_, ?_⟩
    · simp
    · intro part hpart
      obtain ⟨cs, hcs, rfl⟩ := List.mem_map.mp hpart
      exact isPlainName_iff.mp (List.all_eq_true.mp h cs hcs)
    · refine String.toList_injective ?_
      rw [String.toList_intercalate, List.map_map]
      have hsame : String.toList ∘ String.ofList = id := funext fun _ => String.toList_ofList
      rw [hsame, List.map_id]
      exact (List.intercalate_splitOn '.').symm
  · rintro ⟨parts, hne, hparts, rfl⟩
    have hnodot : ∀ cs ∈ parts.map String.toList, '.' ∉ cs := fun cs hcs hdot => by
      obtain ⟨part, hpart, rfl⟩ := List.mem_map.mp hcs
      exact not_namePart_dot ((hparts part hpart).namePart hdot)
    have hsplit : (".".intercalate parts).toList.splitOn '.' = parts.map String.toList := by
      rw [String.toList_intercalate]
      exact List.splitOn_intercalate '.' hnodot (by simpa using hne)
    rw [hsplit]
    refine List.all_eq_true.mpr fun cs hcs => ?_
    obtain ⟨part, hpart, rfl⟩ := List.mem_map.mp hcs
    exact isPlainName_iff.mpr (String.ofList_toList.symm ▸ hparts part hpart)

/-- What may end a name in a program: quotes and parentheses. -/
def delimiters : List Char := "\"'`()".toList

/-- Nothing in a text ends a name in a program.  The blanks are those of Unicode, line breaks
included. -/
structure Harmless (s : String) : Prop where
  delimiter : ∀ c ∈ s.toList, c ∉ delimiters
  blank : ∀ c ∈ s.toList, Text.isBlank c = false
  ascii : ∀ c ∈ s.toList, c.toNat < 128
  /-- Between dots there is something. -/
  part : ∀ part ∈ s.toList.splitOn '.', part ≠ []

/-- The characters of a function name are those of plain names, and dots. -/
theorem FunctionName.dot_or_namePart (h : FunctionName s) (hc : c ∈ s.toList) :
    c = '.' ∨ NamePart c := by
  refine (mem_dotParts hc).imp_right fun ⟨part, hpart, hmem⟩ => ?_
  have hplain := List.all_eq_true.mp (isFunctionName_iff.mpr h) part hpart
  exact (isPlainName_iff.mp hplain).namePart (String.toList_ofList.symm ▸ hmem)

theorem FunctionName.harmless (h : FunctionName s) : Harmless s := by
  have hbounds : ∀ c ∈ s.toList, 65 ≤ c.toNat ∧ c.toNat ≤ 90 ∨ 97 ≤ c.toNat ∧ c.toNat ≤ 122 ∨
      c.toNat = 95 ∨ 48 ≤ c.toNat ∧ c.toNat ≤ 57 ∨ c.toNat = 46 := fun c hc => by
    rcases h.dot_or_namePart hc with rfl | hpart
    · simp
    · have := hpart.bounds
      omega
  refine ⟨fun c hc hmem => ?_, fun c hc => ?_, fun c hc => ?_, fun part hpart hempty => ?_⟩
  · have hends : c.toNat ∈ delimiters.map Char.toNat := List.mem_map_of_mem hmem
    have hcodes : delimiters.map Char.toNat = [34, 39, 96, 40, 41] := by decide
    have hc := hbounds c hc
    simp only [hcodes, List.mem_cons, List.not_mem_nil, or_false] at hends
    omega
  · have hc := hbounds c hc
    simp only [Text.isBlank, Bool.or_eq_false_iff, Bool.and_eq_false_iff, decide_eq_false_iff_not,
      beq_eq_false_iff_ne]
    omega
  · have hc := hbounds c hc
    omega
  · have hplain : isFunctionName s = true := isFunctionName_iff.mpr h
    rw [isFunctionName, dotParts_eq_splitOn] at hplain
    have := List.all_eq_true.mp hplain part hpart
    rw [hempty] at this
    cases this

end Names

/-! ### What stands around a script -/

/-- The text of a script that stands in a program.  It is the script as it is, but for PHP without
the blanks in front and without one opening tag behind them. -/
inductive Language.Carries : Language → String → String → Prop where
  | whole {language : Language} {script : String} (h : language ≠ .php) :
      Carries language script script
  | tagged {blanks text : String} (hblanks : ∀ c ∈ blanks.toList, Text.isBlank c = true) :
      Carries .php (blanks ++ "<?php" ++ text) text
  | plain {blanks text : String} (hblanks : ∀ c ∈ blanks.toList, Text.isBlank c = true)
      (hfront : ∀ c ∈ text.toList.head?, Text.isBlank c = false)
      (htag : ¬ "<?php".toList <+: text.toList) : Carries .php (blanks ++ text) text

namespace Language

variable {language : Language} {script text blanks function function' program : String}

theorem body_of_ne (h : language ≠ .php) : language.body script = script := by
  cases language with
  | php => exact absurd rfl h
  | _ => rfl

/-- Blanks in front of a PHP script are left out. -/
theorem body_blanks (hblanks : ∀ c ∈ blanks.toList, Text.isBlank c = true) (script : String) :
    php.body (blanks ++ script) = php.body script := by
  simp only [body, String.toList_append, Text.dropBlanks_append hblanks]

/-- An opening tag at the front of a PHP script is left out. -/
theorem body_tag (text : String) : php.body ("<?php" ++ text) = text := by
  have htag : ("<?php" ++ text).toList = openTag ++ text.toList := String.toList_append
  have hfront : ∀ c ∈ (openTag ++ text.toList).head?, Text.isBlank c = false := by
    simp [openTag, Text.isBlank]
  rw [body, htag, Text.dropBlanks_of_head hfront, dropOpenTag, if_pos (by simp),
    List.drop_left, String.ofList_toList]

theorem body_plain (hfront : ∀ c ∈ text.toList.head?, Text.isBlank c = false)
    (htag : ¬ "<?php".toList <+: text.toList) : php.body text = text := by
  have hno : ¬ openTag.isPrefixOf text.toList = true := fun h =>
    htag (List.isPrefixOf_iff_prefix.mp h)
  rw [body, Text.dropBlanks_of_head hfront, dropOpenTag, if_neg hno, String.ofList_toList]

theorem Carries.eq_body (h : language.Carries script text) : text = language.body script := by
  cases h with
  | whole h => exact (body_of_ne h).symm
  | tagged hblanks => rw [String.append_assoc, body_blanks hblanks, body_tag]
  | plain hblanks hfront htag => rw [body_blanks hblanks, body_plain hfront htag]

/-- Every script has a text that programs carry. -/
theorem carries_body (language : Language) (script : String) :
    language.Carries script (language.body script) := by
  by_cases hphp : language = php
  · subst hphp
    obtain ⟨blanks, rest, hscript, hblanks, hfront⟩ : ∃ blanks rest, script = blanks ++ rest ∧
        (∀ c ∈ blanks.toList, Text.isBlank c = true) ∧
        ∀ c ∈ rest.toList.head?, Text.isBlank c = false := by
      refine ⟨String.ofList (script.toList.takeWhile Text.isBlank),
        String.ofList (script.toList.dropWhile Text.isBlank), ?_, fun c hc => ?_, fun c hc => ?_⟩
      · rw [← String.ofList_append, List.takeWhile_append_dropWhile, String.ofList_toList]
      · rw [String.toList_ofList] at hc
        exact List.mem_takeWhile_imp hc
      · rw [String.toList_ofList] at hc
        have hnot := List.head?_dropWhile_not Text.isBlank script.toList
        rw [hc] at hnot
        simpa using hnot
    subst hscript
    rw [body_blanks hblanks]
    by_cases htag : "<?php".toList <+: rest.toList
    · obtain ⟨text, htext⟩ := htag
      obtain rfl : rest = "<?php" ++ String.ofList text := String.toList_injective (by
        rw [← htext]
        simp)
      rw [body_tag, ← String.append_assoc]
      exact .tagged hblanks
    · rw [body_plain hfront htag]
      exact .plain hblanks hfront htag
  · rw [body_of_ne hphp]
    exact .whole hphp

/-- The text behind a script has the name of the function between two fixed texts, and the text in
front of it does not depend on the function. -/
theorem exists_envelope (language : Language) : ∃ before lead trail : String,
    ∀ function, language.envelope function = ⟨before, lead ++ function ++ trail⟩ := by
  cases language with
  | python => exact ⟨_, _, _, fun function => by
      simp only [envelope, String.append_assoc]
      rfl⟩
  | javascript => exact ⟨_, _, _, fun function => by
      simp only [envelope, String.append_assoc]
      rfl⟩
  | ruby => exact ⟨_, _, _, fun function => by
      simp only [envelope, String.append_assoc]
      rfl⟩
  | php => exact ⟨_, _, _, fun function => by
      simp only [envelope, String.append_assoc]
      rfl⟩

theorem callProgram_of_name (h : FunctionName function) (language : Language) (script : String) :
    language.callProgram script function =
      .ok ((language.envelope function).before ++ language.body script ++
        (language.envelope function).after) := by
  rw [callProgram, if_pos (isFunctionName_iff.mpr h)]

theorem callProgram_of_not_name (h : ¬ FunctionName function) (language : Language)
    (script : String) : language.callProgram script function = .error
      (.executionFailed language.name ("invalid function name: " ++ Text.quote function)) := by
  rw [callProgram, if_neg (mt isFunctionName_iff.mp h)]

theorem functionName_of_callProgram (h : language.callProgram script function = .ok program) :
    FunctionName function := by
  by_contra hnot
  cases (callProgram_of_not_name hnot language script).symm.trans h

/-- The programs of one script tell the functions apart. -/
theorem function_eq_of_callProgram (h : language.callProgram script function = .ok program)
    (h' : language.callProgram script function' = .ok program) : function = function' := by
  have hname := functionName_of_callProgram h
  have hname' := functionName_of_callProgram h'
  obtain ⟨before, lead, trail, henvelope⟩ := language.exists_envelope
  rw [callProgram_of_name hname, henvelope] at h
  rw [callProgram_of_name hname', henvelope] at h'
  have hsame : lead ++ function ++ trail = lead ++ function' ++ trail :=
    (String.append_right_inj _).mp (Except.ok.inj (h.trans h'.symm))
  exact (String.append_right_inj _).mp ((String.append_left_inj _).mp hsame)

end Language

/-! ### Calls that are handed to an interpreter -/

section Calls

variable {e : Engine} {language : Language} {function : String} {args : List Json}

/-- An interpreter that cannot make a program for a call fails and is left as it is. -/
theorem Engine.run_call_of_not_name (hkind : e.kind = .interpreter language)
    (hnot : ¬ FunctionName function) (token : Token) (fired : Bool) :
    ∃ err, e.run (.call function args) token fired = (.done (.error err), e) := by
  cases hrunning : e.lifecycle.running with
  | error err => exact ⟨err, run_of_error hrunning⟩
  | ok s =>
    have hitem : e.itemOf s (.call function args) = .error (.executionFailed language.name
        ("invalid function name: " ++ Text.quote function)) := by
      simp only [itemOf, hkind, Language.callProgram_of_not_name hnot]
      rfl
    exact ⟨_, run_of_itemOf_error hrunning hitem⟩

/-- The work of an interpreter for a call is the process of a program that calls the function. -/
theorem Engine.callProgram_of_itemOf {s : Started} {item : WorkItem}
    (hkind : e.kind = .interpreter language) (h : e.itemOf s (.call function args) = .ok item) :
    ∃ program, language.callProgram s.report.script function = .ok program ∧
      item = .process (.of language s.settings program args) := by
  simp only [itemOf, hkind] at h
  cases hprogram : language.callProgram s.report.script function with
  | error err =>
    rw [hprogram] at h
    cases h
  | ok program =>
    rw [hprogram] at h
    exact ⟨program, rfl, (Except.ok.inj h).symm⟩

namespace Host

variable {h h' : Host} {event : HostEvent} {x : Handing}

/-- An interpreter that is asked to call a function has one more work at most, which is the process
of a program that calls the function.  A call whose function has no proper name has failed at once,
and all engines are as they were. -/
theorem step_of_call (hs : h.step event = some h') (hx : h.handed? event = some x)
    (htask : x.task = .call function args) (he : h.engine? x.engine = some e)
    (hkind : e.kind = .interpreter language) :
    (¬ FunctionName function → h'.engines = h.engines ∧
      ∃ k err, h'.call? x.call = some k ∧ k.stage = .over (.error err)) ∧
    ∀ e', h'.engine? x.engine = some e' → e'.works = e.works ∨
      ∃ s program w, e.lifecycle.started? = some s ∧
        language.callProgram s.report.script function = .ok program ∧
        w.item = .process (.of language s.settings program args) ∧ e'.works = w :: e.works := by
  obtain ⟨g, hg, rfl⟩ := Option.map_eq_some_iff.mp he
  cases hp : h.permits x.engine x.task with
  | false =>
    obtain ⟨-, hengines, -, enforcer, k, -, hk, hstage⟩ := step_of_denied hs hx hg hp
    refine ⟨fun _ => ⟨hengines, k, _, hk, hstage⟩, fun e' he' => .inl ?_⟩
    rw [engine?, hengines] at he'
    rw [Option.some.inj (he.symm.trans he')]
  | true =>
    obtain ⟨-, -, token, k, hengines, hk, hstage⟩ := step_of_permitted hs hx hg hp
    have hforeign : ∀ version, g.engine.kind ≠ .foreign version := fun version hf => by
      cases hkind.symm.trans hf
    rw [(Engine.ask_of_not_foreign hforeign token _ _).2.1, htask] at hengines hstage
    refine ⟨fun hnot => ?_, fun e' he' => ?_⟩
    · obtain ⟨err, hrun⟩ : ∃ err, g.engine.run (.call function args) token (h.hasFired token) =
          (.done (.error err), g.engine) := Engine.run_call_of_not_name hkind hnot token _
      rw [hrun] at hengines hstage
      refine ⟨?_, k, err, hk, hstage⟩
      rw [hengines]
      refine List.ext_getElem? fun r => ?_
      rw [List.getElem?_modify]
      by_cases hr : x.engine = r
      · subst hr
        simp [hg]
      · simp [hr]
    · have he'' : (g.engine.run (.call function args) token (h.hasFired token)).2 = e' := by
        simpa only [engine?, hengines, List.getElem?_modify, if_true, hg, Option.map_eq_map,
          Option.map_some, Option.some.injEq] using he'
      rcases g.engine.run_adds (.call function args) token (h.hasFired token) with
        hsteady | ⟨s, item, hrunning, hitem, -, hrun⟩
      · exact .inl (he'' ▸ hsteady.works_eq)
      · obtain ⟨program, hprogram, hprocess⟩ := Engine.callProgram_of_itemOf hkind hitem
        rw [hrun] at he''
        subst he''
        exact .inr ⟨s, program, ⟨s.pool.asked, token, item⟩,
          (Lifecycle.running_eq_ok_iff.mp hrunning).2, hprogram, hprocess, rfl⟩

end Host

end Calls

/-- How programs of a language call functions: by their names, and by nothing else. -/
structure Language.CallsByName (language : Language) : Prop where
  /-- There is a program for a script and a function just if the function has a proper name. -/
  succeeds : ∀ script function,
    (∃ program, language.callProgram script function = .ok program) ↔ FunctionName function
  fails : ∀ script function, ¬ FunctionName function → language.callProgram script function =
    .error (.executionFailed language.name ("invalid function name: " ++ Text.quote function))
  carries : ∀ script, ∃! text, language.Carries script text
  /-- The text around a script depends on the function, but not on the script. -/
  framed : ∀ function, FunctionName function → ∃ before after, ∀ script text,
    language.Carries script text →
      language.callProgram script function = .ok (before ++ text ++ after)
  blanks : language = .php → ∀ blanks script function,
    (∀ c ∈ blanks.toList, Text.isBlank c = true) →
      language.callProgram (blanks ++ script) function = language.callProgram script function
  tag : language = .php → ∀ script function,
    (∀ c ∈ script.toList.head?, Text.isBlank c = false) → ¬ "<?php".toList <+: script.toList →
      language.callProgram ("<?php" ++ script) function = language.callProgram script function
  tells_apart : ∀ script function function' program,
    language.callProgram script function = .ok program →
      language.callProgram script function' = .ok program → function = function'
  harmless : ∀ script function program,
    language.callProgram script function = .ok program → Harmless function
  /-- A function gets to an interpreter in such a program only. -/
  handed : ∀ (h : Host) event h' x e function args, h.step event = some h' →
    h.handed? event = some x → x.task = .call function args → h.engine? x.engine = some e →
      e.kind = .interpreter language →
        (¬ FunctionName function → h'.engines = h.engines ∧
          ∃ k err, h'.call? x.call = some k ∧ k.stage = .over (.error err)) ∧
        ∀ e', h'.engine? x.engine = some e' → e'.works = e.works ∨
          ∃ s program w, e.lifecycle.started? = some s ∧
            language.callProgram s.report.script function = .ok program ∧
            w.item = .process (.of language s.settings program args) ∧ e'.works = w :: e.works

namespace Language

/-- Functions are called by proper names only, in all languages. -/
theorem calls_by_name (language : Language) : language.CallsByName where
  succeeds := fun script _ => ⟨fun ⟨_, h⟩ => functionName_of_callProgram h,
    fun h => ⟨_, callProgram_of_name h language script⟩⟩
  fails := fun script _ hnot => callProgram_of_not_name hnot language script
  carries := fun script => ⟨_, language.carries_body script, fun _ h => h.eq_body⟩
  framed := fun function hname => ⟨_, _, fun script text h => by
    rw [h.eq_body]
    exact callProgram_of_name hname language script⟩
  blanks := by
    rintro rfl blanks script function hblanks
    simp only [callProgram, body_blanks hblanks]
  tag := by
    rintro rfl script function hfront htag
    simp only [callProgram, body_tag, body_plain hfront htag]
  tells_apart := fun _ _ _ _ => function_eq_of_callProgram
  harmless := fun _ _ _ h => (functionName_of_callProgram h).harmless
  handed := fun _ _ _ _ _ _ _ hs hx htask he hkind => Host.step_of_call hs hx htask he hkind

/-- A name with a parenthesis gets nowhere, and a PHP script has one opening tag in a program. -/
theorem calls_by_name_of_parenthesis : ∃ h₀ h h' k err before after,
    Host.new default = .ok h₀ ∧
      h₀.run [.make (.interpreter .php) none,
        .ask (.engine 0 (.start (.new "php" "8"))) (.root 0), .prepared 0 (.ok ⟨"8", ""⟩)] =
          some h ∧
      h.step (.ask (.engine 0 (.run (.call "a.f()" []))) (.root 1)) = some h' ∧
      h'.engines = h.engines ∧ h'.call? 1 = some k ∧ k.stage = .over (.error err) ∧
      php.callProgram " \n<?php\ng();" "a.f" = .ok (before ++ "\ng();" ++ after) ∧
      php.callProgram "\ng();" "a.f" = .ok (before ++ "g();" ++ after) := by
  obtain ⟨h₀, h, h', x, e, hnew, hrun, hs, hx, htask, hcall, he, hkind⟩ : ∃ h₀ h h' x e,
      Host.new default = .ok h₀ ∧
        h₀.run [.make (.interpreter .php) none,
          .ask (.engine 0 (.start (.new "php" "8"))) (.root 0), .prepared 0 (.ok ⟨"8", ""⟩)] =
            some h ∧
        h.step (.ask (.engine 0 (.run (.call "a.f()" []))) (.root 1)) = some h' ∧
        h.handed? (.ask (.engine 0 (.run (.call "a.f()" []))) (.root 1)) = some x ∧
        x.task = .call "a.f()" [] ∧ x.call = 1 ∧ h.engine? x.engine = some e ∧
        e.kind = .interpreter .php :=
    ⟨_, _, _, _, _, rfl, rfl, rfl, rfl, rfl, rfl, rfl, rfl⟩
  have hnot : ¬ FunctionName "a.f()" := fun hname => by
    have := isFunctionName_iff.mpr hname
    revert this
    decide +kernel
  have hname : FunctionName "a.f" := isFunctionName_iff.mp (by decide +kernel)
  obtain ⟨hengines, k, err, hk, hstage⟩ :=
    (php.calls_by_name.handed h _ h' x e _ _ hs hx htask he hkind).1 hnot
  obtain ⟨before, after, hframed⟩ := php.calls_by_name.framed "a.f" hname
  exact ⟨h₀, h, h', k, err, before, after, hnew, hrun, hs, hengines, hcall ▸ hk, hstage,
    hframed (" \n" ++ "<?php" ++ "\ng();") _
      (.tagged (List.all_eq_true.mp (by decide))),
    hframed ("\n" ++ "g();") _
      (.plain (List.all_eq_true.mp (by decide))
        (fun c hc => (Option.some.inj hc : 'g' = c) ▸ rfl) (by decide))⟩

end Language

end LanguageHost
