import LanguageHost.Proofs.Host.Cancelled
import LanguageHost.Proofs.Host.OtherTokens
import LanguageHost.Proofs.Host.Replies
import LanguageHost.Proofs.Host.Unguarded

/-!
# A call with other frames around it

A call of a task stands inside of a frame that records its outcome, and there may be races around
that.  As long as the tokens of the races do not fire, the call goes on as if they were not there.
The same holds of the token that the call has: a work may have a token that was made from it, and is
told of the same tokens that fire (`Token.merge_under`).  Two hosts that differ so are beside each
other (`Host.Beside`).  Every event does the same to both (`Beside.step`), but for one: where the
call has nothing but races around it, it still has to return through them.
-/

namespace LanguageHost

namespace Token

variable {token t u : Token} {n : Nat}

/-- The token that is seen where the one made from `token` in the scope `n` is not told from
`token`. -/
def merge (token : Token) (n : Nat) (t : Token) : Token := if t = token.child n then token else t

theorem child_ne (token : Token) (n : Nat) : token ≠ token.child n := fun h => by
  have hscopes : token.scopes = n :: token.scopes := congrArg scopes h
  exact absurd (congrArg List.length hscopes) (by simp)

theorem merge_child (token : Token) (n : Nat) : token.merge n (token.child n) = token := if_pos rfl

theorem merge_self (token : Token) (n : Nat) : token.merge n token = token :=
  if_neg (child_ne token n)

theorem merge_merge (t : Token) : token.merge n (token.merge n t) = token.merge n t := by
  by_cases ht : t = token.child n
  · rw [ht, merge_child, merge_self]
  · have hsame : token.merge n t = t := if_neg ht
    rw [hsame, hsame]

/-- A token that fires takes both along or neither, unless it is the one that was made. -/
theorem merge_under (hu : u ≠ token.child n) (t : Token) :
    (token.merge n t).under u = t.under u := by
  by_cases ht : t = token.child n
  · subst ht
    rw [merge_child, Bool.eq_iff_iff]
    refine ⟨child_under n, fun h => ?_⟩
    simp only [under, child, List.isSuffixOf_iff_suffix] at h ⊢
    rcases List.suffix_cons_iff.mp h with heq | hsuffix
    · exact absurd (congrArg Token.mk heq) hu
    · exact hsuffix
  · rw [show token.merge n t = t from if_neg ht]

/-- Where the token that was made has not been fired by itself, it has fired like the other one. -/
theorem firedBy_child {fired : List Token} (hown : token.child n ∉ fired) :
    (token.child n).firedBy fired = token.firedBy fired := by
  have hunder : ∀ u ∈ fired, (token.child n).under u = token.under u := fun u hu => by
    rw [← merge_under (fun heq => hown (heq ▸ hu)) (token.child n), merge_child]
  rw [firedBy, firedBy, Bool.eq_iff_iff, List.any_eq_true, List.any_eq_true]
  exact exists_congr fun u => and_congr_right fun hu => by rw [hunder u hu]

end Token

/-- A call where a turn gets it. -/
def Call.turned (k : Call) (t : Turn) : Call :=
  { k with frames := t.frames, stage := t.stage, since := t.host.now }

/-- A call with other frames around it, whose stage began at another time. -/
def Call.within (k : Call) (outer : List Frame) (since : Nat) : Call :=
  { k with frames := k.frames ++ outer, since }

/-- A turn with other frames around it. -/
def Turn.within (t : Turn) (outer : List Frame) : Turn := { t with frames := t.frames ++ outer }

/-- Two calls are the same, or one of them has other frames around it. -/
inductive Call.Beside (c : CallId) (outer : List Frame) (k : Call) : Call → Prop where
  | other (hid : k.id ≠ c) : Beside c outer k k
  | within (since : Nat) (hid : k.id = c) (htracked : ∀ f ∈ k.frames, f.isTracked = true)
    (hawake : k.stage.isCalled = false) : Beside c outer k (k.within outer since)

/-- Two hosts are the same, but that a call has other frames around it and that works do not tell
the token apart that was made for it. -/
structure Host.Beside (token : Token) (n : Nat) (c : CallId) (outer : List Frame)
    (h h' : Host) : Prop where
  blur_eq : h'.blur (token.merge n) = h.blur (token.merge n)
  lt_asked : c < h.asked
  calls : List.Forall₂ (Call.Beside c outer) h.calls h'.calls

/-- Two turns of two calls that are beside each other. -/
structure Turn.Beside (token : Token) (n : Nat) (c : CallId) (outer : List Frame) (k k' : Call)
    (t t' : Turn) : Prop where
  blur_eq : t'.host.blur (token.merge n) = t.host.blur (token.merge n)
  call : Call.Beside c outer (k.turned t) (k'.turned t')

namespace Call.Beside

variable {c : CallId} {outer : List Frame} {k k' : Call}

theorem id_eq (hk : Beside c outer k k') : k'.id = k.id := by
  cases hk with
  | other => rfl
  | within => rfl

theorem stage_eq (hk : Beside c outer k k') : k'.stage = k.stage := by
  cases hk with
  | other => rfl
  | within => rfl

end Call.Beside

namespace Host

variable {h h' : Host} {token σ : Token} {n : Nat} {c x : CallId} {k k' : Call} {t t' : Turn}
variable {outer frames : List Frame} {event : HostEvent}

/-! ### A call with other frames around it -/

/-- Races for tokens that have not fired. -/
def Races (h : Host) (outer : List Frame) : Prop :=
  ∀ f ∈ outer, ∃ σ, f = .race σ ∧ h.hasFired σ = false

theorem cutRace_of_races (htracked : ∀ f ∈ frames, f.isTracked = true) (houter : h.Races outer) :
    cutRace h.hasFired (frames ++ outer) = none := by
  refine cutRace_of_not_fired fun σ hmem => ?_
  rcases List.mem_append.mp hmem with hmem | hmem
  · cases htracked _ hmem
  · obtain ⟨σ', heq, hfired⟩ := houter _ hmem
    cases heq
    exact hfired

theorem cutRace_of_tracked (h : Host) (htracked : ∀ f ∈ frames, f.isTracked = true) :
    cutRace h.hasFired frames = none := by
  have hnone : cutRace h.hasFired (frames ++ []) = none := cutRace_of_races htracked nofun
  rwa [List.append_nil] at hnone

theorem goOn_within (h : Host) (k : Call) (outer : List Frame) (since : Nat) :
    h.goOn (k.within outer since) = (h.goOn k).map fun t => t.within outer := by
  have hstage : (k.within outer since).stage = k.stage := rfl
  unfold goOn
  rw [hstage]
  split
  · next r ticket _ =>
    cases h.learn r ticket with
    | none => rfl
    | some learnt => rfl
  · have htoken : (k.within outer since).token = k.token := rfl
    rw [htoken]
    split
    · rw [Option.map_map]
      rfl
    · rfl
  · rfl

/-- A call goes on the same with races around it, unless only they are left. -/
theorem resume_within (houter : h.Races outer) (since : Nat)
    (htracked : ∀ f ∈ k.frames, f.isTracked = true)
    (hleft : k.frames = [] → ∀ result, k.stage = .over result → outer = []) :
    h.resume (k.within outer since) = (h.resume k).map fun t => t.within outer := by
  have hstage : (k.within outer since).stage = k.stage := rfl
  have hframes : (k.within outer since).frames = k.frames ++ outer := rfl
  have hcut : cutRace h.hasFired k.frames = none := h.cutRace_of_tracked htracked
  unfold resume
  rw [hstage, hframes, hcut, cutRace_of_races htracked houter]
  split
  · next result hover =>
    cases hk : k.frames with
    | nil =>
      rw [hleft hk result hover]
      rfl
    | cons f rest =>
      have hf : f.isTracked = true := htracked f (hk ▸ List.mem_cons_self)
      cases f with
      | tracked => rfl
      | _ => cases hf
  · exact goOn_within h k outer since

theorem acted_within (h : Host) (k : Call) (outer : List Frame) (since : Nat)
    (result : Outcome Json) :
    h.acted (k.within outer since) result = (h.acted k result).map fun t => t.within outer := by
  have hstage : (k.within outer since).stage = k.stage := rfl
  unfold acted
  rw [hstage]
  split
  · rfl
  · rfl

theorem finished_within (h : Host) (k : Call) (outer : List Frame) (since : Nat)
    (result : Outcome Json) :
    h.finished (k.within outer since) result =
      (h.finished k result).map fun t => t.within outer := by
  have hstage : (k.within outer since).stage = k.stage := rfl
  unfold finished
  rw [hstage]
  split
  · rfl
  · rfl

theorem prepared_within (h : Host) (k : Call) (outer : List Frame) (since : Nat)
    (report : Outcome StartReport) :
    h.prepared (k.within outer since) report =
      (h.prepared k report).map fun t => t.within outer := by
  have hstage : (k.within outer since).stage = k.stage := rfl
  unfold prepared
  rw [hstage]
  split
  · rw [Option.map_map]
    rfl
  · rfl

/-- Nothing is being started around such a call. -/
theorem timeOut_of_races (hframes : k.frames = frames ++ outer)
    (htracked : ∀ f ∈ frames, f.isTracked = true) (houter : h.Races outer) :
    h.timeOut k = none := by
  have hcut : cutStart h.now k.frames = none := by
    refine cutStart_of_not_starting (fun f hf name limit? rest heq => ?_) h.now
    subst heq
    rcases List.mem_append.mp (hframes ▸ hf) with hf | hf
    · cases htracked _ hf
    · obtain ⟨σ, heq, -⟩ := houter _ hf
      cases heq
  unfold timeOut
  split
  · rfl
  · rw [hcut]
    rfl

/-- What such a call gets to has the frames that were around it, and no function is being called. -/
theorem tracked_resume (htracked : ∀ f ∈ k.frames, f.isTracked = true)
    (ht : h.resume k = some t) :
    (∀ f ∈ t.frames, f.isTracked = true) ∧ t.stage.isCalled = false := by
  cases turns_resume ht with
  | @pass f rest result hstage hframes =>
    rw [hframes] at htracked
    obtain ⟨hf, hrest⟩ := List.forall_mem_cons.mp htracked
    cases f with
    | tracked => exact ⟨hrest, rfl⟩
    | _ => cases hf
  | cut hstage hcut =>
    cases (h.cutRace_of_tracked htracked).symm.trans hcut
  | ends => exact ⟨htracked, rfl⟩

/-! ### Tokens that fire -/

theorem mem_fired_of_fire (hs : h.step (.fire σ) = some h') : σ ∈ h'.fired := by
  cases hs
  exact List.mem_cons_self

/-- What is about no call leaves all calls where they are. -/
theorem calls_of_aside (hevent : event.isOfCall = false) (hs : h.step event = some h') :
    h'.calls = h.calls ∧ h'.asked = h.asked := by
  cases steps_of_step hs with
  | ask => cases hevent
  | turn hk ht =>
    cases ht with
    | ends hends =>
      rcases hends with ⟨rfl, -⟩ | hreport
      · cases hevent
      · have hcall : event.isOfCall = true := by cases event <;> first | rfl | cases hreport
        cases hcall.symm.trans hevent
    | _ => cases hevent
  | drop hleaves => rcases hleaves with rfl | rfl <;> cases hevent
  | aside _ hcalls hasked => exact ⟨hcalls, hasked⟩

/-! ### Turns -/

theorem eq_of_blur {f : Token → Token} (hb : t'.blur f = t.blur f) :
    t'.host.blur f = t.host.blur f ∧ t'.frames = t.frames ∧ t'.stage = t.stage ∧
      t'.host.now = t.host.now := by
  have hhost : t'.host.blur f = t.host.blur f := congrArg (fun t : Turn => t.host) hb
  have hnow : (t'.host.blur f).now = (t.host.blur f).now := congrArg Host.now hhost
  have hframes : (t'.blur f).frames = (t.blur f).frames := congrArg Turn.frames hb
  have hstage : (t'.blur f).stage = (t.blur f).stage := congrArg Turn.stage hb
  exact ⟨hhost, hframes, hstage, hnow⟩

/-- What gives the same is related. -/
theorem rel_of_map_eq {α β γ : Type} {f : α → γ} {g : β → γ} {a? : Option α} {b? : Option β}
    (hmap : b?.map g = a?.map f) : Option.Rel (fun a b => g b = f a) a? b? := by
  cases a? with
  | none =>
    obtain rfl := Option.map_eq_none_iff.mp hmap
    exact .none
  | some a =>
    obtain ⟨b, rfl, hb⟩ := Option.map_eq_some_iff.mp hmap
    exact .some hb

/-- The same call gets to the same place. -/
theorem rel_of_other {t? t?' : Option Turn} (hid : k.id ≠ c)
    (hblur : t?'.map (Turn.blur (token.merge n)) = t?.map (Turn.blur (token.merge n))) :
    Option.Rel (Turn.Beside token n c outer k k) t? t?' := by
  cases rel_of_map_eq hblur with
  | none => exact .none
  | @some t t' heq =>
    obtain ⟨hhost, hframes, hstage, hnow⟩ := eq_of_blur heq
    have hturned : k.turned t' = k.turned t := by
      rw [Call.turned, Call.turned, hframes, hstage, hnow]
    exact .some ⟨hhost, hturned.symm ▸ .other hid⟩

/-- A call with other frames around it gets to the same place. -/
theorem rel_of_within {t? t?' : Option Turn} {since : Nat} (hid : k.id = c)
    (hblur : t?'.map (Turn.blur (token.merge n)) =
      (t?.map fun t => t.within outer).map (Turn.blur (token.merge n)))
    (hplain : ∀ t, t? = some t →
      (∀ f ∈ t.frames, f.isTracked = true) ∧ t.stage.isCalled = false) :
    Option.Rel (Turn.Beside token n c outer k (k.within outer since)) t? t?' := by
  rw [Option.map_map] at hblur
  cases rel_of_map_eq hblur with
  | none => exact .none
  | @some t t' heq =>
    obtain ⟨hhost, hframes, hstage, -⟩ := eq_of_blur (t := t.within outer) heq
    obtain ⟨htracked, hawake⟩ := hplain t rfl
    have hturned : (k.within outer since).turned t' = (k.turned t).within outer t'.host.now := by
      rw [Call.turned, hframes, hstage]
      rfl
    exact .some ⟨hhost, hturned.symm ▸ .within _ hid htracked hawake⟩

namespace Beside

/-- What is seen of both is the same. -/
theorem seen {α : Type} (hb : Beside token n c outer h h') (view : Host → α)
    (hview : ∀ h, view (h.blur (token.merge n)) = view h) : view h' = view h := by
  rw [← hview h', hb.blur_eq, hview h]

theorem hasFired_eq (hb : Beside token n c outer h h') : h'.hasFired = h.hasFired :=
  hb.seen Host.hasFired fun _ => rfl

theorem call? (hb : Beside token n c outer h h') (x : CallId) :
    Option.Rel (Call.Beside c outer) (h.call? x) (h'.call? x) := by
  have hcalls := hb.calls
  unfold Host.call?
  generalize h.calls = ks at hcalls
  generalize h'.calls = ks' at hcalls
  induction hcalls with
  | nil => exact .none
  | cons hk hrest ih =>
    rw [List.find?_cons, List.find?_cons, hk.id_eq]
    split
    · exact .some hk
    · exact ih

/-! #### What calls do -/

/-- What the call does with other frames around it, it does without them. -/
theorem turns (hb : Beside token n c outer h h') (hk : Call.Beside c outer k k')
    (turn? : Host → Call → Option Turn)
    (hseen : ∀ h, (turn? (h.blur (token.merge n)) k').map (Turn.blur (token.merge n)) =
      (turn? h k').map (Turn.blur (token.merge n)))
    (hwithin : k.id = c → (∀ f ∈ k.frames, f.isTracked = true) → k.stage.isCalled = false →
      ∀ since, turn? h (k.within outer since) = (turn? h k).map fun t => t.within outer)
    (hplain : (∀ f ∈ k.frames, f.isTracked = true) → k.stage.isCalled = false →
      ∀ t, turn? h k = some t → (∀ f ∈ t.frames, f.isTracked = true) ∧ t.stage.isCalled = false) :
    Option.Rel (Turn.Beside token n c outer k k') (turn? h k) (turn? h' k') := by
  have hsame : (turn? h' k').map (Turn.blur (token.merge n)) =
      (turn? h k').map (Turn.blur (token.merge n)) :=
    hb.seen (fun h => (turn? h k').map (Turn.blur (token.merge n))) hseen
  cases hk with
  | other hid => exact rel_of_other hid hsame
  | within since hid htracked hawake =>
    rw [hwithin hid htracked hawake since] at hsame
    exact rel_of_within hid hsame (hplain htracked hawake)

theorem resume (hb : Beside token n c outer h h') (houter : h.Races outer)
    (hk : Call.Beside c outer k k')
    (hleft : k.id = c → k.frames = [] → ∀ result, k.stage = .over result → outer = []) :
    Option.Rel (Turn.Beside token n c outer k k') (h.resume k) (h'.resume k') :=
  hb.turns hk Host.resume (fun h => resume_blur Token.merge_merge h k')
    (fun hid htracked _ since => resume_within houter since htracked (hleft hid))
    fun htracked _ _ => tracked_resume htracked

theorem timeOut (hb : Beside token n c outer h h') (houter : h.Races outer)
    (hk : Call.Beside c outer k k') :
    Option.Rel (Turn.Beside token n c outer k k') (h.timeOut k) (h'.timeOut k') := by
  have hnone (htracked : ∀ f ∈ k.frames, f.isTracked = true) : h.timeOut k = none :=
    timeOut_of_races (List.append_nil k.frames).symm htracked nofun
  refine hb.turns hk Host.timeOut (fun h => ?_) (fun _ htracked _ since => ?_)
    fun htracked _ t ht => ?_
  · rw [timeOut_blur]
    exact Turn.map_blur_blur Token.merge_merge _
  · rw [hnone htracked, timeOut_of_races rfl htracked houter]
    rfl
  · cases (hnone htracked).symm.trans ht

theorem acted (hb : Beside token n c outer h h') (hk : Call.Beside c outer k k')
    (result : Outcome Json) :
    Option.Rel (Turn.Beside token n c outer k k') (h.acted k result) (h'.acted k' result) := by
  refine hb.turns hk (fun h k => h.acted k result) (fun h => ?_)
    (fun _ _ _ since => acted_within h k outer since result) fun htracked _ t ht => ?_
  · rw [acted_blur]
    exact Turn.map_blur_blur Token.merge_merge _
  · cases turns_acted ht with
    | ends => exact ⟨htracked, rfl⟩

theorem prepared (hb : Beside token n c outer h h') (hk : Call.Beside c outer k k')
    (report : Outcome StartReport) :
    Option.Rel (Turn.Beside token n c outer k k') (h.prepared k report)
      (h'.prepared k' report) := by
  refine hb.turns hk (fun h k => h.prepared k report) (fun h => ?_)
    (fun _ _ _ since => prepared_within h k outer since report) fun htracked _ t ht => ?_
  · rw [prepared_blur]
    exact Turn.map_blur_blur Token.merge_merge _
  · cases turns_prepared ht with
    | ends => exact ⟨htracked, rfl⟩

theorem finished (hb : Beside token n c outer h h') (hk : Call.Beside c outer k k')
    (result : Outcome Json) :
    Option.Rel (Turn.Beside token n c outer k k') (h.finished k result)
      (h'.finished k' result) := by
  refine hb.turns hk (fun h k => h.finished k result) (fun h => ?_)
    (fun _ _ _ since => finished_within h k outer since result) fun htracked _ t ht => ?_
  · rw [finished_blur]
    exact Turn.map_blur_blur Token.merge_merge _
  · obtain ⟨-, rfl⟩ := of_finished ht
    exact ⟨htracked, rfl⟩

/-- The call itself is not one of an application function that is being called. -/
theorem returned (hb : Beside token n c outer h h') (hk : Call.Beside c outer k k') :
    Option.Rel (Turn.Beside token n c outer k k') (h.returned k) (h'.returned k') := by
  have hnone (j : Call) (hj : j.stage.isCalled = false) : h.returned j = none := by
    unfold Host.returned
    split
    · next hstage =>
      rw [hstage] at hj
      cases hj
    · rfl
  refine hb.turns hk Host.returned (fun h => ?_) (fun _ _ hawake since => ?_)
    fun _ hawake t ht => ?_
  · rw [returned_blur]
    exact Turn.map_blur_blur Token.merge_merge _
  · rw [hnone k hawake, hnone (k.within outer since) hawake]
    rfl
  · cases (hnone k hawake).symm.trans ht

/-! #### What events do -/

theorem settle (hb : Beside token n c outer h h') (hk : k'.id = k.id)
    (ht : Turn.Beside token n c outer k k' t t') (hcalls : t.host.calls = h.calls)
    (hasked : t.host.asked = h.asked) (hcalls' : t'.host.calls = h'.calls) :
    Beside token n c outer (settle t k) (settle t' k') := by
  refine ⟨ht.blur_eq, ?_, ?_⟩
  · exact hasked.symm ▸ hb.lt_asked
  · have hlist : List.Forall₂ (Call.Beside c outer) t.host.calls t'.host.calls := by
      rw [hcalls, hcalls']
      exact hb.calls
    refine List.forall₂_map_left_iff.mpr (List.forall₂_map_right_iff.mpr ?_)
    refine hlist.imp fun j j' hj => ?_
    have hid' : j'.id = k'.id ↔ j.id = k.id := by rw [hj.id_eq, hk]
    by_cases hid : j.id = k.id
    · rw [if_pos hid, if_pos (hid'.mpr hid)]
      exact ht.call
    · rw [if_neg hid, if_neg fun heq => hid (hid'.mp heq)]
      exact hj

theorem forCall (hb : Beside token n c outer h h') {turn? turn?' : Call → Option Turn}
    {drops drops' : Call → Bool}
    (hmoves : ∀ k t, turn? k = some t → h.Moves k.stage t (drops k))
    (hmoves' : ∀ k t, turn?' k = some t → h'.Moves k.stage t (drops' k))
    (hturn : ∀ k k', h.call? x = some k → Call.Beside c outer k k' →
      Option.Rel (Turn.Beside token n c outer k k') (turn? k) (turn?' k')) :
    Option.Rel (Beside token n c outer) (h.forCall x turn?) (h'.forCall x turn?') := by
  unfold Host.forCall
  refine rel_bind (hb.call? x) fun k k' hfound hk => ?_
  have hrel := hturn k k' hfound hk
  generalize ht : turn? k = t? at hrel
  generalize ht' : turn?' k' = t?' at hrel
  cases hrel with
  | none => exact .none
  | some hturns =>
    have hm := hmoves k _ ht
    have hm' := hmoves' k' _ ht'
    exact .some (hb.settle hk.id_eq hturns hm.calls_eq hm.asked_eq hm'.calls_eq)

theorem ask (hb : Beside token n c outer h h') (request : Request) (σ : Token) :
    Beside token n c outer (h.ask request σ) (h'.ask request σ) := by
  let begun (h : Host) : Turn := { h with asked := h.asked + 1 }.begin request σ
  have hcalls (h : Host) : (begun h).host.calls = h.calls := (reaches_begin _ request σ).calls_eq
  have hasked (h : Host) : (begun h).host.asked = h.asked + 1 :=
    (reaches_begin _ request σ).asked_eq
  have hblur : (begun h').blur (token.merge n) = (begun h).blur (token.merge n) :=
    hb.seen (fun h => (begun h).blur (token.merge n)) fun h =>
      begin_blur Token.merge_merge { h with asked := h.asked + 1 } request σ
  obtain ⟨hhost, hframes, hstage, hnow⟩ := eq_of_blur hblur
  refine ⟨hhost, ?_, ?_⟩
  · have hlt : c < (begun h).host.asked := hasked h ▸ Nat.lt_succ_of_lt hb.lt_asked
    exact hlt
  · let new (h : Host) : Call :=
      ⟨h.asked, σ, (begun h).frames, (begun h).stage, (begun h).host.now⟩
    have hnew : new h' = new h := by
      simp only [new, hframes, hstage, hnow, hb.seen Host.asked fun _ => rfl]
    have hid : (new h).id ≠ c := Nat.ne_of_gt hb.lt_asked
    have hcall : Call.Beside c outer (new h) (new h') := hnew.symm ▸ .other hid
    have hold : List.Forall₂ (Call.Beside c outer) (begun h).host.calls (begun h').host.calls := by
      rw [hcalls, hcalls]
      exact hb.calls
    exact .cons hcall hold

theorem drop (hb : Beside token n c outer h h') (hk : Call.Beside c outer k k') :
    Beside token n c outer (h.drop k) (h'.drop k') := by
  have hcalls (h : Host) (stage : Stage) : (h.leave stage).calls = h.calls :=
    (becomes_leave h stage).calls_eq
  have hasked : (h.leave k.stage).asked = h.asked := (becomes_leave h k.stage).asked_eq
  have hblur : (h'.leave k.stage).blur (token.merge n) =
      (h.leave k.stage).blur (token.merge n) := by
    refine hb.seen (fun h => (h.leave k.stage).blur (token.merge n)) fun h => ?_
    rw [leave_blur]
    exact blur_blur Token.merge_merge _
  refine ⟨?_, ?_, ?_⟩
  · have hleft : (h'.leave k'.stage).blur (token.merge n) =
        (h.leave k.stage).blur (token.merge n) := hk.stage_eq.symm ▸ hblur
    exact hleft
  · exact hasked.symm ▸ hb.lt_asked
  · have hlist : List.Forall₂ (Call.Beside c outer) (h.leave k.stage).calls
        (h'.leave k'.stage).calls := by
      rw [hcalls, hcalls]
      exact hb.calls
    refine List.rel_filter (fun j j' hj => ?_) hlist
    have hiff : decide (j.id ≠ k.id) = true ↔ decide (j'.id ≠ k'.id) = true := by
      rw [hj.id_eq, hk.id_eq]
    exact hiff

theorem panicked (hb : Beside token n c outer h h') (hk : Call.Beside c outer k k') :
    Option.Rel (Beside token n c outer) (h.panicked k) (h'.panicked k') := by
  unfold Host.panicked
  rw [hk.stage_eq]
  split
  · exact .some (hb.drop hk)
  · exact .some (hb.drop hk)
  · exact .none

/-- What is about no call does the same to both. -/
theorem aside (hb : Beside token n c outer h h') (hevent : event.isOfCall = false)
    (hfires : event ≠ .fire (token.child n)) :
    Option.Rel (Beside token n c outer) (h.step event) (h'.step event) := by
  have hseen : (h'.step event).map (Host.blur (token.merge n)) =
      (h.step event).map (Host.blur (token.merge n)) := by
    refine hb.seen (fun h => (h.step event).map (Host.blur (token.merge n))) fun h => ?_
    refine step_blur Token.merge_merge h hevent fun σ hσ => ?_
    exact Token.merge_under fun heq => hfires (heq ▸ hσ)
  have hrel := rel_of_map_eq hseen
  generalize hs : h.step event = next? at hrel
  generalize hs' : h'.step event = next?' at hrel
  cases hrel with
  | none => exact .none
  | some hblur =>
    obtain ⟨hcalls, hasked⟩ := calls_of_aside hevent hs
    obtain ⟨hcalls', -⟩ := calls_of_aside hevent hs'
    refine .some ⟨hblur, hasked.symm ▸ hb.lt_asked, ?_⟩
    rw [hcalls, hcalls']
    exact hb.calls

/-- Both hosts do the same by every event, unless the token is told apart that was made for the call
or the call returns through the frames around it. -/
theorem step (hb : Beside token n c outer h h') (houter : h.Races outer)
    (hfires : event ≠ .fire (token.child n))
    (hleft : event = .resume c → outer ≠ [] → h.answer? c = none) :
    Option.Rel (Beside token n c outer) (h.step event) (h'.step event) := by
  cases event with
  | ask request σ => exact .some (hb.ask request σ)
  | resume x =>
    refine hb.forCall (fun _ _ => moves_resume) (fun _ _ => moves_resume)
      fun k k' hfound hk => hb.resume houter hk fun hid hframes result hstage => ?_
    obtain ⟨-, rfl⟩ := mem_of_call? hfound
    subst hid
    by_contra hne
    cases (hleft rfl hne).symm.trans (answer?_of_call? hfound hframes hstage)
  | timeOut x =>
    exact hb.forCall (fun _ _ => moves_timeOut) (fun _ _ => moves_timeOut)
      fun k k' _ hk => hb.timeOut houter hk
  | drop x =>
    have hcall := hb.call? x
    simp only [Host.step]
    generalize h.call? x = k? at hcall
    generalize h'.call? x = k?' at hcall
    cases hcall with
    | none => exact .none
    | some hk => exact .some (hb.drop hk)
  | acted x result =>
    exact hb.forCall (fun _ _ => moves_acted) (fun _ _ => moves_acted)
      fun k k' _ hk => hb.acted hk result
  | prepared x report =>
    exact hb.forCall (fun _ _ => moves_prepared) (fun _ _ => moves_prepared)
      fun k k' _ hk => hb.prepared hk report
  | returned x =>
    exact hb.forCall (fun _ _ => moves_returned) (fun _ _ => moves_returned)
      fun k k' _ hk => hb.returned hk
  | finished x result =>
    exact hb.forCall (fun _ _ => moves_finished) (fun _ _ => moves_finished)
      fun k k' _ hk => hb.finished hk result
  | panicked x =>
    have hcall := hb.call? x
    simp only [Host.step]
    generalize h.call? x = k? at hcall
    generalize h'.call? x = k?' at hcall
    cases hcall with
    | none => exact .none
    | some hk => exact hb.panicked hk
  | fire σ => exact hb.aside rfl hfires
  | _ => exact hb.aside rfl (by simp)

theorem ids_eq (hb : Beside token n c outer h h') :
    h'.calls.map Call.id = h.calls.map Call.id := by
  have hcalls := hb.calls
  generalize h.calls = ks at hcalls
  generalize h'.calls = ks' at hcalls
  induction hcalls with
  | nil => rfl
  | cons hk _ ih => rw [List.map_cons, List.map_cons, hk.id_eq, ih]

end Beside

end Host

end LanguageHost
