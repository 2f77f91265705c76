import LanguageHost.Proofs.Host.Orders

/-!
# What comes of what engines are told

A call that tells an engine something has a reply at once, or waits for it: the engine answers, its
preparations end or are given up, or the limit on the start is over first.  `Host.reply?` tells
which reply an event brings.

A call is changed by the events that are about it and by no other (`Host.call?_step_of_ne`), and
neither does any other event order or reply anything for it.
-/

namespace LanguageHost

/-- What came of something that an engine was told. -/
structure Reply where
  call : CallId
  result : Outcome Json
  /-- The limit that was over before the engine had an answer. -/
  late? : Option Duration
  time : Nat

/-- The reply to an order that the engine is done with at once. -/
def Order.reply? (o : Order) : Option Reply :=
  match o.progress with
  | .done result => some ⟨o.call, result, none, o.time⟩
  | _ => none

/-- Whether a call waits for an engine that was told something. -/
def Stage.awaitsEngine : Stage → Bool
  | .acting .. | .preparing .. => true
  | _ => false

namespace Host

variable {h h' mid g : Host} {r : EngineId} {e e' : Engine} {t : Turn} {c : CallId} {k : Call}
variable {o : Order} {p : Reply} {event : HostEvent} {es : List HostEvent} {token : Token}
variable {s : EngineId} {f : Frame} {rest : List Frame} {result : Outcome Json}

/-! ### The call that an event is about -/

/-- Where an event gets a call, it is about that call. -/
theorem Turns.call?_eq (ht : h.Turns k event t) : event.call? = some k.id := by
  cases ht with
  | ends hevent =>
    rcases hevent with ⟨rfl, -⟩ | hreport
    · rfl
    · cases event <;> first | exact hreport | cases hreport
  | _ => rfl

/-- A call stays where it is in every event that is not about it. -/
theorem call?_step_of_ne (hs : h.step event = some h') (hc : c < h.asked)
    (hne : event.call? ≠ some c) : h'.call? c = h.call? c := by
  cases steps_of_step hs with
  | ask request token => exact call?_ask_of_lt request token hc
  | turn hk ht hmoves =>
    refine call?_settle_of_ne ?_ hmoves.calls_eq
    rintro rfl
    exact hne ht.call?_eq
  | drop hevent hk =>
    refine call?_drop_of_ne ?_
    rintro rfl
    rcases hevent with rfl | rfl <;> exact hne rfl
  | aside _ hcalls =>
    rw [call?, hcalls]
    rfl

theorem asked_lt_ask (h : Host) (request : Request) (token : Token) :
    h.asked < (h.ask request token).asked := by
  have hasked : (h.ask request token).asked = h.asked + 1 :=
    (reaches_begin { h with asked := h.asked + 1 } request token).asked_eq
  exact hasked ▸ Nat.lt_succ_self _

/-- No request is forgotten. -/
theorem asked_step (hs : h.step event = some h') : h.asked ≤ h'.asked := by
  cases steps_of_step hs with
  | ask request token => exact Nat.le_of_lt (asked_lt_ask h request token)
  | turn hk ht hmoves => exact Nat.le_of_eq hmoves.asked_eq.symm
  | @drop _ k _ hk =>
    have hasked : (h.drop k).asked = h.asked := (becomes_leave h k.stage).asked_eq
    exact Nat.le_of_eq hasked.symm
  | aside _ _ hasked => exact Nat.le_of_eq hasked.symm

theorem turn_forCall {f : Call → Option Turn} (hs : h.forCall c f = some h') :
    ∃ k t, h.call? k.id = some k ∧ k.id = c ∧ f k = some t ∧ h' = settle t k := by
  simp only [forCall, Option.bind_eq_bind, Option.bind_eq_some_iff, Option.pure_def,
    Option.some.injEq] at hs
  obtain ⟨k, hk, t, ht, rfl⟩ := hs
  obtain ⟨-, rfl⟩ := mem_of_call? hk
  exact ⟨k, t, hk, rfl, ht, rfl⟩

/-- A call whose caller goes away is there no more. -/
theorem call?_of_drop (hs : h.step (.drop c) = some h') : h'.call? c = none := by
  obtain ⟨k, hk, rfl⟩ := Option.map_eq_some_iff.mp hs
  obtain ⟨-, rfl⟩ := mem_of_call? hk
  refine List.find?_eq_none.mpr fun j hj => ?_
  simpa using (List.mem_filter.mp hj).2

/-- A caller that panics leaves nothing else behind than one that goes away. -/
theorem step_drop_of_leaves (hleaves : event = .drop c ∨ event = .panicked c)
    (hs : h.step event = some h') : h.step (.drop c) = some h' := by
  rcases hleaves with rfl | rfl
  · exact hs
  · exact step_drop_of_panicked hs

/-- An event about a call gets it somewhere, or its caller goes away. -/
theorem turn_of_step (hs : h.step event = some h') (hc : event.call? = some c) :
    ((event = .drop c ∨ event = .panicked c) ∧ h'.call? c = none) ∨
      ∃ k t, h.call? c = some k ∧ k.id = c ∧ h.turn? k event = some t ∧ h' = settle t k ∧
        t.host.calls = h.calls := by
  have hturn : ∀ {f : Call → Option Turn}, (∀ k, h.turn? k event = f k) →
      (∀ k t, f k = some t → t.host.calls = h.calls) → h.forCall c f = some h' →
      ∃ k t, h.call? c = some k ∧ k.id = c ∧ h.turn? k event = some t ∧ h' = settle t k ∧
        t.host.calls = h.calls := by
    intro f heq hcalls hf
    obtain ⟨k, t, hk, rfl, ht, rfl⟩ := turn_forCall hf
    exact ⟨k, t, hk, rfl, (heq k).trans ht, rfl, hcalls k t ht⟩
  cases event with
  | resume d =>
    cases hc
    exact .inr (hturn (fun _ => rfl) (fun _ _ ht => (moves_resume ht).calls_eq) hs)
  | timeOut d =>
    cases hc
    exact .inr (hturn (fun _ => rfl) (fun _ _ ht => (moves_timeOut ht).calls_eq) hs)
  | drop d =>
    cases hc
    exact .inl ⟨.inl rfl, call?_of_drop hs⟩
  | acted d result =>
    cases hc
    exact .inr (hturn (fun _ => rfl) (fun _ _ ht => (moves_acted ht).calls_eq) hs)
  | prepared d report =>
    cases hc
    exact .inr (hturn (fun _ => rfl) (fun _ _ ht => (moves_prepared ht).calls_eq) hs)
  | returned d =>
    cases hc
    exact .inr (hturn (fun _ => rfl) (fun _ _ ht => (moves_returned ht).calls_eq) hs)
  | finished d result =>
    cases hc
    exact .inr (hturn (fun _ => rfl) (fun _ _ ht => (moves_finished ht).calls_eq) hs)
  | panicked d =>
    cases hc
    exact .inl ⟨.inr rfl, call?_of_drop (step_drop_of_panicked hs)⟩
  | _ => cases hc

/-! ### Orders and replies of a call -/

/-- What comes of an order that was given before, where an event brings that. -/
def reply? (h : Host) (event : HostEvent) : Option Reply :=
  match event with
  | .acted c result => (h.call? c).bind fun k =>
    match k.stage with
    | .acting .. => some ⟨c, result, none, h.now⟩
    | _ => none
  | .prepared c report => (h.call? c).bind fun k =>
    match k.stage with
    | .preparing .. => some ⟨c, report.map fun _ => .null, none, h.now⟩
    | _ => none
  | .timeOut c => (h.call? c).bind fun k =>
    match k.stage with
    | .over _ => none
    | _ => (cutStart h.now k.frames).map fun (limit, _) =>
      ⟨c, .error (.initTimeout limit), some limit, h.now⟩
  | .resume c => (h.call? c).bind fun k =>
    match k.stage with
    | .over _ => (h.order? event).bind Order.reply?
    | .preparing .. =>
      if h.hasFired k.token then some ⟨c, .error .operationCancelled, none, h.now⟩ else none
    | _ => none
  | _ => (h.order? event).bind Order.reply?

/-- The replies that a run brings, the first one first. -/
def replies (h : Host) (es : List HostEvent) : List Reply := logged step reply? h es

/-- The orders that a run gives for a call. -/
def ordersOf (h : Host) (es : List HostEvent) (c : CallId) : List Order :=
  (h.orders es).filter fun o => o.call = c

/-- The replies that a run brings to a call. -/
def repliesOf (h : Host) (es : List HostEvent) (c : CallId) : List Reply :=
  (h.replies es).filter fun p => p.call = c

theorem call_of_reply?_order (hp : (h.order? event).bind Order.reply? = some p) :
    p.call = (event.call?).getD h.asked := by
  obtain ⟨o, ho, hreply⟩ := Option.bind_eq_some_iff.mp hp
  have hcall : p.call = o.call := by
    unfold Order.reply? at hreply
    split at hreply
    · cases hreply
      rfl
    · cases hreply
  exact hcall.trans (ordered_of_order? ho).call_eq

/-- A reply comes to a new call, or to the call that the event is about. -/
theorem call_of_reply? (hp : h.reply? event = some p) : p.call = (event.call?).getD h.asked := by
  unfold reply? at hp
  split at hp
  · obtain ⟨k, -, hrest⟩ := Option.bind_eq_some_iff.mp hp
    split at hrest
    · cases hrest
      rfl
    · cases hrest
  · obtain ⟨k, -, hrest⟩ := Option.bind_eq_some_iff.mp hp
    split at hrest
    · cases hrest
      rfl
    · cases hrest
  · obtain ⟨k, -, hrest⟩ := Option.bind_eq_some_iff.mp hp
    split at hrest
    · cases hrest
    · obtain ⟨⟨limit, frames⟩, -, rfl⟩ := Option.map_eq_some_iff.mp hrest
      rfl
  · obtain ⟨k, -, hrest⟩ := Option.bind_eq_some_iff.mp hp
    split at hrest
    · exact call_of_reply?_order hrest
    · split at hrest
      · cases hrest
        rfl
      · cases hrest
    · cases hrest
  · exact call_of_reply?_order hp

/-- Whose order or reply an event brings, told for one of the calls. -/
theorem filter_toList_of_call {α : Type} {f : α → CallId} {a? : Option α} {d : CallId}
    (hcall : ∀ a, a? = some a → f a = d) :
    a?.toList.filter (fun a => f a = c) = if d = c then a?.toList else [] := by
  cases a? with
  | none => simp
  | some a =>
    rw [← hcall a rfl, Option.toList_some, List.filter_singleton]
    simp

/-- An event that is not about a call brings no order and no reply for it. -/
theorem logsOf_concat_of_ne {h₀ : Host} (hr : h₀.run es = some h) (hc : c < h.asked)
    (hne : event.call? ≠ some c) : h₀.ordersOf (es ++ [event]) c = h₀.ordersOf es c ∧
      h₀.repliesOf (es ++ [event]) c = h₀.repliesOf es c := by
  have hother : (event.call?).getD h.asked ≠ c := by
    cases hd : event.call? with
    | none => exact Nat.ne_of_gt hc
    | some d =>
      rintro rfl
      exact hne hd
  constructor
  · rw [ordersOf, orders, plays.logged_concat hr, List.filter_append,
      filter_toList_of_call fun o ho => (ordered_of_order? ho).call_eq, if_neg hother,
      List.append_nil]
    rfl
  · rw [repliesOf, replies, plays.logged_concat hr, List.filter_append,
      filter_toList_of_call fun p => call_of_reply?, if_neg hother, List.append_nil]
    rfl

/-- What an event that is about a call brings is for that call. -/
theorem logsOf_concat {h₀ : Host} (hr : h₀.run es = some h)
    (hc : (event.call?).getD h.asked = c) :
    h₀.ordersOf (es ++ [event]) c = h₀.ordersOf es c ++ (h.order? event).toList ∧
      h₀.repliesOf (es ++ [event]) c = h₀.repliesOf es c ++ (h.reply? event).toList := by
  constructor
  · rw [ordersOf, orders, plays.logged_concat hr, List.filter_append,
      filter_toList_of_call fun o ho => (ordered_of_order? ho).call_eq, if_pos hc]
    rfl
  · rw [repliesOf, replies, plays.logged_concat hr, List.filter_append,
      filter_toList_of_call fun p => call_of_reply?, if_pos hc]
    rfl

/-! ### The course of a call -/

theorem call?_ask (h : Host) (request : Request) (token : Token) :
    (h.ask request token).call? h.asked =
      some ⟨h.asked, token, ({ h with asked := h.asked + 1 }.begin request token).frames,
        ({ h with asked := h.asked + 1 }.begin request token).stage,
        ({ h with asked := h.asked + 1 }.begin request token).host.now⟩ :=
  List.find?_cons_of_pos (by simp)

/-- What is said of a call by its orders, the replies to them and where it stands, is kept in a run
from the request on, if the events about the call keep it and no other event disturbs it. -/
theorem course_of_run {motive : Host → List Order → List Reply → List Frame → Stage → Prop}
    {request : Request}
    (first : motive (h.ask request token) (h.order? (.ask request token)).toList
      (h.reply? (.ask request token)).toList
      ({ h with asked := h.asked + 1 }.begin request token).frames
      ({ h with asked := h.asked + 1 }.begin request token).stage)
    (others : ∀ mid event next os ps frames stage, mid.step event = some next →
      motive mid os ps frames stage → motive next os ps frames stage)
    (own : ∀ (mid : Host) (event : HostEvent) (k : Call) (t : Turn) os ps,
      mid.call? k.id = some k → event.call? = some k.id → mid.turn? k event = some t →
      mid.step event = some (settle t k) → motive mid os ps k.frames k.stage →
      motive (settle t k) (os ++ (mid.order? event).toList) (ps ++ (mid.reply? event).toList)
        t.frames t.stage)
    (hr : h.run (.ask request token :: es) = some g) :
    h.asked < g.asked ∧ ∃ frames stage,
      motive g (h.ordersOf (.ask request token :: es) h.asked)
        (h.repliesOf (.ask request token :: es) h.asked) frames stage ∧
      ∀ k, g.call? h.asked = some k → k.frames = frames ∧ k.stage = stage := by
  obtain ⟨asking, hfirst, hrest⟩ := plays.cons_eq_some.mp hr
  obtain rfl : h.ask request token = asking := Option.some.inj hfirst
  refine plays.history (motive := fun es g => h.asked < g.asked ∧ ∃ frames stage,
      motive g (h.ordersOf (.ask request token :: es) h.asked)
        (h.repliesOf (.ask request token :: es) h.asked) frames stage ∧
      ∀ k, g.call? h.asked = some k → k.frames = frames ∧ k.stage = stage) ?_ ?_ hrest
  · have hlogs : h.ordersOf [.ask request token] h.asked =
          (h.order? (.ask request token)).toList ∧
        h.repliesOf [.ask request token] h.asked = (h.reply? (.ask request token)).toList :=
      logsOf_concat (plays.run_nil h) rfl
    let t : Turn := { h with asked := h.asked + 1 }.begin request token
    refine ⟨asked_lt_ask h request token, t.frames, t.stage, ?_, fun k hk => ?_⟩
    · rw [hlogs.1, hlogs.2]
      exact first
    · cases (call?_ask h request token).symm.trans hk
      exact ⟨rfl, rfl⟩
  · intro es mid event next hrun ih hs
    obtain ⟨hlt, frames, stage, hcourse, hcall⟩ := ih
    have hall : h.run (.ask request token :: es) = some mid :=
      plays.cons_eq_some.mpr ⟨_, rfl, hrun⟩
    refine ⟨Nat.lt_of_lt_of_le hlt (asked_step hs), ?_⟩
    by_cases hevent : event.call? = some h.asked
    · obtain ⟨horders, hreplies⟩ := logsOf_concat hall (by rw [hevent, Option.getD_some])
      rw [← List.cons_append, horders, hreplies]
      rcases turn_of_step hs hevent with ⟨hleaves, hgone⟩ | ⟨k, t, hk, hid, ht, rfl, hcalls⟩
      · refine ⟨frames, stage, ?_, fun k hk => ?_⟩
        · have hkept := others mid _ next _ _ frames stage hs hcourse
          rcases hleaves with rfl | rfl <;> simpa [order?, reply?] using hkept
        · cases hgone.symm.trans hk
      · obtain ⟨rfl, rfl⟩ := hcall k hk
        refine ⟨t.frames, t.stage, own mid event k t _ _ (hid ▸ hk) (hid ▸ hevent) ht hs hcourse,
          fun j hj => ?_⟩
        rw [← hid, call?_settle (hid ▸ hk) hcalls] at hj
        cases hj
        exact ⟨rfl, rfl⟩
    · obtain ⟨horders, hreplies⟩ := logsOf_concat_of_ne hall hlt hevent
      refine ⟨frames, stage, ?_, fun k hk => hcall k ?_⟩
      · rw [← List.cons_append, horders, hreplies]
        exact others mid event next _ _ frames stage hs hcourse
      · rw [← call?_step_of_ne hs hlt hevent]
        exact hk

/-! ### A call that waits for an engine -/

theorem getElem?_setEngine_of_ne (hne : s ≠ r) (h : Host) (e : Engine) :
    (h.setEngine r e).engines[s]? = h.engines[s]? := by
  simp only [setEngine, List.getElem?_modify, if_neg (Ne.symm hne), Option.map_eq_map,
    Option.map_id']

/-- An engine that is told something is the only one that anything is done to. -/
theorem engines_askEngine_of_not_run {op : EngineOp} (hop : op.isRun = false)
    (horder : ∀ o, h.orderTo? c r op token = some o → o.engine ≠ s) (frames : List Frame) :
    (h.askEngine r op token frames).host.engines[s]? = h.engines[s]? := by
  cases he : h.engine? r with
  | none =>
    have hnone : h.engines[r]? = none := Option.map_eq_none_iff.mp he
    simp only [askEngine, hnone]
  | some e =>
    have hne : r ≠ s := horder _ (by rw [orderTo?, he]; rfl)
    rw [askEngine_of_not_run hop he]
    exact getElem?_setEngine_of_ne (Ne.symm hne) _ _

/-- Once there is an outcome, it goes through the innermost frame. -/
theorem turn?_of_over (hstage : k.stage = .over result) (ht : h.turn? k event = some t) :
    ∃ c f rest, event = .resume c ∧ k.frames = f :: rest ∧ t = h.pass k.token f rest result := by
  cases event with
  | resume c =>
    simp only [turn?, resume, hstage] at ht
    split at ht
    · cases ht
    · next f rest hframes =>
      cases ht
      exact ⟨c, f, rest, rfl, hframes, rfl⟩
  | timeOut c => simp [turn?, timeOut, hstage] at ht
  | acted c answer => simp [turn?, acted, hstage] at ht
  | prepared c report => simp [turn?, prepared, hstage] at ht
  | returned c => simp [turn?, returned, hstage] at ht
  | finished c answer => simp [turn?, finished, hstage] at ht
  | _ => cases ht

/-- A call that has an answer gets nowhere. -/
theorem turn?_of_answered (hframes : k.frames = []) (hstage : k.stage = .over result) :
    h.turn? k event = none := by
  cases hturn : h.turn? k event with
  | none => rfl
  | some t =>
    obtain ⟨c, f, rest, -, hf, -⟩ := turn?_of_over hstage hturn
    cases hframes.symm.trans hf

theorem logs_of_over (hk : h.call? k.id = some k) (hstage : k.stage = .over result)
    (hframes : k.frames = f :: rest) :
    h.order? (.resume k.id) = h.passOrder? k.id k.token f result ∧
      h.reply? (.resume k.id) = (h.passOrder? k.id k.token f result).bind Order.reply? := by
  have horder : h.order? (.resume k.id) = h.passOrder? k.id k.token f result := by
    simp only [order?, hk, Option.bind_some, hstage, hframes]
  refine ⟨horder, ?_⟩
  simp only [reply?, hk, Option.bind_some, hstage, horder]

/-- A caller that waits for no task leaves nothing behind. -/
theorem leave_of_not_pooled {stage : Stage} (hnot : ∀ r ticket, stage ≠ .pooled r ticket) :
    h.leave stage = h := by
  cases stage with
  | pooled r ticket => exact absurd rfl (hnot r ticket)
  | _ => rfl

/-- A call that waits for an engine gets a reply, and nothing is done to any other engine. -/
structure Hears (h : Host) (k : Call) (event : HostEvent) (t : Turn) (p : Reply) : Prop where
  order : h.order? event = none
  reply : h.reply? event = some p
  frames_eq : t.frames = k.frames
  stage_eq : t.stage = .over p.result
  late : ∀ limit, p.late? = some limit →
    (∃ frames, cutStart h.now k.frames = some (limit, frames)) ∧ p.time = h.now ∧
      p.result = .error (.initTimeout limit)
  engines : ∀ r, k.stage.prepares r = false → t.host.engines[r]? = h.engines[r]?

theorem order?_of_awaits (hk : h.call? k.id = some k) (hstage : k.stage.awaitsEngine = true) :
    h.order? (.resume k.id) = none := by
  simp only [order?, hk, Option.bind_some]
  split
  · next hover _ =>
    rw [hover] at hstage
    cases hstage
  · rfl

/-- A call that waits for the preparations of an engine learns that its token has fired. -/
theorem hears_of_resume (hk : h.call? k.id = some k) (hcut : cutRace h.hasFired k.frames = none)
    (hstage : k.stage.awaitsEngine = true) (ht : h.turn? k (.resume k.id) = some t) :
    ∃ p, h.Hears k (.resume k.id) t p := by
  have horder := order?_of_awaits hk hstage
  cases hwait : k.stage with
  | acting r op => simp [turn?, resume, hwait, hcut, goOn] at ht
  | preparing r settings =>
    simp only [turn?, resume, hwait, hcut, goOn] at ht
    split at ht
    · next hfired =>
      obtain ⟨e, he, rfl⟩ := Option.map_eq_some_iff.mp ht
      refine ⟨⟨k.id, .error .operationCancelled, none, h.now⟩, horder, ?_, rfl, rfl,
        fun _ hl => (by cases hl), fun s hs => ?_⟩
      · simp only [reply?, hk, Option.bind_some, hwait, if_pos hfired]
      · refine getElem?_setEngine_of_ne ?_ h _
        rintro rfl
        simp [hwait, Stage.prepares] at hs
    · cases ht
  | _ =>
    rw [hwait] at hstage
    cases hstage

/-- The time of a call that waits for an engine is over.  A limit is over around its innermost frame
only. -/
theorem hears_of_timeOut (hk : h.call? k.id = some k) (hframes : k.frames = [f])
    (hstage : k.stage.awaitsEngine = true) (ht : h.timeOut k = some t) :
    ∃ p, h.Hears k (.timeOut k.id) t p := by
  have hnot : ∀ result, k.stage ≠ .over result := by
    rintro result hover
    rw [hover] at hstage
    cases hstage
  have hleave : h.leave k.stage = h := by
    refine leave_of_not_pooled fun r ticket hpooled => ?_
    rw [hpooled] at hstage
    cases hstage
  unfold timeOut at ht
  split at ht
  · next result hover => exact absurd hover (hnot result)
  obtain ⟨⟨limit, frames⟩, hfound, rfl⟩ := Option.map_eq_some_iff.mp ht
  refine ⟨⟨k.id, .error (.initTimeout limit), some limit, h.now⟩, rfl, ?_, ?_, rfl,
    fun l hl => ?_, fun r _ => by rw [hleave]⟩
  · simp only [reply?, hk, Option.bind_some, hfound, Option.map_some]
  · rw [hframes] at hfound ⊢
    cases f with
    | starting name limit? entries =>
      cases limit? with
      | none => simp [cutStart] at hfound
      | some l =>
        simp only [cutStart] at hfound
        split at hfound
        · obtain ⟨-, rfl⟩ := Prod.mk.inj (Option.some.inj hfound)
          rfl
        · cases hfound
    | _ => simp [cutStart] at hfound
  · obtain rfl := Option.some.inj hl
    exact ⟨⟨frames, hfound⟩, rfl, rfl⟩

/-- A call that waits for an engine inside of one frame gets somewhere only by a reply. -/
theorem hears_of_awaits (hk : h.call? k.id = some k) (hevent : event.call? = some k.id)
    (hframes : k.frames = [f]) (hrace : ∀ token, f ≠ .race token)
    (hstage : k.stage.awaitsEngine = true) (ht : h.turn? k event = some t) :
    ∃ p, h.Hears k event t p := by
  have hcut : cutRace h.hasFired k.frames = none := by
    refine cutRace_of_not_fired fun token hmem => ?_
    rw [hframes, List.mem_singleton] at hmem
    exact absurd hmem.symm (hrace token)
  cases event with
  | resume c =>
    obtain rfl := Option.some.inj hevent
    exact hears_of_resume hk hcut hstage ht
  | timeOut c =>
    obtain rfl := Option.some.inj hevent
    exact hears_of_timeOut hk hframes hstage ht
  | acted c answer =>
    obtain rfl := Option.some.inj hevent
    simp only [turn?, acted] at ht
    split at ht
    · next hwait =>
      cases ht
      refine ⟨⟨k.id, answer, none, h.now⟩, rfl, ?_, rfl, rfl, fun _ hl => (by cases hl),
        fun _ _ => rfl⟩
      simp only [reply?, hk, Option.bind_some, hwait]
    · cases ht
  | prepared c report =>
    obtain rfl := Option.some.inj hevent
    simp only [turn?, prepared] at ht
    split at ht
    · next r settings hwait =>
      obtain ⟨e, he, rfl⟩ := Option.map_eq_some_iff.mp ht
      refine ⟨⟨k.id, report.map fun _ => .null, none, h.now⟩, rfl, ?_, rfl, ?_,
        fun _ hl => (by cases hl), fun s hs => ?_⟩
      · simp only [reply?, hk, Option.bind_some, hwait]
      · cases report with
        | ok report => rfl
        | error err => rfl
      · refine getElem?_setEngine_of_ne ?_ h _
        rintro rfl
        simp [hwait, Stage.prepares] at hs
    · cases ht
  | returned c =>
    obtain ⟨g, token, args, hwait, -⟩ := of_returned ht
    rw [hwait] at hstage
    cases hstage
  | finished c answer =>
    obtain ⟨⟨g, token, args, hwait⟩, -⟩ := of_finished ht
    rw [hwait] at hstage
    cases hstage
  | _ => cases ht

/-! ### A call goes on -/

/-- A call goes on by itself, and as engines answer it: all preparations end with these reports, and
a foreign engine answers with a failure where its report is one. -/
inductive GoesBy (answers : EngineId → Outcome StartReport) (c : CallId) : HostEvent → Prop where
  | resume : GoesBy answers c (.resume c)
  | acted (r : EngineId) : GoesBy answers c (.acted c ((answers r).map fun _ => .null))
  | prepared (r : EngineId) : GoesBy answers c (.prepared c (answers r))

theorem answer?_of_call? (hk : h.call? c = some k) (hframes : k.frames = [])
    (hstage : k.stage = .over result) : h.answer? c = some result := by
  obtain ⟨id, token, frames, stage, since⟩ := k
  obtain rfl : frames = [] := hframes
  obtain rfl : stage = .over result := hstage
  simp only [answer?, hk]

theorem call?_of_answer? (ha : h.answer? c = some result) :
    ∃ k, h.call? c = some k ∧ k.frames = [] ∧ k.stage = .over result := by
  unfold answer? at ha
  split at ha
  · next id token result' since hk =>
    obtain rfl := Option.some.inj ha
    exact ⟨_, hk, rfl, rfl⟩
  · cases ha

theorem step_forCall {f : Call → Option Turn} (hk : h.call? k.id = some k) (ht : f k = some t) :
    h.forCall k.id f = some (settle t k) := by
  simp only [forCall, hk, Option.bind_eq_bind, Option.bind_some, ht, Option.pure_def]

/-- A call that waits for an engine goes on with any answer. -/
theorem goes_of_awaits (answers : EngineId → Outcome StartReport) (hk : h.call? k.id = some k)
    (hstage : k.stage.awaitsEngine = true)
    (hengine : ∀ r, k.stage.prepares r = true → ∃ e, h.engine? r = some e) :
    ∃ event h' result, GoesBy answers k.id event ∧ h.step event = some h' ∧
      h'.call? k.id = some { k with stage := .over result, since := h.now } := by
  cases hwait : k.stage with
  | acting r op =>
    let result : Outcome Json := (answers r).map fun _ => .null
    let t : Turn := ⟨h, k.frames, .over result⟩
    have ht : h.acted k result = some t := by simp only [acted, hwait, t]
    refine ⟨_, settle t k, result, .acted r, step_forCall hk ht, ?_⟩
    exact call?_settle hk rfl
  | preparing r settings =>
    obtain ⟨e, he⟩ := hengine r (by rw [hwait]; exact beq_self_eq_true r)
    let t : Turn := ⟨h.setEngine r (e.prepared settings (answers r) h.now).2, k.frames,
      .over (e.prepared settings (answers r) h.now).1⟩
    have ht : h.prepared k (answers r) = some t := by
      simp only [prepared, hwait, he, Option.map_some, t]
    refine ⟨_, settle t k, (e.prepared settings (answers r) h.now).1, .prepared r,
      step_forCall hk ht, ?_⟩
    exact call?_settle hk rfl
  | _ =>
    rw [hwait] at hstage
    cases hstage

end Host

end LanguageHost
