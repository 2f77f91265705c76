import LanguageHost.Proofs.Host.Steps

/-!
# What looks at the bridge

Few events look at the bridge: a request for a function looks a name up, and a change that is tried
looks whether the name is taken.  Every other event does the same whatever the bridge is, and leaves
it alone, and a request for a function depends on what is found and on nothing else:
`Host.step_withBridge`, with one lemma for each function of a host.
-/

namespace LanguageHost

/-- A change of the names of a bridge. -/
inductive BridgeChange where
  | register (name : String) (f : BridgeFunction)
  | unregister (name : String)

/-- The change of the bridge that an event tries. -/
def HostEvent.bridgeChange? : HostEvent → Option BridgeChange
  | .bridgeRegister name f => some (.register name f)
  | .bridgeUnregister name => some (.unregister name)
  | _ => none

/-- The name that an event looks up. -/
def HostEvent.lookUp? : HostEvent → Option String
  | .ask (.bridge name _) _ => some name
  | _ => none

namespace Bridge

/-- Tries a change. -/
def attempt (b : Bridge) : BridgeChange → Outcome Unit × Bridge
  | .register name f => b.register name f
  | .unregister name => b.unregister name

end Bridge

/-- A turn of a host with another bridge. -/
def Turn.withBridge (t : Turn) (b : Bridge) : Turn := { t with host := { t.host with bridge := b } }

namespace Host

variable {h h' : Host} {event : HostEvent} {b : Bridge} {token : Token} {frames : List Frame}

/-- The host with another bridge. -/
def withBridge (h : Host) (b : Bridge) : Host := { h with bridge := b }

/-! ### What a call does by itself -/

theorem letPass_withBridge (h : Host) (b : Bridge) (g : Guarded) (op : EngineOp) :
    (h.withBridge b).letPass g op = ((h.letPass g op).1, (h.letPass g op).2.withBridge b) := by
  cases op with
  | run task =>
    simp only [letPass, check, withBridge]
    split
    · rfl
    · rfl
  | start settings => rfl
  | stop => rfl

theorem askEngine_withBridge (h : Host) (b : Bridge) (r : EngineId) (op : EngineOp)
    (token : Token) (frames : List Frame) :
    (h.withBridge b).askEngine r op token frames =
      (h.askEngine r op token frames).withBridge b := by
  have hengines : (h.withBridge b).engines = h.engines := rfl
  unfold askEngine
  rw [hengines]
  split
  · rfl
  · next g _ =>
    rw [letPass_withBridge]
    generalize h.letPass g op = passed
    obtain ⟨result, mid⟩ := passed
    cases result with
    | error err => rfl
    | ok _ => rfl

theorem dispatch_withBridge (h : Host) (b : Bridge) (name : String) (task : Task) (token : Token)
    (frames : List Frame) :
    (h.withBridge b).dispatch name task token frames =
      (h.dispatch name task token frames).withBridge b := by
  have hregistry : (h.withBridge b).registry = h.registry := rfl
  unfold dispatch
  rw [hregistry]
  split
  · rfl
  · exact askEngine_withBridge h b _ _ token _

/-- A call of a function depends on what the look-up finds. -/
theorem callBridge_withBridge {name : String} (hb : b.get? name = h.bridge.get? name)
    (args : List Json) (token : Token) :
    (h.withBridge b).callBridge name args token = (h.callBridge name args token).withBridge b := by
  have hbridge : (h.withBridge b).bridge.get? name = h.bridge.get? name := hb
  have hfired : (h.withBridge b).hasFired token = h.hasFired token := rfl
  let later : Host := { h with scopes := h.scopes + 1 }
  unfold callBridge
  rw [hbridge, hfired]
  split
  · rfl
  · split
    · rfl
    · exact dispatch_withBridge later b _ _ _ _
  · rfl

theorem startNext_withBridge (h : Host) (b : Bridge) (token : Token)
    (entries : List (String × RuntimeSettings)) (frames : List Frame) :
    (h.withBridge b).startNext token entries frames =
      (h.startNext token entries frames).withBridge b := by
  have hregistry : (h.withBridge b).registry = h.registry := rfl
  unfold startNext
  split
  · rfl
  · rw [hregistry]
    split
    · rfl
    · exact askEngine_withBridge h b _ _ token _

theorem stopNext_withBridge (h : Host) (b : Bridge) (token : Token)
    (entries : List (String × EngineId)) (failures : List (String × HostError))
    (frames : List Frame) :
    (h.withBridge b).stopNext token entries failures frames =
      (h.stopNext token entries failures frames).withBridge b := by
  unfold stopNext
  split
  · rfl
  · exact askEngine_withBridge h b _ _ token _

theorem pass_withBridge (h : Host) (b : Bridge) (token : Token) (f : Frame) (rest : List Frame)
    (result : Outcome Json) :
    (h.withBridge b).pass token f rest result = (h.pass token f rest result).withBridge b := by
  cases f with
  | starting name limit? entries =>
    cases result with
    | ok v => exact startNext_withBridge h b token entries rest
    | error err => rfl
  | stopping name entries failures =>
    cases result with
    | ok v => exact stopNext_withBridge h b token entries failures rest
    | error err => exact stopNext_withBridge h b token entries _ rest
  | _ => rfl

theorem leave_withBridge (h : Host) (b : Bridge) (stage : Stage) :
    (h.withBridge b).leave stage = (h.leave stage).withBridge b := by
  have hengine : ∀ r, (h.withBridge b).engine? r = h.engine? r := fun _ => rfl
  unfold leave
  split
  · rw [hengine]
    split
    · rfl
    · rfl
  · rfl

theorem learn_withBridge (h : Host) (b : Bridge) (r : EngineId) (ticket : Ticket) :
    (h.withBridge b).learn r ticket =
      (h.learn r ticket).map fun learnt => (learnt.1, learnt.2.withBridge b) := by
  have hengine : (h.withBridge b).engine? r = h.engine? r := rfl
  unfold learn
  rw [hengine]
  cases h.engine? r with
  | none => rfl
  | some e =>
    cases hpool : e.pool? with
    | none => simp [hpool]
    | some p =>
      cases hanswer : (p.follow (.learn ticket)).answer? ticket with
      | none => simp [hpool, hanswer]
      | some result =>
        simp only [hpool, hanswer, Option.bind_eq_bind, Option.bind_some, Option.pure_def,
          Option.map_some]
        rfl

theorem goOn_withBridge (h : Host) (b : Bridge) (k : Call) :
    (h.withBridge b).goOn k = (h.goOn k).map fun t => t.withBridge b := by
  have hengine : ∀ r, (h.withBridge b).engine? r = h.engine? r := fun _ => rfl
  have hfired : ∀ token, (h.withBridge b).hasFired token = h.hasFired token := fun _ => rfl
  unfold goOn
  split
  · next r ticket _ =>
    rw [learn_withBridge]
    cases h.learn r ticket with
    | none => rfl
    | some learnt => rfl
  · next r _ _ =>
    rw [hfired, hengine]
    split
    · cases h.engine? r with
      | none => rfl
      | some e => rfl
    · rfl
  · rfl

theorem resume_withBridge (h : Host) (b : Bridge) (k : Call) :
    (h.withBridge b).resume k = (h.resume k).map fun t => t.withBridge b := by
  have hfired : (h.withBridge b).hasFired = h.hasFired := rfl
  unfold resume
  split
  · split
    · rfl
    · rw [pass_withBridge]
      rfl
  · rw [hfired]
    split
    · rw [leave_withBridge]
      rfl
    · exact goOn_withBridge h b k

theorem timeOut_withBridge (h : Host) (b : Bridge) (k : Call) :
    (h.withBridge b).timeOut k = (h.timeOut k).map fun t => t.withBridge b := by
  have hnow : (h.withBridge b).now = h.now := rfl
  unfold timeOut
  split
  · rfl
  · rw [hnow, leave_withBridge]
    cases cutStart h.now k.frames with
    | none => rfl
    | some found => rfl

theorem acted_withBridge (h : Host) (b : Bridge) (k : Call) (result : Outcome Json) :
    (h.withBridge b).acted k result = (h.acted k result).map fun t => t.withBridge b := by
  unfold acted
  split
  · rfl
  · rfl

theorem prepared_withBridge (h : Host) (b : Bridge) (k : Call) (report : Outcome StartReport) :
    (h.withBridge b).prepared k report = (h.prepared k report).map fun t => t.withBridge b := by
  have hengine : ∀ r, (h.withBridge b).engine? r = h.engine? r := fun _ => rfl
  unfold prepared
  split
  · next r settings _ =>
    rw [hengine]
    cases h.engine? r with
    | none => rfl
    | some e => rfl
  · rfl

theorem returned_withBridge (h : Host) (b : Bridge) (k : Call) :
    (h.withBridge b).returned k = (h.returned k).map fun t => t.withBridge b := by
  have hfired : (h.withBridge b).hasFired k.token = h.hasFired k.token := rfl
  unfold returned
  rw [hfired]
  split
  · split
    · rfl
    · rfl
  · rfl

theorem finished_withBridge (h : Host) (b : Bridge) (k : Call) (result : Outcome Json) :
    (h.withBridge b).finished k result = (h.finished k result).map fun t => t.withBridge b := by
  unfold finished
  split
  · rfl
  · rfl

theorem drop_withBridge (h : Host) (b : Bridge) (k : Call) :
    (h.withBridge b).drop k = (h.drop k).withBridge b := by
  unfold drop
  rw [leave_withBridge]
  rfl

theorem panicked_withBridge (h : Host) (b : Bridge) (k : Call) :
    (h.withBridge b).panicked k = (h.panicked k).map fun g => g.withBridge b := by
  unfold panicked
  split
  · exact congrArg some (drop_withBridge h b k)
  · exact congrArg some (drop_withBridge h b k)
  · rfl

/-! ### Events -/

theorem forCall_withBridge {c : CallId} {f f' : Call → Option Turn}
    (hf : ∀ k, h.call? k.id = some k → k.id = c → f' k = (f k).map fun t => t.withBridge b) :
    (h.withBridge b).forCall c f' = (h.forCall c f).map fun g => g.withBridge b := by
  have hcall : (h.withBridge b).call? c = h.call? c := rfl
  unfold forCall
  rw [hcall]
  cases hk : h.call? c with
  | none => rfl
  | some k =>
    obtain ⟨-, hid⟩ := mem_of_call? hk
    have hturn := hf k (hid.symm ▸ hk) hid
    simp only [Option.bind_eq_bind, Option.bind_some, hturn]
    cases f k with
    | none => rfl
    | some t => rfl

theorem forEngine_withBridge (h : Host) (b : Bridge) (r : EngineId) (f : Engine → Option Engine) :
    (h.withBridge b).forEngine r f = (h.forEngine r f).map fun g => g.withBridge b := by
  have hengine : (h.withBridge b).engine? r = h.engine? r := rfl
  unfold forEngine
  rw [hengine]
  cases h.engine? r with
  | none => rfl
  | some e =>
    simp only [Option.bind_eq_bind, Option.bind_some]
    cases f e with
    | none => rfl
    | some e' => rfl

theorem register_withBridge (h : Host) (b : Bridge) (r : EngineId) :
    ((h.withBridge b).register r).2 = (h.register r).2.withBridge b := by
  have hengine : (h.withBridge b).engine? r = h.engine? r := rfl
  have hregistry : (h.withBridge b).registry = h.registry := rfl
  unfold register
  rw [hengine, hregistry]
  split
  · rfl
  · split
    · rfl
    · rfl

theorem ask_withBridge {request : Request} (hfound : ∀ name,
      (HostEvent.ask request token).lookUp? = some name → b.get? name = h.bridge.get? name) :
    (h.withBridge b).ask request token = (h.ask request token).withBridge b := by
  let later : Host := { h with asked := h.asked + 1 }
  have hbegin : (later.withBridge b).begin request token =
      (later.begin request token).withBridge b := by
    cases request with
    | start => exact startNext_withBridge later b token _ _
    | stop => exact stopNext_withBridge later b token _ _ _
    | dispatch name task => exact dispatch_withBridge later b name task token _
    | bridge name args => exact callBridge_withBridge (h := later) (hfound name rfl) args token
    | engine r op => exact askEngine_withBridge later b r op token _
  have hsame : { h.withBridge b with asked := (h.withBridge b).asked + 1 } = later.withBridge b :=
    rfl
  unfold ask
  dsimp only
  rw [hsame, hbegin]
  rfl

/-- An event that tries no change does the same with another bridge, if it finds the same where it
looks a name up. -/
theorem step_withBridge (hchange : event.bridgeChange? = none)
    (hfound : ∀ name, event.lookUp? = some name → b.get? name = h.bridge.get? name) :
    (h.withBridge b).step event = (h.step event).map fun g => g.withBridge b := by
  cases event with
  | ask request token => exact congrArg some (ask_withBridge hfound)
  | resume c => exact forCall_withBridge fun k _ _ => resume_withBridge h b k
  | timeOut c => exact forCall_withBridge fun k _ _ => timeOut_withBridge h b k
  | acted c result => exact forCall_withBridge fun k _ _ => acted_withBridge h b k result
  | prepared c report => exact forCall_withBridge fun k _ _ => prepared_withBridge h b k report
  | returned c => exact forCall_withBridge fun k _ _ => returned_withBridge h b k
  | finished c result => exact forCall_withBridge fun k _ _ => finished_withBridge h b k result
  | drop c =>
    have hcall : (h.withBridge b).call? c = h.call? c := rfl
    simp only [step, hcall]
    cases h.call? c with
    | none => rfl
    | some k => exact congrArg some (drop_withBridge h b k)
  | panicked c =>
    have hcall : (h.withBridge b).call? c = h.call? c := rfl
    simp only [step, hcall]
    cases h.call? c with
    | none => rfl
    | some k => exact panicked_withBridge h b k
  | pool r pe =>
    simp only [step]
    split
    · exact forEngine_withBridge h b r _
    · rfl
  | workEnds r ticket report => exact forEngine_withBridge h b r _
  | register r => exact congrArg some (register_withBridge h b r)
  | wait time =>
    have hnow : (h.withBridge b).now = h.now := rfl
    simp only [step, hnow]
    split
    · rfl
    · rfl
  | bridgeRegister name f => cases hchange
  | bridgeUnregister name => cases hchange
  | _ => rfl

end Host

end LanguageHost
