import BitSerial.Proofs.Turn

/-! # What a stage does with what it is given

A stage is given tokens and commands, each in its own order, may be frozen at any time and sees the regions come and go.
A log beside the stage says what its queues took in and which operations ended. Whatever the stage is asked to do, the
log shows that it pairs tokens and commands by position, that none of them gets lost, and where its cycles went.
-/

namespace BitSerial

/-- What can be asked of a stage other than a reset. A cycle comes with the regions as they then are and with the cycles
that operations take. -/
inductive Controller.Request where
  | pushToken (token : Token)
  | pushCommand (command : Command)
  | stall (stalled : Bool)
  | clear
  | tick (handoff : Handoff) (counting : Bool) (duration : Operation → Except Fault Nat)

/-- A stage with a log of what went in and what came out. -/
structure Logged where
  controller : Controller
  /-- The tokens that were not dropped. -/
  tokens : List Token
  /-- The commands that were not dropped. -/
  commands : List Command
  /-- The operations whose work ended. -/
  finished : List Operation
  /-- The states in which counted cycles began since the counters were cleared, the latest first. -/
  spent : List ControlState

namespace Logged

/-- A stage that was never used. -/
def made (depth : Nat) : Logged := ⟨.ofDepth depth, [], [], [], []⟩

variable (logged : Logged)

/-- Does what is asked for and logs it. A push was dropped if the stage has counted it as such. -/
def serve : Controller.Request → Except Fault Logged
  | .pushToken token =>
    let controller := logged.controller.pushToken token
    let tokens := if controller.overflows = logged.controller.overflows then [token] else []
    .ok { logged with controller, tokens := logged.tokens ++ tokens }
  | .pushCommand command =>
    let controller := logged.controller.pushCommand command
    let commands := if controller.overflows = logged.controller.overflows then [command] else []
    .ok { logged with controller, commands := logged.commands ++ commands }
  | .stall stalled => .ok { logged with controller := logged.controller.setStalled stalled }
  | .clear => .ok { logged with controller := logged.controller.clearCycles, spent := [] }
  | .tick handoff counting duration => do
    let advance ← logged.controller.tick handoff counting duration
    let spent := if counting then [logged.controller.activity.state] else []
    return { logged with
      controller := advance.controller
      finished := logged.finished ++ advance.finished.toList
      spent := spent ++ logged.spent }

end Logged

/-- The operation whose work has ended but that was not handed on. -/
def Activity.sent : Activity → List Operation
  | .idle => []
  | .receiving _ => []
  | .running _ _ => []
  | .sending operation => [operation]

/-- Such an operation is in flight. -/
theorem Activity.operation?_eq_sent (activity : Activity) :
    ∃ rest, activity.operation?.toList = activity.sent ++ rest := by
  cases activity with
  | idle => exact ⟨[], rfl⟩
  | receiving operation => exact ⟨[operation], rfl⟩
  | running operation left => exact ⟨[operation], rfl⟩
  | sending operation => exact ⟨[], rfl⟩

namespace StateCycles

theorem get_count (cycles : StateCycles) (state other : ControlState) :
    (cycles.count state).get other =
      if other = state then min (cycles.get state + 1) (Word32.size - 1) else cycles.get other := by
  cases state <;> cases other <;> rfl

end StateCycles

namespace Controller

variable (controller : Controller) {duration : Operation → Except Fault Nat} {moved : Controller}
  {handoff after : Handoff} {finished : Option Operation}

theorem tick_of_stalled (h : controller.stalled = true) (handoff : Handoff) (counting : Bool)
    (duration : Operation → Except Fault Nat) :
    controller.tick handoff counting duration = .ok ⟨none, controller.counted counting, handoff⟩ := by
  have hcounted : (controller.counted counting).stalled = true := by simpa using h
  exact if_pos hcounted

theorem tick_of_free (h : controller.stalled = false) (handoff : Handoff) (counting : Bool)
    (duration : Operation → Except Fault Nat) :
    controller.tick handoff counting duration = (controller.counted counting).advance handoff duration := by
  have hcounted : ¬(controller.counted counting).stalled = true := by simp [h]
  exact if_neg hcounted

/-- A move counts nothing. -/
theorem Move.cycles_eq (h : controller.Move duration handoff finished moved after) :
    moved.cycles = controller.cycles := by
  cases h <;> rfl

theorem pushToken_of_full (h : controller.tokensFull = true) (token : Token) :
    controller.pushToken token = { controller with overflows := controller.overflows + 1 } :=
  if_pos h

theorem pushToken_of_room (h : controller.tokensFull = false) (token : Token) :
    controller.pushToken token = { controller with tokens := controller.tokens.push token } :=
  if_neg (Bool.eq_false_iff.mp h)

theorem pushCommand_of_full (h : controller.commandsFull = true) (command : Command) :
    controller.pushCommand command = { controller with overflows := controller.overflows + 1 } :=
  if_pos h

theorem pushCommand_of_room (h : controller.commandsFull = false) (command : Command) :
    controller.pushCommand command = { controller with commands := controller.commands.push command } :=
  if_neg (Bool.eq_false_iff.mp h)

end Controller

namespace Logged

section Push

variable {logged : Logged}

theorem serve_pushToken_of_full (h : logged.controller.tokensFull = true) (token : Token) :
    logged.serve (.pushToken token) = .ok { logged with
      controller := { logged.controller with overflows := logged.controller.overflows + 1 } } := by
  simp [serve, logged.controller.pushToken_of_full h]

theorem serve_pushToken_of_room (h : logged.controller.tokensFull = false) (token : Token) :
    logged.serve (.pushToken token) = .ok { logged with
      controller := { logged.controller with tokens := logged.controller.tokens.push token }
      tokens := logged.tokens ++ [token] } := by
  simp [serve, logged.controller.pushToken_of_room h]

theorem serve_pushCommand_of_full (h : logged.controller.commandsFull = true) (command : Command) :
    logged.serve (.pushCommand command) = .ok { logged with
      controller := { logged.controller with overflows := logged.controller.overflows + 1 } } := by
  simp [serve, logged.controller.pushCommand_of_full h]

theorem serve_pushCommand_of_room (h : logged.controller.commandsFull = false) (command : Command) :
    logged.serve (.pushCommand command) = .ok { logged with
      controller := { logged.controller with commands := logged.controller.commands.push command }
      commands := logged.commands ++ [command] } := by
  simp [serve, logged.controller.pushCommand_of_room h]

end Push

/-- What a stage has done with what it was given: the operations that it handed on, the one in flight and the entries in
its queues make up what its queues took in. -/
structure Kept (depth : Nat) (done : List Operation) (logged : Logged) : Prop where
  depth_eq : logged.controller.depth = depth
  completed : logged.controller.completed = done.length
  finished : logged.finished = done ++ logged.controller.activity.sent
  tokens : logged.tokens = (done ++ logged.controller.activity.operation?.toList).map (·.token) ++
    logged.controller.tokens.toList
  commands : logged.commands = (done ++ logged.controller.activity.operation?.toList).map (·.command) ++
    logged.controller.commands.toList
  tokens_le : logged.controller.tokens.length ≤ depth
  commands_le : logged.controller.commands.length ≤ depth
  cycles : ∀ state, logged.controller.cycles.get state = min (logged.spent.count state) (Word32.size - 1)

namespace Kept

variable {depth : Nat} {done : List Operation} {logged after : Logged}

theorem made (depth : Nat) : Kept depth [] (.made depth) := by
  refine ⟨rfl, rfl, rfl, rfl, rfl, Nat.zero_le _, Nat.zero_le _, fun state => ?_⟩
  cases state <;> rfl

theorem tokensFull_iff (h : Kept depth done logged) :
    logged.controller.tokensFull = true ↔ logged.controller.tokens.length = depth := by
  rw [Controller.tokensFull, decide_eq_true_iff, h.depth_eq]
  exact ⟨fun hfull => Nat.le_antisymm h.tokens_le hfull, fun hlength => Nat.le_of_eq hlength.symm⟩

theorem commandsFull_iff (h : Kept depth done logged) :
    logged.controller.commandsFull = true ↔ logged.controller.commands.length = depth := by
  rw [Controller.commandsFull, decide_eq_true_iff, h.depth_eq]
  exact ⟨fun hfull => Nat.le_antisymm h.commands_le hfull, fun hlength => Nat.le_of_eq hlength.symm⟩

theorem pushToken (h : Kept depth done logged) {token : Token} (hserve : logged.serve (.pushToken token) = .ok after) :
    Kept depth done after := by
  cases hfull : logged.controller.tokensFull with
  | true =>
    rw [serve_pushToken_of_full hfull] at hserve
    obtain rfl := Except.ok.inj hserve
    exact ⟨h.depth_eq, h.completed, h.finished, h.tokens, h.commands, h.tokens_le, h.commands_le, h.cycles⟩
  | false =>
    have hroom := mt h.tokensFull_iff.mpr (Bool.eq_false_iff.mp hfull)
    have hle := h.tokens_le
    rw [serve_pushToken_of_room hfull] at hserve
    obtain rfl := Except.ok.inj hserve
    refine ⟨h.depth_eq, h.completed, h.finished, ?_, h.commands, ?_, h.commands_le, h.cycles⟩
    · rw [Queue.toList_push, h.tokens, List.append_assoc]
    · rw [Queue.length_push]
      omega

theorem pushCommand (h : Kept depth done logged) {command : Command}
    (hserve : logged.serve (.pushCommand command) = .ok after) : Kept depth done after := by
  cases hfull : logged.controller.commandsFull with
  | true =>
    rw [serve_pushCommand_of_full hfull] at hserve
    obtain rfl := Except.ok.inj hserve
    exact ⟨h.depth_eq, h.completed, h.finished, h.tokens, h.commands, h.tokens_le, h.commands_le, h.cycles⟩
  | false =>
    have hroom := mt h.commandsFull_iff.mpr (Bool.eq_false_iff.mp hfull)
    have hle := h.commands_le
    rw [serve_pushCommand_of_room hfull] at hserve
    obtain rfl := Except.ok.inj hserve
    refine ⟨h.depth_eq, h.completed, h.finished, h.tokens, ?_, h.tokens_le, ?_, h.cycles⟩
    · rw [Queue.toList_push, h.commands, List.append_assoc]
    · rw [Queue.length_push]
      omega

/-- A cycle that is counted is counted in the state that it begins in, until a counter is full. -/
theorem counted (h : Kept depth done logged) (counting : Bool) :
    Kept depth done { logged with
      controller := logged.controller.counted counting
      spent := (if counting then [logged.controller.activity.state] else []) ++ logged.spent } := by
  cases counting with
  | false => exact ⟨h.depth_eq, h.completed, h.finished, h.tokens, h.commands, h.tokens_le, h.commands_le, h.cycles⟩
  | true =>
    refine ⟨h.depth_eq, h.completed, h.finished, h.tokens, h.commands, h.tokens_le, h.commands_le, fun state => ?_⟩
    change (logged.controller.cycles.count logged.controller.activity.state).get state =
      min ((logged.controller.activity.state :: logged.spent).count state) _
    rw [StateCycles.get_count, List.count_cons, h.cycles, h.cycles]
    by_cases hstate : state = logged.controller.activity.state
    · subst hstate
      rw [if_pos rfl, if_pos (beq_self_eq_true _)]
      omega
    · rw [if_neg hstate, if_neg (by simpa using Ne.symm hstate), Nat.add_zero]

/-- Whatever a cycle does, the entries that a stage took in are still accounted for. -/
theorem move (h : Kept depth done logged) {duration : Operation → Except Fault Nat} {moved : Controller}
    {handoff next : Handoff} {finished : Option Operation}
    (hmove : logged.controller.Move duration handoff finished moved next) :
    ∃ done, Kept depth done { logged with controller := moved, finished := logged.finished ++ finished.toList } := by
  obtain ⟨hdepth, hcompleted, hfinished, htokens, hcommands, htokensLe, hcommandsLe, hcycles⟩ := h
  have hdepth : moved.depth = depth := hmove.frame.1.trans hdepth
  have htokensLe : moved.tokens.length ≤ depth := Nat.le_trans hmove.queues_le.1 htokensLe
  have hcommandsLe : moved.commands.length ≤ depth := Nat.le_trans hmove.queues_le.2 hcommandsLe
  have hcycles : ∀ state, moved.cycles.get state = min (logged.spent.count state) (Word32.size - 1) :=
    hmove.cycles_eq ▸ hcycles
  cases hmove with
  | stand =>
    exact ⟨done, hdepth, hcompleted, (List.append_nil _).trans hfinished, htokens, hcommands, htokensLe, hcommandsLe,
      hcycles⟩
  | take _ hactivity hqueued hordered =>
    rw [hactivity] at hfinished htokens hcommands
    refine ⟨done, hdepth, hcompleted, (List.append_nil _).trans hfinished, ?_, ?_, htokensLe, hcommandsLe, hcycles⟩
    · simpa [Activity.operation?, hqueued] using htokens
    · simpa [Activity.operation?, hordered] using hcommands
  | start _ hactivity =>
    rw [hactivity] at hfinished htokens hcommands
    exact ⟨done, hdepth, hcompleted, (List.append_nil _).trans hfinished, htokens, hcommands, htokensLe, hcommandsLe,
      hcycles⟩
  | work _ hactivity =>
    rw [hactivity] at hfinished htokens hcommands
    exact ⟨done, hdepth, hcompleted, (List.append_nil _).trans hfinished, htokens, hcommands, htokensLe, hcommandsLe,
      hcycles⟩
  | finish _ hactivity =>
    rw [hactivity] at hfinished htokens hcommands
    exact ⟨done, hdepth, hcompleted, by simp [hfinished, Activity.sent], htokens, hcommands, htokensLe, hcommandsLe,
      hcycles⟩
  | @handOn operation _ _ hactivity =>
    rw [hactivity] at hfinished htokens hcommands
    refine ⟨done ++ [operation], hdepth, by simp [hcompleted], ?_, ?_, ?_, htokensLe, hcommandsLe, hcycles⟩
    · simpa [Activity.sent] using hfinished
    · simpa [Activity.operation?] using htokens
    · simpa [Activity.operation?] using hcommands

theorem serve (h : Kept depth done logged) {request : Controller.Request} (hserve : logged.serve request = .ok after) :
    ∃ done, Kept depth done after := by
  cases request with
  | pushToken token => exact ⟨done, h.pushToken hserve⟩
  | pushCommand command => exact ⟨done, h.pushCommand hserve⟩
  | stall stalled =>
    obtain rfl := Except.ok.inj hserve
    exact ⟨done, h.depth_eq, h.completed, h.finished, h.tokens, h.commands, h.tokens_le, h.commands_le, h.cycles⟩
  | clear =>
    obtain rfl := Except.ok.inj hserve
    refine ⟨done, h.depth_eq, h.completed, h.finished, h.tokens, h.commands, h.tokens_le, h.commands_le, ?_⟩
    intro state
    cases state <;> rfl
  | tick handoff counting duration =>
    obtain ⟨advance, htick, hafter⟩ := bind_eq_ok_iff.mp hserve
    obtain rfl := pure_eq_ok_iff.mp hafter
    exact (h.counted counting).move (Controller.tick_move _ htick)

end Kept

/-- How many of the cycles that are asked of a stage find it free to move. -/
def freeCycles : (stalled : Bool) → List Controller.Request → Nat
  | _, [] => 0
  | stalled, .pushToken _ :: requests => freeCycles stalled requests
  | stalled, .pushCommand _ :: requests => freeCycles stalled requests
  | _, .stall stalled :: requests => freeCycles stalled requests
  | stalled, .clear :: requests => freeCycles stalled requests
  | stalled, .tick .. :: requests => (if stalled then 0 else 1) + freeCycles stalled requests

theorem freeCycles_singleton_le (stalled : Bool) (request : Controller.Request) (requests : List Controller.Request) :
    freeCycles stalled [request] ≤ freeCycles stalled (request :: requests) := by
  cases request <;> simp [freeCycles]

/-- A stage that works on an operation for so many of the cycles that find it free to move, no more and no less,
whatever is asked of it meanwhile. The operation is finished in the last of them. -/
structure Works (operation : Operation) (cycles : Nat) (logged : Logged) : Prop where
  working : ∀ requests, freeCycles logged.controller.stalled requests < cycles →
    ∃ later, requests.foldlM serve logged = .ok later ∧ later.controller.activity.state = .run ∧
      later.finished = logged.finished
  done : ∀ requests later, freeCycles logged.controller.stalled requests + 1 = cycles →
    requests.foldlM serve logged = .ok later → later.controller.stalled = false →
    ∀ handoff counting duration, ∃ ended, later.serve (.tick handoff counting duration) = .ok ended ∧
      ended.controller.activity.state = .send ∧ ended.finished = logged.finished ++ [operation]

section Work

variable {logged : Logged} {operation : Operation} {left : Nat}

theorem serve_tick_of_stalled (hstalled : logged.controller.stalled = true) (handoff : Handoff) (counting : Bool)
    (duration : Operation → Except Fault Nat) :
    ∃ next, logged.serve (.tick handoff counting duration) = .ok next ∧
      next.controller = logged.controller.counted counting ∧ next.finished = logged.finished := by
  exact ⟨_, bind_of_ok (logged.controller.tick_of_stalled hstalled handoff counting duration), rfl,
    List.append_nil _⟩

/-- A stage that works moves on whenever it is free to, whatever the regions are. -/
theorem serve_tick_of_running (hactivity : logged.controller.activity = .running operation left)
    (hfree : logged.controller.stalled = false) (handoff : Handoff) (counting : Bool)
    (duration : Operation → Except Fault Nat) :
    ∃ next, logged.serve (.tick handoff counting duration) = .ok next ∧ next.controller.stalled = false ∧
      next.controller.activity = (if 1 < left then .running operation (left - 1) else .sending operation) ∧
      next.finished = logged.finished ++ if 1 < left then [] else [operation] := by
  have hcounted : (logged.controller.counted counting).activity = .running operation left := by simpa using hactivity
  have htick := logged.controller.tick_of_free hfree handoff counting duration
  rw [Controller.advance, hcounted] at htick
  by_cases hleft : 1 < left
  · rw [if_pos hleft, if_pos hleft]
    exact ⟨_, bind_of_ok (htick.trans (if_pos hleft)), by simpa using hfree, rfl, rfl⟩
  · rw [if_neg hleft, if_neg hleft]
    exact ⟨_, bind_of_ok (htick.trans (if_neg hleft)), by simpa using hfree, rfl, rfl⟩

/-- What is asked of a stage that works takes from its work the cycles that find it free to move, and nothing else. -/
theorem serve_of_running (hactivity : logged.controller.activity = .running operation left)
    (request : Controller.Request) (hleft : freeCycles logged.controller.stalled [request] < left) :
    ∃ next, logged.serve request = .ok next ∧
      next.controller.activity = .running operation (left - freeCycles logged.controller.stalled [request]) ∧
      next.finished = logged.finished ∧
      ∀ requests, freeCycles logged.controller.stalled (request :: requests) =
        freeCycles logged.controller.stalled [request] + freeCycles next.controller.stalled requests := by
  cases request with
  | pushToken token =>
    cases hfull : logged.controller.tokensFull with
    | true => exact ⟨_, serve_pushToken_of_full hfull token, hactivity, rfl, fun requests => (Nat.zero_add _).symm⟩
    | false => exact ⟨_, serve_pushToken_of_room hfull token, hactivity, rfl, fun requests => (Nat.zero_add _).symm⟩
  | pushCommand command =>
    cases hfull : logged.controller.commandsFull with
    | true => exact ⟨_, serve_pushCommand_of_full hfull command, hactivity, rfl, fun requests => (Nat.zero_add _).symm⟩
    | false => exact ⟨_, serve_pushCommand_of_room hfull command, hactivity, rfl, fun requests => (Nat.zero_add _).symm⟩
  | stall stalled => exact ⟨_, rfl, hactivity, rfl, fun requests => (Nat.zero_add _).symm⟩
  | clear => exact ⟨_, rfl, hactivity, rfl, fun requests => (Nat.zero_add _).symm⟩
  | tick handoff counting duration =>
    cases hstalled : logged.controller.stalled with
    | true =>
      obtain ⟨next, hserve, hcontroller, hfinished⟩ := serve_tick_of_stalled hstalled handoff counting duration
      refine ⟨next, hserve, ?_, hfinished, fun requests => ?_⟩
      · rw [hcontroller, Controller.counted_activity, hactivity]
        rfl
      · rw [hcontroller, Controller.counted_stalled, hstalled]
        rfl
    | false =>
      rw [hstalled] at hleft
      have hmore : 1 < left := hleft
      obtain ⟨next, hserve, hfree, hmoved, hfinished⟩ :=
        serve_tick_of_running hactivity hstalled handoff counting duration
      rw [if_pos hmore] at hmoved hfinished
      refine ⟨next, hserve, hmoved, hfinished.trans (List.append_nil _), fun requests => ?_⟩
      rw [hfree]
      rfl

theorem serveAll_of_running (hactivity : logged.controller.activity = .running operation left)
    (requests : List Controller.Request) (hleft : freeCycles logged.controller.stalled requests < left) :
    ∃ later, requests.foldlM serve logged = .ok later ∧
      later.controller.activity = .running operation (left - freeCycles logged.controller.stalled requests) ∧
      later.finished = logged.finished := by
  induction requests generalizing logged left with
  | nil => exact ⟨logged, rfl, hactivity, rfl⟩
  | cons request requests ih =>
    have hfirst : freeCycles logged.controller.stalled [request] < left :=
      Nat.lt_of_le_of_lt (freeCycles_singleton_le _ request requests) hleft
    obtain ⟨next, hserve, hnext, hfinished, hcycles⟩ := serve_of_running hactivity request hfirst
    rw [hcycles] at hleft ⊢
    obtain ⟨later, hrest, hlater, hkept⟩ := ih hnext (by omega)
    refine ⟨later, ?_, ?_, hkept.trans hfinished⟩
    · rw [List.foldlM_cons]
      exact (bind_of_ok hserve).trans hrest
    · rw [hlater, Nat.sub_sub]

/-- An operation that has begun is worked on to its end. -/
theorem works_of_running (hactivity : logged.controller.activity = .running operation left) :
    Works operation left logged := by
  refine ⟨fun requests hleft => ?_, fun requests later hleft hserve hfree handoff counting duration => ?_⟩
  · obtain ⟨later, hserve, hlater, hfinished⟩ := serveAll_of_running hactivity requests hleft
    exact ⟨later, hserve, by rw [hlater]; rfl, hfinished⟩
  · obtain ⟨found, hfound, hlater, hfinished⟩ := serveAll_of_running hactivity requests (by omega)
    obtain rfl := Except.ok.inj (hfound.symm.trans hserve)
    obtain ⟨ended, htick, _, hended, hend⟩ := serve_tick_of_running hlater hfree handoff counting duration
    rw [if_neg (by omega)] at hended hend
    exact ⟨ended, htick, by rw [hended]; rfl, by rw [hend, hfinished]⟩

/-- A stage that gets its regions begins to work. -/
theorem serve_tick_of_acquired {handoff after : Handoff} {counting : Bool} {duration : Operation → Except Fault Nat}
    {cycles : Nat} (hactivity : logged.controller.activity = .receiving operation)
    (hfree : logged.controller.stalled = false) (hacquire : handoff.acquire? operation.command = some after)
    (hduration : duration operation = .ok cycles) :
    ∃ started, logged.serve (.tick handoff counting duration) = .ok started ∧
      started.controller.activity = .running operation (max cycles 1) := by
  have hcounted : (logged.controller.counted counting).activity = .receiving operation := by simpa using hactivity
  have htick := logged.controller.tick_of_free hfree handoff counting duration
  simp only [Controller.advance, hcounted, hacquire, hduration] at htick
  exact ⟨_, bind_of_ok htick, rfl⟩

end Work

/-- Every cycle that is counted is counted in one state. -/
theorem length_eq_sum_count (spent : List ControlState) :
    spent.length = spent.count .command + spent.count .run + spent.count .send + spent.count .receive := by
  induction spent with
  | nil => rfl
  | cons state spent ih =>
    rw [List.length_cons, ih]
    cases state <;> simp <;> omega

/-- A stage that loses nothing of what it was given and mixes nothing up. -/
structure Lossless (depth : Nat) (logged : Logged) : Prop where
  /-- The operations that finished are the first token with the first command, the second with the second, and on. -/
  paired : ∀ (n : Nat) (operation : Operation), logged.finished[n]? = some operation →
    logged.tokens[n]? = some operation.token ∧ logged.commands[n]? = some operation.command
  /-- A token is dropped exactly when the queue is at its depth, and then it is counted and nothing else changes. -/
  pushToken : ∀ token, logged.serve (.pushToken token) = .ok (
    if logged.controller.tokens.length = depth then
      { logged with controller := { logged.controller with overflows := logged.controller.overflows + 1 } }
    else
      { logged with
        controller := { logged.controller with tokens := logged.controller.tokens.push token }
        tokens := logged.tokens ++ [token] })
  /-- A command is dropped exactly when the queue is at its depth, and then it is counted and nothing else changes. -/
  pushCommand : ∀ command, logged.serve (.pushCommand command) = .ok (
    if logged.controller.commands.length = depth then
      { logged with controller := { logged.controller with overflows := logged.controller.overflows + 1 } }
    else
      { logged with
        controller := { logged.controller with commands := logged.controller.commands.push command }
        commands := logged.commands ++ [command] })
  tokens : logged.tokens.length = logged.controller.tokens.length +
    (if logged.controller.activity.operation?.isSome then 1 else 0) + logged.controller.completed
  commands : logged.commands.length = logged.controller.commands.length +
    (if logged.controller.activity.operation?.isSome then 1 else 0) + logged.controller.completed
  inFlight : logged.controller.activity.operation?.isSome ↔ logged.controller.activity.state ≠ .command
  /-- An operation that gets its regions is worked on for its cycles, and for one if it has none. -/
  acquired : ∀ operation handoff after counting duration cycles, logged.controller.activity = .receiving operation →
    logged.controller.stalled = false → handoff.acquire? operation.command = some after →
    duration operation = .ok cycles →
    ∃ started, logged.serve (.tick handoff counting duration) = .ok started ∧ started.Works operation (max cycles 1)
  /-- As long as no counter is full, the counters together show all cycles that were counted. -/
  counted : (∀ state, logged.spent.count state < Word32.size) →
    logged.controller.cycles.total = logged.spent.length
  cycles_lt : ∀ state, logged.controller.cycles.get state < Word32.size

/-- Nothing that a stage is asked for, in whatever order, makes it lose or mix up what it was given. -/
theorem stage_lossless (depth : Nat) (requests : List Controller.Request) (logged : Logged)
    (h : requests.foldlM serve (made depth) = .ok logged) : logged.Lossless depth := by
  have hserve (logged : Logged) (request : Controller.Request) (after : Logged)
      (hkept : ∃ done, Kept depth done logged) (hserve : logged.serve request = .ok after) :
      ∃ done, Kept depth done after := by
    obtain ⟨_, hkept⟩ := hkept
    exact hkept.serve hserve
  obtain ⟨done, hkept⟩ := foldlM_keeps hserve ⟨[], Kept.made depth⟩ h
  have hlength : (if logged.controller.activity.operation?.isSome then 1 else 0) =
      logged.controller.activity.operation?.toList.length := by
    cases logged.controller.activity.operation? <;> rfl
  constructor
  case paired =>
    intro n operation hoperation
    have hat {α : Type} (view : Operation → α) (later : List α) :
        (logged.finished.map view ++ later)[n]? = some (view operation) := by
      have hview : (logged.finished.map view)[n]? = some (view operation) := by
        rw [List.getElem?_map, hoperation, Option.map_some]
      rw [List.getElem?_append_left (List.getElem?_eq_some_iff.mp hview).1, hview]
    obtain ⟨rest, hrest⟩ := logged.controller.activity.operation?_eq_sent
    rw [hkept.tokens, hkept.commands, hrest, ← List.append_assoc, ← hkept.finished, List.map_append, List.map_append,
      List.append_assoc, List.append_assoc]
    exact ⟨hat _ _, hat _ _⟩
  case pushToken =>
    intro token
    split
    next hfull => exact serve_pushToken_of_full (hkept.tokensFull_iff.mpr hfull) token
    next hroom => exact serve_pushToken_of_room (Bool.eq_false_iff.mpr (mt hkept.tokensFull_iff.mp hroom)) token
  case pushCommand =>
    intro command
    split
    next hfull => exact serve_pushCommand_of_full (hkept.commandsFull_iff.mpr hfull) command
    next hroom => exact serve_pushCommand_of_room (Bool.eq_false_iff.mpr (mt hkept.commandsFull_iff.mp hroom)) command
  case tokens =>
    rw [hkept.tokens, List.length_append, List.length_map, List.length_append, Queue.length_toList, hkept.completed,
      hlength]
    omega
  case commands =>
    rw [hkept.commands, List.length_append, List.length_map, List.length_append, Queue.length_toList, hkept.completed,
      hlength]
    omega
  case inFlight => cases logged.controller.activity <;> simp [Activity.operation?, Activity.state]
  case acquired =>
    intro operation handoff after counting duration cycles hactivity hfree hacquire hduration
    obtain ⟨started, hserve, hstarted⟩ := serve_tick_of_acquired hactivity hfree hacquire hduration
    exact ⟨started, hserve, works_of_running hstarted⟩
  case counted =>
    intro hfits
    have hget (state : ControlState) : logged.controller.cycles.get state = logged.spent.count state := by
      rw [hkept.cycles, Nat.min_eq_left (Nat.le_sub_one_of_lt (hfits state))]
    rw [length_eq_sum_count, ← hget, ← hget, ← hget, ← hget]
    rfl
  case cycles_lt =>
    intro state
    rw [hkept.cycles]
    exact Nat.lt_of_le_of_lt (Nat.min_le_right _ _) (by decide)

/-- A host that pushes two tokens into a queue with room for one and freezes the stage for a cycle. -/
def crowdedRequests : List Controller.Request :=
  let token (row : Nat) : Token := ⟨⟨row, 0, 0⟩, 0⟩
  let tick : Controller.Request := .tick .idle true fun _ => .ok 2
  [.pushToken (token 0), .pushToken (token 1), .pushCommand (.fetch ⟨0, ⟨none, none⟩, 1⟩), tick, .stall true, tick,
    .stall false, .pushToken (token 2), tick, tick, tick]

/-- The second token is dropped and the third one is still queued when the first operation is finished. -/
theorem stage_lossless_crowded :
    ∃ logged, crowdedRequests.foldlM serve (made 1) = .ok logged ∧
      logged.finished = [⟨.fetch ⟨0, ⟨none, none⟩, 1⟩, ⟨⟨0, 0, 0⟩, 0⟩⟩] ∧ logged.controller.overflows = 1 ∧
      logged.controller.tokens.toList = [⟨⟨2, 0, 0⟩, 0⟩] ∧ logged.spent = [.run, .run, .receive, .receive, .command] ∧
      logged.Lossless 1 :=
  ⟨_, rfl, rfl, rfl, rfl, rfl, stage_lossless 1 crowdedRequests _ rfl⟩

end Logged

end BitSerial
