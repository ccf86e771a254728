/-
This file performs the actions of scripts. Delegates, callbacks, hooks and reactors run scripts,
and scripts run pumps, so everything here is defined together; `fuel` bounds how deep the calls
go, and a performance that uses it up is exhausted.

A pump, a context and a hook slot are served in the same way: look at what is requested, do it,
and answer. What happens inside them is not decided here.
-/

import MessagePump.Scenario.World

namespace MessagePump

/-- What a script acts for: its pump, and inside a call for delayed work the deadline that the
call was lent and can change. -/
structure Scope where
  pump : PumpId
  lent : Option (Option Instant) := none

namespace Tally

/-- One more call of a kind. -/
def add (tally : Tally) : Band → Tally
  | .immediate => { tally with immediate := tally.immediate + 1 }
  | .delayed => { tally with delayed := tally.delayed + 1 }
  | .idle => { tally with idle := tally.idle + 1 }

/-- The number of calls of a kind. -/
def get (tally : Tally) : Band → Nat
  | .immediate => tally.immediate
  | .delayed => tally.delayed
  | .idle => tally.idle

end Tally

/-- The text of a waker when it is shown. -/
def wakerText : String := "PumpWaker \x7b .. \x7d"

namespace Play

/-! ### Actions that run no script -/

/-- Performs an action on a pump that exists. -/
def withPump (pump : PumpId) (action : Pump → Play Unit) : Play Unit := do
  match ← pump? pump with
  | some state => action state
  | none => record (.noPump pump)

/-- Performs an action on a pump whose reactor watches descriptors. -/
def withPoller (pump : PumpId) (action : Nat → Play Unit) : Play Unit :=
  withPump pump fun _ => do
    match (← station? pump).map Station.reactor with
    | some (.poller capacity) => action capacity
    | _ => record (.noWatching pump)

/-- The context that an action is about: one that is held, or the current one of a pump. -/
def target? (pump : PumpId) : Option String → Play (Option (PumpId × ContextId))
  | some held => return (← get).holds.lookup held
  | none => return ((← pump? pump).bind Pump.context?).map fun context => (pump, context)

/-- The current context of a pump, which can be asked for whenever a script runs. -/
def current (state : Pump) : Play ContextId :=
  match state.context? with
  | some context => return context
  | none => throw .aborted

/-- The reaction of a pump to `quit`. -/
def quit (pump : PumpId) : Play Unit :=
  withPump pump fun state => do
    let (state, said) := state.quit
    changePump pump fun _ => state
    say said

/-- Reports the state of a pump. -/
def report (pump : PumpId) : Play Unit :=
  withPump pump fun state => do
    let id ← current state
    let watches := match ← context? pump id with
      | some (.polled context _) => some context.watchCount
      | _ => none
    record (.state pump (← standing pump) state.deadline id state.name watches)

/-- Stores a waker under a name, in place of the one that was there. -/
def storeWaker (pump : PumpId) (name : String) : Play Unit :=
  withPump pump fun _ => do
    let replaced := (← get).wakers.lookup name
    changePump pump Pump.addWaker
    modify fun world => { world with wakers := rename world.wakers name pump }
    replaced.forM fun pump => shrinkSlot pump Pump.dropWaker

/-- Forgets a waker. -/
def dropWaker (name : String) : Play Unit := do
  match (← get).wakers.lookup name with
  | some pump =>
    modify fun world => { world with wakers := forget world.wakers name }
    shrinkSlot pump Pump.dropWaker
  | none => return

/-- Schedules work through a waker. -/
def useWaker (name : String) (manner : WakeManner) : Play Unit := do
  match (← get).wakers.lookup name with
  | none => record .noWaker
  | some pump =>
    match manner with
    | .here => wake pump true
    | .elsewhere => wake pump false
    | .later millis =>
      changePump pump Pump.addWaker
      modify fun world =>
        { world with pending := world.pending ++ [(world.now + .ofMillis millis, pump)] }

/-- Performs an action on a descriptor or on the clock. -/
def performPlain : Action → Play Unit
  | .sleep millis => do
    let world ← get
    passUntil (world.now + .ofMillis millis) (world.pending.length + 1)
  | .note text => record (.note text)
  | .wake waker manner => useWaker waker manner
  | .describeWaker waker => do
    record (.waker (((← get).wakers.lookup waker).map fun _ => wakerText))
  | .dropWaker waker => dropWaker waker
  | .limitDescriptors spare => changeKernel fun kernel => { kernel with spare }
  | .write descriptor bytes => do
    record (.written descriptor (← transfer descriptor fun kernel d => kernel.write d bytes))
  | .read descriptor limit => do
    record (.read descriptor (← transfer descriptor fun kernel d => kernel.read d limit))
  | .fill descriptor => transfer descriptor fun kernel d => ((), kernel.fill d)
  | .drain descriptor => transfer descriptor fun kernel d => ((), kernel.drain d)
  | .close descriptor => do
    record (.closed descriptor (← transfer descriptor fun kernel d => kernel.close d))
  | .shutdown descriptor how => do
    record (.shut descriptor (← transfer descriptor fun kernel d => kernel.shutdown d how))
  | .duplicate descriptor name => do
    let copy ← transfer descriptor fun kernel d =>
      match kernel.duplicate? d with
      | some (copy, kernel) => (copy, kernel)
      | none => (-1, kernel)
    modify fun world => { world with descriptors := rename world.descriptors name copy }
  | _ => return

/-- Reports the result of an operation on a context; a panic goes on. -/
def settle (result : ContextResult) (report : Except IoError Token → Play Unit) : Play Unit :=
  match result with
  | .panicked message => panic message
  | .failed cause => report (.error cause)
  | .watched token => report (.ok token)
  | .changed | .removed | .polled => report (.ok 0)

/-! ### Scripts, runs and reactors -/

mutual

/-- Performs actions one after another. -/
def performAll : Nat → Scope → List Action → Play Scope
  | 0, _, _ => throw .exhausted
  | fuel + 1, scope, actions => actions.foldlM (perform fuel) scope

/-- Performs an action. -/
def perform : Nat → Scope → Action → Play Scope
  | 0, _, _ => throw .exhausted
  | fuel + 1, scope, action =>
    match action with
    | .run pump choice maxLevel catching => do
      let pump := pump.getD scope.pump
      withPump pump fun state => do
        if maxLevel.any fun maxLevel => decide (maxLevel ≤ state.level) then
          record (.runSkipped pump)
        else
          let named := (← get).delegates
          runPump fuel pump (choice.delegate named) catching
      return scope
    | .quit pump => do quit (pump.getD scope.pump); return scope
    | .scheduleWork pump => do
      let pump := pump.getD scope.pump
      withPump pump fun _ => wake pump true
      return scope
    | .scheduleDelayed pump moment => do
      let pump := pump.getD scope.pump
      withPump pump fun _ => do
        let now := (← get).now
        changePump pump fun state => state.scheduleDelayed (moment.instant now)
      return scope
    | .state pump => do report (pump.getD scope.pump); return scope
    | .waker pump name => do storeWaker (pump.getD scope.pump) name; return scope
    | .hold pump name => do
      let pump := pump.getD scope.pump
      withPump pump fun state => do
        let context ← current state
        let replaced := (← get).holds.lookup name
        changePump pump fun state => state.acquire context
        modify fun world => { world with holds := rename world.holds name (pump, context) }
        replaced.forM fun (pump, context) => release fuel pump context
      return scope
    | .setHook pump label calls => do
      let pump := pump.getD scope.pump
      withPoller pump fun _ => do
        let id := (← get).hooks.length
        let part : Part := { label, pump, calls }
        modify fun world => { world with hooks := world.hooks ++ [part] }
        changeStation pump fun station => { station with hook := station.hook.set id }
        match ← serveHook fuel pump with
        | .panicked message => panic message
        | _ => return
      return scope
    | .clearHook pump => do
      let pump := pump.getD scope.pump
      withPoller pump fun _ => do
        changeStation pump fun station => { station with hook := station.hook.clear }
        match ← serveHook fuel pump with
        | .panicked message => panic message
        | .cleared was => record (.hookCleared was)
        | _ => return
      return scope
    | .capacity pump => do
      withPoller (pump.getD scope.pump) fun capacity => record (.capacity capacity)
      return scope
    | .dropPump pump => do
      let pump := pump.getD scope.pump
      withPump pump fun state => do
        if state.stack.isEmpty then
          drop fuel pump
          record (.pumpDropped pump)
        else record .dropRefused
      return scope
    | .onContext pump held action => do
      let picked := pump.getD scope.pump
      match ← target? picked held with
      | none => record .noContext
      | some (pump, context) =>
        changePump pump fun state => state.acquire context
        thenAlways (performOn fuel picked pump context action) (release fuel pump context)
      return scope
    | .next moment => do
      let now := (← get).now
      match scope.lent with
      | some _ => return { scope with lent := some (moment.map fun moment => moment.instant now) }
      | none => record .noDeadline; return scope
    | .panic message => panic message
    | .release held => do
      match (← get).holds.lookup held with
      | some (pump, context) =>
        modify fun world => { world with holds := forget world.holds held }
        release fuel pump context
      | none => pure ()
      return scope
    | action => do performPlain action; return scope

/-- Performs an action on a context, which is owned meanwhile. A callback acts for the pump that
was picked when it was registered. -/
def performOn : Nat → PumpId → PumpId → ContextId → ContextAction → Play Unit
  | 0, _, _, _, _ => throw .exhausted
  | fuel + 1, picked, pump, id, action => do
    match action, ← context? pump id with
    | .poll timeout, _ =>
      record (.polled id (← poll fuel pump id timeout))
    | .signal, _ => do
      record (.nameSignal pump id)
      sendSignal pump id true
    | .watch label descriptor interest calls tail, some (.polled context poller) => do
      let world ← get
      let descriptor := (world.descriptors.lookup descriptor).getD (-1)
      let callback := world.callbacks.length
      let part : Part := { label, pump := picked, calls, tail }
      set { world with callbacks := world.callbacks ++ [part] }
      setContext pump id (context.watch descriptor interest callback) poller
      settle (← serveContext fuel pump id) fun result => do
        match result with
        | .ok token => modify fun world =>
            { world with labels := rename world.labels label token }
        | .error _ => pure ()
        record (.watched label result)
    | .rewatch label interest, some (.polled context poller) => do
      match (← get).labels.lookup label with
      | none => record (.noToken label)
      | some token =>
        setContext pump id (context.rewatch token interest) poller
        settle (← serveContext fuel pump id) fun result =>
          record (.rewatched label (result.map fun _ => ()))
    | .unwatch label, some (.polled context poller) => do
      match (← get).labels.lookup label with
      | none => record (.noToken label)
      | some token =>
        setContext pump id (context.unwatch token) poller
        settle (← serveContext fuel pump id) fun result =>
          record (.unwatched label (result.map fun _ => ()))
    | .interest label, some (.polled context _) => do
      match (← get).labels.lookup label with
      | none => record (.noToken label)
      | some token => record (.interest label (context.interest? token))
    | .count, some (.polled context _) => record (.count id context.watchCount)
    | .break part, some (.polled _ poller) =>
      changeKernel fun kernel => match part with
        | .wake target => kernel.breakWake poller target
        | .poller => kernel.breakPoller poller
    | _, _ => record (.noWatching picked)

/-- Consults the script of a reactor on an occasion. -/
def consult : Nat → PumpId → Occasion → Play (Option IoError)
  | 0, _, _ => throw .exhausted
  | fuel + 1, pump, occasion => do
    match (← station? pump).map fun station => station.scripts.take occasion with
    | some (some entry, scripts) =>
      changeStation pump fun station => { station with scripts }
      let _ ← performAll fuel { pump } entry.actions
      return entry.failure
    | _ => return none

/-- Runs a pump and reports how that ends. -/
def runPump : Nat → PumpId → Delegate → Bool → Play Unit
  | 0, _, _, _ => throw .exhausted
  | fuel + 1, pump, delegate, catching => do
    let (outcome, calls) ← match (← pump? pump).bind Pump.enter? with
      | none => pure (Outcome.panicked Pump.staleQuit, ({} : Tally))
      | some (state, said) => do
        changePump pump fun _ => state
        say said
        serve fuel pump delegate ({} : Tally)
    match outcome with
    | .finished => record (.runFinished pump (← standing pump) calls)
    | .failed error => record (.runFailed pump (← standing pump) error calls)
    | .panicked message =>
      if catching then record (.runPanicked pump (← standing pump) message calls)
      else panic message

/-- Serves the innermost invocation of a pump until it ends. -/
def serve : Nat → PumpId → Delegate → Tally → Play (Outcome × Tally)
  | 0, _, _, _ => throw .exhausted
  | fuel + 1, pump, delegate, calls => do
    match (← remains? pump).bind Pump.request? with
    | none | some .conflict | some .abort => throw .aborted
    | some .proceed =>
      answerPump pump .done
      serve fuel pump delegate calls
    | some .createContext =>
      answerPump pump <| match ← attempt (createContext fuel pump) with
        | .ok (.ok ()) => .created
        | .ok (.error cause) => .failed cause
        | .error message => .panicked message
      serve fuel pump delegate calls
    | some (.nameSignal context) =>
      record (.nameSignal pump context)
      answerPump pump .done
      serve fuel pump delegate calls
    | some .immediate =>
      record (.immediate pump (← standing pump))
      let result ← attempt (makeCall fuel pump delegate .immediate calls.immediate none)
      answerPump pump <| match result with
        | .ok (did, _) => .worked did
        | .error message => .panicked message
      serve fuel pump delegate (calls.add .immediate)
    | some (.delayed deadline) =>
      record (.delayed pump (← standing pump) deadline)
      let result ← attempt (makeCall fuel pump delegate .delayed calls.delayed (some deadline))
      answerPump pump <| match result with
        | .ok (did, lent) => .workedUntil did (lent.getD deadline)
        | .error message => .panicked message
      serve fuel pump delegate (calls.add .delayed)
    | some .idle =>
      record (.idle pump (← standing pump))
      let result ← attempt (makeCall fuel pump delegate .idle calls.idle none)
      answerPump pump <| match result with
        | .ok (did, _) => .worked did
        | .error message => .panicked message
      serve fuel pump delegate (calls.add .idle)
    | some .notify =>
      answerPump pump <| match ← attempt (notify fuel pump) with
        | .ok () => .done
        | .error message => .panicked message
      serve fuel pump delegate calls
    | some .clock =>
      answerPump pump (.time (← get).now)
      serve fuel pump delegate calls
    | some (.poll context timeout) =>
      answerPump pump <| match ← attempt (poll fuel pump context timeout) with
        | .ok (.ok ()) => .done
        | .ok (.error cause) => .failed cause
        | .error message => .panicked message
      serve fuel pump delegate calls
    | some (.destroy context) =>
      answerPump pump <| match ← attempt (destroy fuel pump context) with
        | .ok () => .done
        | .error message => .panicked message
      serve fuel pump delegate calls
    | some (.signal signal) =>
      sendSignal pump signal true
      answerPump pump .done
      serve fuel pump delegate calls
    | some (.leave outcome) =>
      answerPump pump .done
      return (outcome, calls)

/-- Makes a call of a delegate. Without a call of its own, a delegate quits its pump when it is
asked for immediate work, and never has work to do. -/
def makeCall : Nat → PumpId → Delegate → Band → Nat → Option (Option Instant) →
    Play (Bool × Option (Option Instant))
  | 0, _, _, _, _, _ => throw .exhausted
  | fuel + 1, pump, delegate, band, number, lent => do
    match (delegate.calls band).call? number with
    | some (.mk did actions) =>
      let scope ← performAll fuel { pump, lent } actions
      return (did, scope.lent)
    | none =>
      if band = .immediate then quit pump
      return (false, lent)

/-- Creates a context of a pump. -/
def createContext : Nat → PumpId → Play (Except IoError Unit)
  | 0, _ => throw .exhausted
  | fuel + 1, pump => do
    let refused (cause : IoError) : Play (Except IoError Unit) := do
      record (.createFailed pump (← standing pump))
      return .error cause
    match ← consult fuel pump .create with
    | some cause => refused cause
    | none =>
      let created (context : ContextState) : Play (Except IoError Unit) := do
        let id := ((← station? pump).map fun station => station.contexts.length).getD 0
        changeStation pump fun station =>
          { station with contexts := station.contexts ++ [context] }
        record (.create pump (← standing pump) id)
        return .ok ()
      match (← station? pump).map Station.reactor with
      | some (.poller capacity) =>
        match (← get).kernel.createPoller with
        | .error cause => refused cause
        | .ok (poller, kernel) =>
          modify fun world => { world with kernel }
          say [.remark .contextCreated]
          if overflowsBuffer capacity then
            changeKernel fun kernel => (kernel.closePoller poller).giveBack
            panic bufferOverflow
          else created (.polled { capacity } poller)
      | _ => created .recorded

/-- Destroys a context of a pump: what its script does comes first, then its callbacks go, and at
last it lets go of its wake signal. A panic of the script does not keep the rest from being
done. -/
def destroy : Nat → PumpId → ContextId → Play Unit
  | 0, _, _ => throw .exhausted
  | fuel + 1, pump, id => do
    record (.destroy pump (← standing pump) id)
    let result ← attempt (consult fuel pump .destroy)
    match ← context? pump id with
    | some (.polled context poller) =>
      say [.remark (.contextDestroyed context.watchCount)]
      changeKernel fun kernel => kernel.closePoller poller
      let callbacks := (← get).callbacks
      let labels := context.table.callbacks.filterMap fun callback =>
        (callbacks[callback]?).map fun part => (part.label, ())
      (byName labels).forM fun (label, _) => record (.callbackDropped label)
    | _ => pure ()
    let bound := ((← remains? pump).map fun state => state.isBound id).getD false
    if !bound then dropSignal pump id
    let _ ← resume result

/-- An owner outside the pump gives up a context, which is destroyed with its last owner. -/
def release : Nat → PumpId → ContextId → Play Unit
  | 0, _, _ => throw .exhausted
  | fuel + 1, pump, context => do
    match (← remains? pump).map fun state => state.release context with
    | some (state, last) =>
      changePump pump fun _ => state
      if last then
        let result ← attempt (destroy fuel pump context)
        changePump pump fun state => state.bury context
        resume result
    | none => return

/-- Polls a context once. -/
def poll : Nat → PumpId → ContextId → Option Duration → Play (Except IoError Unit)
  | 0, _, _, _ => throw .exhausted
  | fuel + 1, pump, id, timeout => do
    record (.poll pump (← standing pump) id timeout)
    match ← consult fuel pump .poll with
    | some cause => return .error cause
    | none =>
      match ← context? pump id with
      | some (.polled context poller) =>
        setContext pump id (context.poll timeout) poller
        match ← serveContext fuel pump id with
        | .failed cause => return .error cause
        | .panicked message => panic message
        | _ => return .ok ()
      | _ => return .ok ()

/-- Serves the innermost operation on a context until it ends. -/
def serveContext : Nat → PumpId → ContextId → Play ContextResult
  | 0, _, _ => throw .exhausted
  | fuel + 1, pump, id => do
    match ← context? pump id with
    | some (.polled context poller) =>
      match context.request? with
      | none | some .conflict | some .abort => throw .aborted
      | some .proceed =>
        answerContext pump id .done
        serveContext fuel pump id
      | some (.call callback readiness) =>
        let result ← attempt do
          match nextRun (← get).callbacks callback with
          | some (part, callbacks) =>
            modify fun world => { world with callbacks }
            record (.callback part.label part.times readiness)
            let _ ← performAll fuel { pump := part.pump } (part.actions part.times)
          | none => return
        answerContext pump id <| match result with
          | .ok () => .done
          | .error message => .panicked message
        serveContext fuel pump id
      | some (.discard callback) =>
        match (← get).callbacks[callback]? with
        | some part => record (.callbackDropped part.label)
        | none => pure ()
        answerContext pump id .done
        serveContext fuel pump id
      | some (.finish result) =>
        answerContext pump id .done
        return result
      | some (.wait room millis) =>
        answerContext pump id (← wait poller (.wait room millis) millis)
        serveContext fuel pump id
      | some request =>
        let world ← get
        match world.kernel.respond? poller request with
        | some (answer, kernel) =>
          set { world with kernel }
          answerContext pump id answer
          serveContext fuel pump id
        | none => throw .aborted
    | _ => throw .aborted

/-- Notifies the continuation of a pump. -/
def notify : Nat → PumpId → Play Unit
  | 0, _ => throw .exhausted
  | fuel + 1, pump => do
    record (.continuation pump (← standing pump))
    let _ ← consult fuel pump .continuation
    match (← station? pump).map Station.reactor with
    | some (.poller _) =>
      changeStation pump fun station => { station with hook := station.hook.notify }
      match ← serveHook fuel pump with
      | .panicked message => panic message
      | _ => return
    | _ => return

/-- Serves the innermost operation on the hook slot of a pump until it ends. -/
def serveHook : Nat → PumpId → Play HookResult
  | 0, _ => throw .exhausted
  | fuel + 1, pump => do
    match (← station? pump).bind fun station => station.hook.request? with
    | none | some .conflict | some .abort => throw .aborted
    | some .proceed =>
      answerHook pump .done
      serveHook fuel pump
    | some (.run hook) =>
      let result ← attempt do
        match nextRun (← get).hooks hook with
        | some (part, hooks) =>
          modify fun world => { world with hooks }
          record (.hook part.label part.times)
          let _ ← performAll fuel { pump := part.pump } (part.actions part.times)
        | none => return
      answerHook pump <| match result with
        | .ok () => .done
        | .error message => .panicked message
      serveHook fuel pump
    | some (.discard hook) =>
      match (← get).hooks[hook]? with
      | some part => record (.hookDropped part.label)
      | none => pure ()
      answerHook pump .done
      serveHook fuel pump
    | some (.finish result) =>
      answerHook pump .done
      return result

/-- Drops a pump: its current context goes first, then its share of the wake slot, then the
reactor with its hook. -/
def drop : Nat → PumpId → Play Unit
  | 0, _ => throw .exhausted
  | fuel + 1, pump => do
    match ← pump? pump with
    | none => return
    | some state =>
      say [.remark (.pumpDestroyed state.name)]
      let (state, last) := state.retire
      changePump pump fun _ => state
      let result ← attempt do
        if last then
          let result ← attempt (destroy fuel pump state.current)
          changePump pump fun state => state.bury state.current
          resume result
      shrinkSlot pump Pump.leaveSlot
      match (← station? pump).bind fun station => station.hook.installed with
      | some hook =>
        changeStation pump fun station => { station with hook := {} }
        match (← get).hooks[hook]? with
        | some part => record (.hookDropped part.label)
        | none => pure ()
      | none => pure ()
      resume result

end

end Play

end MessagePump
