/-
This file plays a scenario from its beginning to its end: descriptors and pumps are set up, the
steps are performed, and everything is taken down again. The result is the journal.
-/

import MessagePump.Scenario.Perform

namespace MessagePump

namespace Play

/-! ### Setting up -/

/-- The names of the two ends of a descriptor. -/
def endNames (number : Nat) : String × String :=
  (toString number ++ "a", toString number ++ "b")

/-- Opens a descriptor, or a pair of them, under the names that belong to its number. -/
def openDescriptor (number : Nat) (kind : DescriptorKind) : Play Unit := do
  let world ← get
  let (first, second) := endNames number
  match kind with
  | .sockets =>
    let (a, b, kernel) := world.kernel.openSockets
    set { world with kernel, descriptors := world.descriptors ++ [(first, a), (second, b)] }
  | .pipe =>
    let (a, b, kernel) := world.kernel.openPipe
    set { world with kernel, descriptors := world.descriptors ++ [(first, a), (second, b)] }
  | .counter =>
    let (a, kernel) := world.kernel.openFile (.counter 0)
    set { world with kernel, descriptors := world.descriptors ++ [(first, a)] }
  | .null =>
    let (a, kernel) := world.kernel.openFile .null
    set { world with kernel, descriptors := world.descriptors ++ [(first, a)] }

/-- Creates the pump of a station that is there already, with its outermost context. -/
def createPump (fuel : Nat) (pump : PumpId) (name : String) : Play Unit := do
  match ← attempt (createContext fuel pump) with
  | .error message => record (.newPanicked pump message)
  | .ok (.error cause) => record (.newFailed pump (.createContext cause))
  | .ok (.ok ()) =>
    record (.nameSignal pump 0)
    say [.remark (.pumpCreated name)]
    let state : Pump := { name }
    changeStation pump fun station => { station with pump := some state }
    record (.new pump name { level := state.level, running := state.running })

/-- Builds the reactor of a pump and then the pump. -/
def setUp (fuel : Nat) (spec : PumpSpec) : Play Unit := do
  let pump := (← get).stations.length
  let place (reactor : Reactor) : Play Unit := do
    modify fun world =>
      { world with stations := world.stations ++ [{ reactor, scripts := spec.scripts }] }
  match spec.reactor with
  | .recorder =>
    place .recorder
    createPump fuel pump spec.name
  | .poller capacities =>
    match eventCapacity? capacities with
    | none =>
      place .recorder
      record (.newPanicked pump noCapacity)
    | some capacity =>
      place (.poller capacity)
      createPump fuel pump spec.name

/-! ### Performing and taking down -/

/-- Performs a part of a performance; a panic that gets out of it is reported. -/
def isolate (part : Play Unit) : Play Unit := do
  match ← attempt part with
  | .ok () => return
  | .error message => record (.panicked message)

/-- Performs one step of a scenario. -/
def step (fuel : Nat) (action : Action) : Play Unit :=
  isolate do let _ ← perform fuel { pump := 0 } action

/-- Takes down what the scenario has left: the threads, the pumps, the held contexts and the
wakers. -/
def tearDown (fuel : Nat) : Play Unit := do
  changeKernel fun kernel => { kernel with spare := none }
  let threads := byMoment (← get).pending
  modify fun world => { world with pending := [] }
  threads.forM fun (_, pump) => wakeLater pump
  record .ended
  (List.range (← get).stations.length).forM fun pump => isolate (drop fuel pump)
  let held := byName (← get).holds
  modify fun world => { world with holds := [] }
  held.forM fun (_, pump, context) => isolate (release fuel pump context)
  let wakers := byName (← get).wakers
  modify fun world => { world with wakers := [] }
  wakers.forM fun (_, pump) => shrinkSlot pump Pump.dropWaker
where
  /-- Wake-ups of other threads in the order in which they come. -/
  byMoment (pending : List (Instant × PumpId)) : List (Instant × PumpId) :=
    pending.mergeSort fun first second => decide (first.1 ≤ second.1)

/-- Plays a scenario. -/
def scenario (fuel : Nat) (scenario : Scenario) : Play Unit := do
  scenario.descriptors.zipIdx.forM fun (kind, number) => openDescriptor number kind
  scenario.pumps.forM (setUp fuel)
  scenario.steps.forM (step fuel)
  tearDown fuel

end Play

namespace Scenario

/-- Calls in a performance may go this deep. -/
abbrev enoughFuel : Nat := 1000000

/-- The journal of a scenario, or why its performance did not come to an end. -/
def play (scenario : Scenario) (fuel : Nat) : Except Interruption (List Entry) :=
  let world : World := { delegates := scenario.delegates, tracing := scenario.tracing }
  match (Play.scenario fuel scenario).run.run world with
  | (.ok (), world) => .ok world.journal.reverse
  | (.error interruption, _) => .error interruption

end Scenario

end MessagePump
