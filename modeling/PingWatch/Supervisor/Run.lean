import PingWatch.Supervisor.Listener

/-!
# Supervised runs

A `Run` is a supervisor at work: it starts its listeners in order, then looks every second whether
any work is left, and once it is cancelled waits for all admitted bodies to end.

Bodies take turns.  A turn lasts until the body waits for something or ends; bodies that can go on
stand in a queue, and bodies that become able to go on together enter it in the order in which they
were scheduled.  The supervisor itself moves when the queue is empty, signals arrive when it cannot
move either, and only then does time pass, to the next moment at which somebody wakes.

`Run.step` is one action of one body or one move of the supervisor; `Run.watch` repeats it.
-/

namespace PingWatch

/-- What happened to, or was done by, a body. -/
inductive Event
  | started
  | saidReady
  /-- The end of a wait for the cancellation. -/
  | sawCancellation
  | cancelled
  | raised (signal : Signal)
  | noted (text : String) (cancelled : Bool)
  | scheduled (name : String) (verdict : Verdict)
  /-- The supervisor scheduled listener `index`. -/
  | listener (index : Nat) (verdict : Verdict)
  | checks (target : String)
  | ended (ending : Ending)

/-- An event with its time and the label of the body, if it has one. -/
structure Entry where
  time : Nat
  label : Option String
  event : Event

/-- Where a body stands. -/
inductive Stage
  /-- Scheduled, and not yet started. -/
  | fresh
  | running
  /-- Waiting for a time, for the cancellation, or for the first of both. -/
  | asleep (until_ : Option Nat) (endsOnCancel : Bool)
  | ended (ending : Ending)

/-- An admitted body. -/
structure Task where
  label : Option String
  work : Work
  stage : Stage := .fresh
  /-- Whether the supervisor waits for this body to be ready. -/
  awaited : Bool := false

namespace Task

/-- The time at which the body wakes by itself. -/
def alarm? (t : Task) : Option Nat :=
  match t.stage with
  | .asleep u _ => u
  | _ => none

/-- Whether the body wakes when the supervisor is cancelled. -/
def endsOnCancel (t : Task) : Bool :=
  match t.stage with
  | .asleep _ b => b
  | _ => false

end Task

/-- Where the supervisor stands. -/
inductive Phase
  /-- Starting listeners: those not scheduled yet, the first one at position `index`. -/
  | starting (index : Nat) (left : List Listener)
  /-- Waiting until body `id` is ready before the listeners left are started. -/
  | awaiting (id : Nat) (index : Nat) (left : List Listener)
  /-- All listeners are started; the next look for remaining work is at `tick`. -/
  | steady (tick : Nat)
  /-- Waiting for the admitted bodies to end. -/
  | draining
  | returned

/-- A supervised run. -/
structure Run where
  now : Nat := 0
  books : Supervisor := {}
  /-- The bodies admitted so far, in order. -/
  tasks : List Task := []
  /-- The bodies that can go on, in the order of their turns. -/
  queue : List Nat := []
  phase : Phase
  /-- When the parent is cancelled, if that is still to come. -/
  cancelAt : Option Nat := none
  parentCancelled : Bool := false
  /-- A signal was raised and has not arrived. -/
  raised : Bool := false
  /-- A signal has arrived. -/
  signalled : Bool := false
  /-- What happened so far, latest first. -/
  trace : List Entry := []
  /-- The settings that probe loops made so far, latest first. -/
  settings : List Setting := []

namespace Run

/-- The time between two looks for remaining work. -/
def tickSpacing : Nat := 1000

def log (label : Option String) (event : Event) (r : Run) : Run :=
  { r with trace := { time := r.now, label, event } :: r.trace }

def change (id : Nat) (f : Task → Task) (r : Run) : Run :=
  { r with tasks := r.tasks.modify id f }

/-- The positions of the bodies that satisfy `p`, in order. -/
def select (p : Task → Bool) (r : Run) : List Nat :=
  (r.tasks.zipIdx.filter fun (t, _) => p t).map (·.2)

/-- Wakes the bodies that satisfy `p`. -/
def wake (p : Task → Bool) (r : Run) : Run :=
  { r with
    tasks := r.tasks.map fun t => if p t then { t with stage := .running } else t
    queue := r.queue ++ r.select p }

/-- Takes over new books; a cancellation among the changes wakes those who wait for it. -/
def book (books : Supervisor) (r : Run) : Run :=
  let fresh := books.cancelled && !r.books.cancelled
  let r := { r with books }
  if fresh then r.wake Task.endsOnCancel else r

/-- Schedules a body, if it is admitted. -/
def enlist (task : Task) (r : Run) : Verdict × Run :=
  match r.books.enlist with
  | (.admitted, books) =>
    (.admitted,
      { r.book books with tasks := r.tasks ++ [task], queue := r.queue ++ [r.tasks.length] })
  | (.refused limit, books) => (.refused limit, r.book books)

/-- Schedules a script from outside any body, before the listeners are started. -/
def scheduleFirst (caller name : String) (steps : List Action) (r : Run) : Run :=
  let (verdict, r) := r.enlist { label := some name, work := .script steps }
  r.log (some caller) (.scheduled name verdict)

/-- Ends the turn of the body at the head of the queue. -/
def endTurn (r : Run) : Run := { r with queue := r.queue.tail }

/-- Ends the body `id`, whose turn it is. -/
def finish (id : Nat) (label : Option String) (ending : Ending) (r : Run) : Run :=
  let r := r.log label (.ended ending)
  let r := r.change id fun t => { t with stage := .ended ending, awaited := false }
  (r.book (r.books.finish ending)).endTurn

/-- Puts the body `id`, whose turn it is, to sleep. -/
def sleep (id : Nat) (until_ : Option Nat) (endsOnCancel : Bool) (r : Run) : Run :=
  (r.change id fun t => { t with stage := .asleep until_ endsOnCancel }).endTurn

/-- Leaves the body `id` with the actions `rest`. -/
def moveOn (id : Nat) (rest : List Action) (r : Run) : Run :=
  r.change id fun t => { t with work := .script rest }

/-- One action of the script of body `id`; `rest` is what is left after it. -/
def act (id : Nat) (label : Option String) (rest : List Action) (r : Run) : Action → Run
  | .sleep millis =>
    let on := r.moveOn id rest
    if millis = 0 then on else on.sleep id (some (r.now + millis)) false
  | .note text => (r.moveOn id rest).log label (.noted text r.books.cancelled)
  | .ready =>
    ((r.moveOn id rest).change id fun t => { t with awaited := false }).log label .saidReady
  | .wait =>
    if r.books.cancelled then (r.moveOn id rest).log label .sawCancellation
    else r.sleep id none true
  | .cancel => ((r.moveOn id rest).log label .cancelled).book r.books.cancel
  | .fail failure => r.finish id label (.failed failure)
  | .panic _ => r.finish id label (.failed .panicked)
  | .raise signal => { (r.moveOn id rest).log label (.raised signal) with raised := true }
  | .schedule name steps propagate =>
    let (verdict, on) :=
      (r.moveOn id rest).enlist { label := some name, work := .script steps }
    let on := on.log label (.scheduled name verdict)
    match verdict, propagate with
    | .refused limit, true => on.finish id label (.failed (.tooManyTasks limit))
    | _, _ => on

/-- One turn of the probe loop `p` of body `id`. -/
def turnLoop (id : Nat) (label : Option String) (p : Prober) (r : Run) : Run :=
  let (p, doings) := p.turn r.now r.books.cancelled
  let r := r.change id fun t => { t with work := .loop p }
  let r := doings.foldl (fun r d => match d with
    | .checks target => r.log label (.checks target)
    | .sets s => { r with settings := s :: r.settings }) r
  match p.state with
  | .stopped => r.finish id label .well
  | .broken (.load cause) => r.finish id label (.failed (.caused cause))
  | .broken (.fault _) => r.finish id label (.failed .panicked)
  | .pausing _ | .cycling _ => r.sleep id p.nextTime? true

/-- The next thing that body `id`, whose turn it is, does. -/
def stepTask (id : Nat) (r : Run) : Run :=
  match r.tasks[id]? with
  | none => r.endTurn
  | some t =>
    match t.stage with
    | .fresh => (r.change id fun t => { t with stage := .running }).log t.label .started
    | .ended _ => r.endTurn
    | .running | .asleep .. =>
      match t.work with
      | .script [] => r.finish id t.label .well
      | .script (a :: rest) => r.act id t.label rest a
      | .probing p =>
        r.change id fun t => { t with work := .loop (.start p r.now), awaited := false }
      | .loop p => r.turnLoop id t.label p

/-- Turns to the steady state, whose first look for remaining work is at once. -/
def settleDown (r : Run) : Run :=
  if r.books.cancelled then { r with phase := .draining }
  else if r.books.unfinished = 0 then { r.book r.books.cancel with phase := .draining }
  else { r with phase := .steady (r.now + tickSpacing) }

/-- Starts the first of the listeners left. -/
def startNext (index : Nat) (r : Run) : List Listener → Run
  | [] => r.settleDown
  | l :: left =>
    if r.books.cancelled then { r with phase := .draining }
    else
      let (verdict, r') :=
        r.enlist { label := l.label, work := l.work, awaited := l.readyRequired }
      let r' := r'.log none (.listener index verdict)
      match verdict with
      | .refused _ => { r' with phase := .draining }
      | .admitted =>
        if l.readyRequired then { r' with phase := .awaiting r.tasks.length (index + 1) left }
        else { r' with phase := .starting (index + 1) left }

/-- Whether the supervisor still waits for body `id` to be ready. -/
def awaits (id : Nat) (r : Run) : Bool :=
  match r.tasks[id]? with
  | some t => t.awaited
  | none => false

/-- The move of the supervisor, if it can move. -/
def move? (r : Run) : Option Run :=
  match r.phase with
  | .starting index left => some (r.startNext index left)
  | .awaiting id index left =>
    if r.books.cancelled then some { r with phase := .draining }
    else if r.signalled then some { r.book r.books.cancel with phase := .draining }
    else if r.awaits id then none
    else some { r with phase := .starting index left }
  | .steady tick =>
    if r.books.cancelled then some { r with phase := .draining }
    else if r.signalled then some { r.book r.books.cancel with phase := .draining }
    else if tick ≤ r.now then
      if r.books.unfinished = 0 then some { r.book r.books.cancel with phase := .draining }
      else some { r with phase := .steady (r.now + tickSpacing) }
    else none
  | .draining => if r.books.unfinished = 0 then some { r with phase := .returned } else none
  | .returned => none

/-- The lesser of two times, one of which may be missing. -/
def sooner : Option Nat → Option Nat → Option Nat
  | some a, some b => some (min a b)
  | some a, none => some a
  | none, b => b

/-- The next time at which somebody wakes. -/
def nextTime? (r : Run) : Option Nat :=
  let tick := match r.phase with
    | .steady tick => some tick
    | _ => none
  r.tasks.foldl (fun soonest t => sooner soonest t.alarm?) (sooner tick r.cancelAt)

/-- Lets time pass to `t`.  The parent's cancellation comes before everything else in its
millisecond.  A wait for either of two things that are there at once may end by the one or the other;
this is the order that a run takes. -/
def passTo (t : Nat) (r : Run) : Run :=
  let r := { r with now := max r.now t }.wake fun task => task.alarm?.any (· ≤ t)
  if r.cancelAt.any (· ≤ t) then
    { r.book r.books.cancel with cancelAt := none, parentCancelled := true }
  else r

/-- Whether the run is in the middle of starting listeners, which nothing interrupts. -/
def isStarting (r : Run) : Bool :=
  match r.phase with
  | .starting .. => true
  | _ => false

def hasReturned (r : Run) : Bool :=
  match r.phase with
  | .returned => true
  | _ => false

/-- What happens next without time passing. -/
def stir? (r : Run) : Option Run :=
  if r.isStarting then r.move?
  else
    match r.queue with
    | id :: _ => some (r.stepTask id)
    | [] =>
      match r.move? with
      | some r' => some r'
      | none => if r.raised then some { r with raised := false, signalled := true } else none

/-- What happens next; a run in which nothing can happen stays as it is. -/
def step (r : Run) : Run :=
  if r.hasReturned then r
  else
    match r.stir? with
    | some r' => r'
    | none =>
      match r.nextTime? with
      | some t => r.passTo t
      | none => r

/-- The run repeated until the supervisor returns, nothing can happen any more, or time would pass
`horizon`. -/
def watch (horizon : Nat) (r : Run) : Nat → Run
  | 0 => r
  | fuel + 1 =>
    if r.hasReturned then r
    else
      match r.stir? with
      | some r' => watch horizon r' fuel
      | none =>
        match r.nextTime? with
        | some t => if horizon < t then r else watch horizon (r.passTo t) fuel
        | none => r

/-- The number of actions in what a body does; a probe loop counts once. -/
def workSize : Work → Nat
  | .script steps => Action.sizeAll steps
  | .probing _ | .loop _ => 1

/-- An upper bound for the steps that a run of `listeners` takes until `horizon`: in each
millisecond every body wakes at most once for every reason. -/
def patience (horizon : Nat) (r : Run) (listeners : List Listener) : Nat :=
  let running := r.tasks.foldl (fun n t => n + workSize t.work + 1) 0
  let size := listeners.foldl (fun n l => n + workSize l.work + 1) running
  (horizon + 2) * (8 * size + 16)

/-- A supervisor that has not been given anything to do. -/
def idle : Run := { phase := .starting 0 [] }

/-- The run of `listeners`, whose parent is cancelled at `cancelAt`: at zero it is cancelled before
the first listener is started. -/
def listen (listeners : List Listener) (cancelAt : Option Nat) (r : Run) : Run :=
  let r := { r with phase := .starting 0 listeners }
  match cancelAt with
  | some 0 => { r.book r.books.cancel with parentCancelled := true }
  | _ => { r with cancelAt }

/-- What the supervisor returns: the first failure, if there was one. -/
def result? (r : Run) : Option (Except Failure Unit) :=
  if r.hasReturned then
    match r.books.latched with
    | some f => some (.error f)
    | none => some (.ok ())
  else none

/-- The whole run of `listeners` until it ends or time passes `horizon`. -/
def complete (listeners : List Listener) (cancelAt : Option Nat) (horizon : Nat) (r : Run) : Run :=
  (r.listen listeners cancelAt).watch horizon (r.patience horizon listeners)

/-- The trace in order of occurrence. -/
def history (r : Run) : List Entry := r.trace.reverse

end Run

end PingWatch
