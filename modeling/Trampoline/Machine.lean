import Trampoline.Code

/-!
# The machine

The engine as a machine: a world of connections and bridges, and a control stack of
activations.  The activation on top works; each of the others waits for the one
above it to return or to panic.  One step of the machine is a total function, and a
machine that has come to its end stays there.

A run loop is an activation.  It looks at the connection before each node, parks its
stack in the bridge of its run when it meets an asynchronous boundary, and hands the
outcome to where the run was told to deliver it.  A completion of the armed epoch
takes the parked stack up in a new run loop.

Main definitions:

- `Bridge`, `World`: the state that outlives activations.
- `Activation`, `State`: the control stack.
- `State.next`: one step.
- `State.run`: so many steps, or fewer if the machine comes to its end.
-/

namespace Trampoline

/-- The part of a run that outlives its run loops: created at the first suspension,
it serves all later ones. -/
structure Bridge (S : Closures) where
  /-- The connection that the run resumes under. -/
  connection : Connection
  /-- Where the outcome goes; taken when the run delivers. -/
  terminal : Option (Terminal S)
  /-- The frames parked at the latest suspension. -/
  stack : CallStack (Frame S)
  /-- The epoch of the suspension that waits for its completion. -/
  armed : Option Nat
  /-- The last epoch handed out. -/
  epochs : Nat

/-- All state that the engine keeps beside the control stack. -/
structure World (S : Closures) (σ : Type) where
  /-- The state of the host. -/
  host : σ
  connections : Connections S.Token
  bridges : Array (Bridge S)
  /-- The installed rule about panics. -/
  classifier : Classifier
  /-- The name of the thread on which the machine works. -/
  thread : String

namespace World

variable {S : Closures} {σ : Type}

/-- A world in which nothing has happened. -/
def initial (host : σ) (thread : String) : World S σ where
  host := host
  connections := .empty
  bridges := #[]
  classifier := .standard
  thread := thread

/-- Report a trace event to the host. -/
def report (P : Program S σ) (w : World S σ) (event : TraceEvent) : World S σ :=
  { w with host := P.observe event w.host }

/-- The connection that a suspended run resumes under. -/
def connectionOf (w : World S σ) (cb : Callback) : Connection :=
  match w.bridges[cb.bridge]? with
  | some b => b.connection
  | none => .uncancelable

/-- Replace a bridge. -/
def setBridge (w : World S σ) (bridge : Nat) (b : Bridge S) : World S σ :=
  { w with bridges := w.bridges.setIfInBounds bridge b }

/-- Answer a query. -/
def answer (w : World S σ) : (q : Query S σ) → World S σ × q.Answer
  | .host => (w, w.host)
  | .modifyHost f => ({ w with host := f w.host }, ())
  | .threadName => (w, w.thread)
  | .newConnection =>
    let (table, c) := w.connections.create
    ({ w with connections := table }, c)
  | .isCanceled c => (w, w.connections.isCanceled c)
  | .pop c =>
    let (table, token) := w.connections.pop c
    ({ w with connections := table }, token)
  | .connectionOf cb => (w, w.connectionOf cb)
  | .isNonFatal payload => (w, w.classifier payload)
  | .setClassifier f => ({ w with classifier := f }, ())

end World

/-- Where a run loop delivers. -/
inductive Outlet (S : Closures) where
  /-- The run has not suspended yet. -/
  | terminal (t : Terminal S)
  /-- The run has suspended; its bridge knows where the outcome goes. -/
  | bridge (index : Nat)

/-- The state of a run loop. -/
structure Loop (S : Closures) where
  connection : Connection
  stack : CallStack (Frame S)
  outlet : Outlet S

mutual

/-- Who takes an effect apart: a run loop, or partial evaluation, which knows no
connection and gives what is left of the effect, or a panic, to the code that asked. -/
inductive Driver (S : Closures) (σ : Type) where
  | loop (run : Loop S)
  | partially (stack : CallStack (Frame S))
      (resume : Except Payload (Effect S) → Activation S σ)

/-- One entry of the control stack. -/
inductive Activation (S : Closures) (σ : Type) where
  /-- A driver in front of a node. -/
  | eval (d : Driver S σ) (node : Effect S)
  /-- A driver with a value for the next frame. -/
  | value (d : Driver S σ) (v : Value)
  /-- Code that yields the next node of a driver. -/
  | node (d : Driver S σ) (code : Code S σ (Effect S))
  /-- Code that yields an outcome for a driver. -/
  | outcome (d : Driver S σ) (code : Code S σ Outcome)
  /-- Code that yields the connection for a source. -/
  | switch (run : Loop S) (source : Effect S) (restore : Option (Restorer S))
      (code : Code S σ Connection)
  /-- Code that owes a completion of a callback: if it panics, the panic completes it. -/
  | owing (cb : Callback) (code : Code S σ Unit)
  /-- Code on its own. -/
  | code (code : Code S σ Unit)
  /-- The tokens that a cancellation has still to run. -/
  | tokens (pending : List S.Token)
  /-- The bottom of a thread.  The thread below it has this name. -/
  | thread (outer : String)

end

namespace Driver

variable {S : Closures} {σ : Type}

/-- The frames pending in a driver. -/
def stack : Driver S σ → CallStack (Frame S)
  | loop run => run.stack
  | partially stack _ => stack

/-- The driver with other frames pending. -/
def withStack (d : Driver S σ) (stack : CallStack (Frame S)) : Driver S σ :=
  match d with
  | loop run => loop { run with stack := stack }
  | partially _ resume => partially stack resume

/-- The driver with one more frame pending. -/
def push (d : Driver S σ) (frame : Frame S) : Driver S σ :=
  d.withStack (d.stack.push frame)

end Driver

/-- A waiting activation after the one above it has panicked.  A panic goes on in the
code that was waiting; the bottom of a thread stops it. -/
def Activation.panicking {S : Closures} {σ : Type} (payload : Payload) :
    Activation S σ → Activation S σ
  | .node d _ => .node d (.panic payload)
  | .outcome d _ => .outcome d (.panic payload)
  | .switch run source restore _ => .switch run source restore (.panic payload)
  | .owing cb _ => .owing cb (.panic payload)
  | .thread outer => .thread outer
  | .eval _ _ | .value _ _ | .code _ | .tokens _ => .code (.panic payload)

/-- A state of the machine. -/
inductive State (S : Closures) (σ : Type) where
  /-- An activation works, the others wait. -/
  | running (w : World S σ) (top : Activation S σ) (rest : List (Activation S σ))
  /-- All activations have returned. -/
  | returned (w : World S σ)
  /-- A panic has left the lowest activation. -/
  | unwound (w : World S σ) (payload : Payload)

namespace State

variable {S : Closures} {σ : Type}

/-- Return to the waiting activations. -/
def resume (w : World S σ) : List (Activation S σ) → State S σ
  | [] => returned w
  | top :: rest => running w top rest

/-- Panic into the waiting activations. -/
def unwind (w : World S σ) (payload : Payload) : List (Activation S σ) → State S σ
  | [] => unwound w payload
  | top :: rest => running w (top.panicking payload) rest

/-- Complete a callback.  A completion of the armed epoch takes the parked run up;
any other is ignored. -/
def complete (P : Program S σ) (w : World S σ) (cb : Callback) (outcome : Outcome)
    (rest : List (Activation S σ)) : State S σ :=
  match w.bridges[cb.bridge]? with
  | some b =>
    if b.armed = some cb.epoch then
      let w := w.setBridge cb.bridge { b with armed := none, stack := .empty }
      let w := w.report P (.resumed cb.epoch b.stack.length)
      running w (.eval (.loop ⟨b.connection, b.stack, .bridge cb.bridge⟩) (.ofOutcome outcome))
        rest
    else resume (w.report P (.staleCompletion cb.epoch)) rest
  | none => resume (w.report P (.staleCompletion cb.epoch)) rest

/-- Hand an outcome to where it goes. -/
def deliver (P : Program S σ) (w : World S σ) (terminal : Terminal S) (outcome : Outcome)
    (rest : List (Activation S σ)) : State S σ :=
  match terminal with
  | .user k => running w (.code (P.terminal k outcome)) rest
  | .complete cb => complete P w cb outcome rest

/-- End a run loop with an outcome.  A bridge gives its terminal away once. -/
def finish (P : Program S σ) (w : World S σ) (run : Loop S) (outcome : Outcome)
    (rest : List (Activation S σ)) : State S σ :=
  match run.outlet with
  | .terminal t => deliver P w t outcome rest
  | .bridge index =>
    match w.bridges[index]? with
    | some b =>
      match b.terminal with
      | some t => deliver P (w.setBridge index { b with terminal := none }) t outcome rest
      | none => resume w rest
    | none => resume w rest

/-- Start a task on the current thread. -/
def runTask (P : Program S σ) (w : World S σ) (task : Task S) (rest : List (Activation S σ)) :
    State S σ :=
  match task with
  | .body cb b => running w (.owing cb (P.bodyWith b cb)) rest
  | .user k => running w (.code (P.task k)) rest

/-- Start a task on a thread with the given name, and wait for it. -/
def runTaskOn (P : Program S σ) (w : World S σ) (thread : String) (task : Task S)
    (rest : List (Activation S σ)) : State S σ :=
  runTask P { w with thread := thread } task (.thread w.thread :: rest)

/-- Submit a task to a context. -/
def submit (P : Program S σ) (w : World S σ) (context : Context S.Executor) (task : Task S)
    (rest : List (Activation S σ)) : State S σ :=
  match context with
  | .immediate => runTask P w task rest
  | .newThread name spawns =>
    match Context.threadNameFault? name with
    | some message => unwind w (.message message) rest
    | none =>
      if spawns then runTaskOn P w name task rest
      else runTask P (w.report P (.spawnRefused name)) task rest
  | .pool _ worker => runTaskOn P w worker task rest
  | .hosted _ executor => running w (.code (P.executor executor task)) rest

/-- Begin a command.  What gave the command waits in `rest`. -/
def begin (P : Program S σ) (w : World S σ) (c : Command S) (rest : List (Activation S σ)) :
    State S σ :=
  match c with
  | .cancel c =>
    let (table, tokens) := w.connections.cancel c
    running { w with connections := table } (.tokens tokens) rest
  | .push c token =>
    match w.connections.push c token with
    | .kept table => resume { w with connections := table } rest
    | .due => running w (.code (P.token token)) rest
  | .complete cb outcome => complete P w cb outcome rest
  | .run e c terminal => running w (.eval (.loop ⟨c, .empty, .terminal terminal⟩) e) rest
  | .submit context task => submit P w context task rest
  | .runToken token => running w (.code (P.token token)) rest
  | .runTask task => runTask P w task rest

end State

namespace World

variable {S : Closures} {σ : Type}

/-- Park a run loop: its bridge, created now if this is the first suspension, takes
the frames and opens a new epoch.  The callback is for that epoch. -/
def arm (w : World S σ) (run : Loop S) : World S σ × Callback :=
  match run.outlet with
  | .terminal t =>
    let cb : Callback := ⟨w.bridges.size, 1⟩
    ({ w with bridges := w.bridges.push ⟨run.connection, some t, run.stack, some 1, 1⟩ }, cb)
  | .bridge index =>
    match w.bridges[index]? with
    | some b =>
      let epoch := b.epochs + 1
      (w.setBridge index { b with stack := run.stack, armed := some epoch, epochs := epoch },
        ⟨index, epoch⟩)
    | none => (w, ⟨index, 0⟩)

/-- Let the bridge of a run follow a switch of the active connection. -/
def followSwitch (w : World S σ) (run : Loop S) (new : Connection) : World S σ :=
  if new = run.connection then w
  else
    match run.outlet with
    | .terminal _ => w
    | .bridge index =>
      match w.bridges[index]? with
      | some b => w.setBridge index { b with connection := new }
      | none => w

end World

namespace State

variable {S : Closures} {σ : Type}

/-- Suspend a run loop at an asynchronous boundary.  The activation that starts the
computation owes a completion of the callback. -/
def suspend (P : Program S σ) (w : World S σ) (run : Loop S)
    (start : Connection → Callback → List (Activation S σ)) (rest : List (Activation S σ)) :
    State S σ :=
  let (w, cb) := w.arm run
  let w := w.report P (.suspendedAsync cb.epoch run.stack.length)
  resume w (start (w.connectionOf cb) cb ++ rest)

/-- Suspend a run loop and submit a body to a context. -/
def suspendOn (P : Program S σ) (w : World S σ) (run : Loop S) (context : Context S.Executor)
    (b : Body S) (rest : List (Activation S σ)) : State S σ :=
  let (w, cb) := w.arm run
  let w := w.report P (.suspendedDeferred context.name cb.epoch run.stack.length)
  submit P w context (.body cb b) rest

/-- What a driver does with a failure that no pending frame recovers from. -/
def fail (P : Program S σ) (w : World S σ) (d : Driver S σ) (e : Failure)
    (rest : List (Activation S σ)) : State S σ :=
  match d with
  | .loop run => finish P w run (.error e) rest
  | .partially _ resume => running w (resume (.ok (.fail e))) rest

/-- What a driver does with a value when no frame is left for it. -/
def yield (P : Program S σ) (w : World S σ) (d : Driver S σ) (v : Value)
    (rest : List (Activation S σ)) : State S σ :=
  match d with
  | .loop run => finish P w run (.ok v) rest
  | .partially _ resume => running w (resume (.ok (.pure v))) rest

/-- What partial evaluation leaves of a node that needs a live run: an asynchronous
boundary by itself if nothing waits for it, else the node with the pending frames. -/
def residual (stack : CallStack (Frame S)) (node : Effect S) : Effect S :=
  match node with
  | .switchConnection _ _ _ => .parked node stack
  | _ => if stack.isEmpty then node else .parked node stack

/-- Take a node apart. -/
def reduce (P : Program S σ) (w : World S σ) (d : Driver S σ) (node : Effect S)
    (rest : List (Activation S σ)) : State S σ :=
  match node with
  | .pure v => running w (.value d v) rest
  | .fail e =>
    match d.stack.findErrorHandler with
    | (some frame, stack) => running w (.node (d.withStack stack) (P.recover frame e)) rest
    | (none, stack) => fail P w (d.withStack stack) e rest
  | .suspend k => running w (.node d (P.thunk k)) rest
  | .delay k => running w (.outcome d (P.delay k)) rest
  | .bind source frame => running w (.eval (d.push frame) source) rest
  | .map source f => running w (.eval (d.push (.map f)) source) rest
  | .continueOn context source =>
    running w (.eval d (.bind source (.bind (.shift context)))) rest
  | .async k =>
    match d with
    | .loop run => suspend P w run (fun c cb => [.owing cb (P.registration k c cb)]) rest
    | .partially stack resume => running w (resume (.ok (residual stack node))) rest
  | .parked inner stack =>
    match d with
    | .loop run =>
      suspend P w run (fun c cb =>
        [.eval (.loop ⟨c, stack, .terminal (.complete cb)⟩) inner, .owing cb (.done ())]) rest
    | .partially stack resume => running w (resume (.ok (residual stack node))) rest
  | .deferred context b =>
    match d with
    | .loop run => suspendOn P w run context b rest
    | .partially stack resume => running w (resume (.ok (residual stack node))) rest
  | .switchConnection source modify restore =>
    match d with
    | .loop run => running w (.switch run source restore (P.modifyWith modify run.connection)) rest
    | .partially stack resume => running w (resume (.ok (residual stack node))) rest

/-- A driver in front of a node.  A run loop looks at its connection first. -/
def eval (P : Program S σ) (w : World S σ) (d : Driver S σ) (node : Effect S)
    (rest : List (Activation S σ)) : State S σ :=
  match d with
  | .loop run =>
    if w.connections.isCanceled run.connection then
      finish P (w.report P (.runCancelled run.connection.id run.stack.length)) run
        (.error .cancelled) rest
    else reduce P w d node rest
  | .partially _ _ => reduce P w d node rest

/-- A driver with a value for the next frame. -/
def value (P : Program S σ) (w : World S σ) (d : Driver S σ) (v : Value)
    (rest : List (Activation S σ)) : State S σ :=
  match d.stack.popNext with
  | (some frame, stack) => running w (.node (d.withStack stack) (P.apply frame v)) rest
  | (none, stack) => yield P w (d.withStack stack) v rest

/-- The connection of a run loop has been chosen. -/
def switched (w : World S σ) (run : Loop S) (source : Effect S) (restore : Option (Restorer S))
    (new : Connection) (rest : List (Activation S σ)) : State S σ :=
  let w := w.followSwitch run new
  let d := Driver.loop { run with connection := new }
  match restore with
  | some r => running w (.eval d (.bind source (.restore run.connection r))) rest
  | none => running w (.eval d source) rest

/-- A panic in guarded code.  If the run survives it, `recovered` goes on with the
failure; else the panic goes on in the waiting activations. -/
def contain (P : Program S σ) (w : World S σ) (payload : Payload)
    (recovered : World S σ → Failure → State S σ) (rest : List (Activation S σ)) : State S σ :=
  if w.classifier payload then
    recovered (w.report P (.panicContained payload.describe)) (.panicked payload.describe)
  else unwind w payload rest

/-- A panic in code that works for a driver. -/
def panicIn (P : Program S σ) (w : World S σ) (d : Driver S σ) (payload : Payload)
    (rest : List (Activation S σ)) : State S σ :=
  match d with
  | .loop _ => contain P w payload (fun w e => running w (.eval d (.fail e)) rest) rest
  | .partially _ resume =>
    if w.classifier payload then
      running (w.report P (.panicContained payload.describe))
        (.eval d (.fail (.panicked payload.describe))) rest
    else running w (resume (.error payload)) rest

/-- One step of a piece of code.  `wrap` makes an activation of the code that is left,
`finish` and `escape` say what follows its result and its panic. -/
def advance {α : Type} (P : Program S σ) (w : World S σ) (rest : List (Activation S σ))
    (wrap : Code S σ α → Activation S σ) (finish : α → State S σ)
    (escape : Payload → State S σ) : Code S σ α → State S σ
  | .done a => finish a
  | .panic payload => escape payload
  | .query q next =>
    let (w, a) := w.answer q
    running w (wrap (next a)) rest
  | .command c next => begin P w c (wrap (next ()) :: rest)
  | .step e next =>
    running w (.eval (.partially .empty fun
      | .ok residual => wrap (next residual)
      | .error payload => wrap (.panic payload)) e) rest

/-- One step of the activation on top. -/
def work (P : Program S σ) (w : World S σ) (rest : List (Activation S σ)) :
    Activation S σ → State S σ
  | .eval d node => eval P w d node rest
  | .value d v => value P w d v rest
  | .node d code =>
    advance P w rest (.node d) (fun node => running w (.eval d node) rest)
      (fun payload => panicIn P w d payload rest) code
  | .outcome d code =>
    advance P w rest (.outcome d)
      (fun
        | .ok v => running w (.value d v) rest
        | .error e => running w (.eval d (.fail e)) rest)
      (fun payload => panicIn P w d payload rest) code
  | .switch run source restore code =>
    advance P w rest (.switch run source restore)
      (fun new => switched w run source restore new rest)
      (fun payload => panicIn P w (.loop run) payload rest) code
  | .owing cb code =>
    advance P w rest (.owing cb) (fun _ => resume w rest)
      (fun payload => contain P w payload (fun w e => complete P w cb (.error e) rest) rest) code
  | .code code =>
    advance P w rest .code (fun _ => resume w rest) (fun payload => unwind w payload rest) code
  | .tokens [] => resume w rest
  | .tokens (token :: pending) => running w (.code (P.token token)) (.tokens pending :: rest)
  | .thread outer => resume { w with thread := outer } rest

/-- One step of the machine.  A machine that has come to its end stays there. -/
def next (P : Program S σ) : State S σ → State S σ
  | running w top rest => work P w rest top
  | returned w => returned w
  | unwound w payload => unwound w payload

/-- The machine that is about to run a piece of code. -/
def start (w : World S σ) (code : Code S σ Unit) : State S σ :=
  running w (.code code) []

/-- Take steps until the machine comes to its end, but at most so many. -/
def run (P : Program S σ) : Nat → State S σ → State S σ
  | 0, s => s
  | fuel + 1, running w top rest => run P fuel (work P w rest top)
  | _ + 1, s => s

/-- The world of a state. -/
def world : State S σ → World S σ
  | running w _ _ => w
  | returned w => w
  | unwound w _ => w

end State

end Trampoline
