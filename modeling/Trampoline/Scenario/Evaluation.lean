import Trampoline.Describe
import Trampoline.Scenario.Session

/-!
# Evaluation of scenarios

What the expressions and actions of a scenario do, as code for the engine, and the
program in which every piece of scenario code stands for itself.  To build an effect
runs nothing of what it describes.

Main definitions:

- `ValueExpr.eval`, `EffectExpr.build`, `Action.perform`.
- `program`: the host program of all scenarios.
-/

namespace Trampoline.Scenario

open Association

/-! ## Access to the session -/

/-- The state of the session. -/
def session : Script Session :=
  .ask .host

/-- Change the state of the session. -/
def change (f : Session → Session) : Script Unit :=
  .ask (.modifyHost f)

/-- Note an event. -/
def note (event : Event) : Script Unit :=
  change fun s => s.note event

/-! ## Connections and values -/

/-- The connection that an expression stands for.  A name that stands for nothing gives
the uncancelable connection. -/
def ConnExpr.eval (scope : Scope) : ConnExpr → Script Connection
  | uncancelable => pure .uncancelable
  | fresh => .ask .newConnection
  | active => pure scope.connection
  | old => pure scope.old
  | named name => do
    let s ← session
    pure ((s.connections.lookup name).getD .uncancelable)

/-- The text about the current failure, null if there is none. -/
def aboutError (scope : Scope) (text : Failure → String) : Value :=
  match scope.error with
  | some e => .text (text e)
  | none => .null

/-- What an arithmetic operation takes for a value that is no number. -/
def numberOrZero (v : Value) : Float :=
  v.asNumber?.getD 0.0

mutual

/-- The value that an expression stands for. -/
def ValueExpr.eval (scope : Scope) : ValueExpr → Script Value
  | .literal v => pure v
  | .var name => pure (scope.valueOf name)
  | .list items => do pure (.list (← evalItems scope items))
  | .object members => do pure (.ofMembers (← evalMembers scope members))
  | .add a b => do
    let x ← a.eval scope
    let y ← b.eval scope
    pure (.number (numberOrZero x + numberOrZero y))
  | .mul a b => do
    let x ← a.eval scope
    let y ← b.eval scope
    pure (.number (numberOrZero x * numberOrZero y))
  | .number x => do
    let v ← x.eval scope
    match v.expectNumber with
    | .ok n => pure (.number n)
    | .error e => .panic (.message e.message)
  | .typeOf x => do pure (.text (← x.eval scope).typeName)
  | .equal a b => do
    let x ← a.eval scope
    let y ← b.eval scope
    pure (.bool (x == y))
  | .describe x => do pure (.text (← x.eval scope).describe)
  | .threadName => do pure (.text (← Code.ask .threadName))
  | .errorCode => pure (aboutError scope Failure.code)
  | .errorMessage => pure (aboutError scope Failure.message)
  | .errorDescription => pure (aboutError scope Failure.describe)
  | .errorInfo =>
    match scope.error with
    | some e => pure (.error e.toInfo)
    | none => pure .null
  | .connectionId c => do pure (.number (Float.ofNat (← c.eval scope).id))
  | .isCanceled c => do pure (.bool (← Code.ask (.isCanceled (← c.eval scope))))
  | .isCancelable c => do pure (.bool (← c.eval scope).isCancelable)
  | .sameConnection c d => do
    let a ← c.eval scope
    let b ← d.eval scope
    pure (.bool (a = b))
  | .describeConnection c => do
    let connection ← c.eval scope
    pure (.text (connection.describe (← Code.ask (.isCanceled connection))))

/-- The values of the items of a list, from left to right. -/
def evalItems (scope : Scope) : List ValueExpr → Script (List Value)
  | [] => pure []
  | x :: rest => do
    let v ← x.eval scope
    pure (v :: (← evalItems scope rest))

/-- The values of the members of an object, from left to right. -/
def evalMembers (scope : Scope) : List (String × ValueExpr) → Script (List (String × Value))
  | [] => pure []
  | (key, x) :: rest => do
    let v ← x.eval scope
    pure ((key, v) :: (← evalMembers scope rest))

end

/-- The failure that an expression stands for.  A value that describes no failure gives
one that says so. -/
def FailureExpr.eval (scope : Scope) : FailureExpr → Script Failure
  | literal e => pure e
  | current => pure (scope.error.getD (.internal "no error"))
  | ofValue x => do
    match ← x.eval scope with
    | .error info => pure (.raised info)
    | v => pure (.raise "NotAnError" v.typeName)

/-- The outcome that an expression stands for. -/
def OutcomeExpr.eval (scope : Scope) : OutcomeExpr → Script Outcome
  | value x => do pure (.ok (← x.eval scope))
  | failure e => do pure (.error (← e.eval scope))
  | number x => do
    let v ← x.eval scope
    match v.expectNumber with
    | .ok n => pure (.ok (.number n))
    | .error e => pure (.error e)

/-- The callback that an expression stands for, if there is one. -/
def CallbackExpr.eval (scope : Scope) : CallbackExpr → Script (Option Callback)
  | current => pure scope.callback
  | saved name => do pure ((← session).callbacks.lookup name)

/-! ## Effects -/

/-- The names of the code of benchmark chains. -/
def chainNames : Benchmark.Chain.Names closures where
  link := Bind.link
  increment := Map.increment

/-- The frame that an expression stands for. -/
def FrameExpr.build (scope : Scope) : FrameExpr → Script (Frame closures)
  | bind binder actions result => pure (.bind (.user (.body ⟨binder, ⟨scope, actions, result⟩⟩)))
  | map binder actions result => pure (.map (.body ⟨binder, ⟨scope, actions, result⟩⟩))
  | handle actions result => pure (.handle (.user ⟨scope, actions, result⟩))
  | redeem onError errorResult binder onValue valueResult =>
    pure (.fold (.user (.body ⟨binder, ⟨scope, onValue, valueResult⟩⟩))
      (.user ⟨scope, onError, errorResult⟩))
  | restore before actions back => do
    pure (.restore (← before.eval scope) (.user ⟨scope, actions, back⟩))

/-- The same change to an effect so many times. -/
def iterate (f : Effect closures → Script (Effect closures)) :
    Nat → Effect closures → Script (Effect closures)
  | 0, e => pure e
  | n + 1, e => do iterate f n (← f e)

mutual

/-- The effect that an expression stands for. -/
def EffectExpr.build (scope : Scope) : EffectExpr → Script (Effect closures)
  | .pure x => do pure (.pure (← x.eval scope))
  | .fail e => do pure (.fail (← e.eval scope))
  | .suspend actions result => pure (.suspend (.body ⟨scope, actions, result⟩))
  | .delay actions result => pure (.delay ⟨scope, actions, result⟩)
  | .async actions => pure (.async ⟨scope, actions, ()⟩)
  | .deferred context actions => pure (.deferred context (.user ⟨scope, actions, ()⟩))
  | .chain source links => do extendAll scope links (← source.build scope)
  | .loop times counter body =>
    match times with
    | 0 => pure (.pure (.number 0.0))
    | _ + 1 => do
      let e ← body.build (scope.bind counter (.number 0.0))
      pure (e.flatMap (.loop scope times counter body 1))
  | .nest times inner =>
    match times with
    | 0 => inner.build scope
    | n + 1 => pure (.suspend (.nest scope n inner))
  | .benchmark shape depth context => pure (Benchmark.Chain.build chainNames shape depth context)
  | .take name => do
    let found := (← session).effects.lookup name
    change fun s => { s with effects := drop name s.effects }
    pure (found.getD .unit)
  | .partially e => do Code.partially (← e.build scope)

/-- Put a link around an effect. -/
def extend (scope : Scope) : Link → Effect closures → Script (Effect closures)
  | .bind binder actions result, e =>
    pure (e.flatMap (.body ⟨binder, ⟨scope, actions, result⟩⟩))
  | .map binder actions result, e => pure (.map e (.body ⟨binder, ⟨scope, actions, result⟩⟩))
  | .handle actions result, e => pure (e.handleErrorWith ⟨scope, actions, result⟩)
  | .rescue actions result, e => pure (e.handleError ⟨scope, actions, result⟩)
  | .redeem onError errorResult binder onValue valueResult, e =>
    pure (e.redeemWith ⟨scope, onError, errorResult⟩
      (.body ⟨binder, ⟨scope, onValue, valueResult⟩⟩))
  | .attempt, e => pure e.attempt
  | .continueOn context, e => pure (.continueOn context e)
  | .uncancelable, e => pure e.uncancelable
  | .switch onModify new onRestore back, e =>
    pure (e.switchWith ⟨scope, onModify, new⟩ ⟨scope, onRestore, back⟩)
  | .switchOnly onModify new, e =>
    pure (.switchConnection e (.user ⟨scope, onModify, new⟩) none)
  | .frame frame, e => do pure (.bind e (← frame.build scope))
  | .repeat times links, e => iterate (extendAll scope links) times e

/-- Put links around an effect, from left to right. -/
def extendAll (scope : Scope) : List Link → Effect closures → Script (Effect closures)
  | [], e => pure e
  | link :: rest, e => do extendAll scope rest (← extend scope link e)

end

/-- The loop from a count on. -/
def loopFrom (scope : Scope) (times : Nat) (counter : String) (body : EffectExpr) (i : Nat) :
    Script (Effect closures) :=
  if times ≤ i then pure (.pure (.number (Float.ofNat i)))
  else do
    let e ← body.build (scope.bind counter (.number (Float.ofNat i)))
    pure (e.flatMap (.loop scope times counter body (i + 1)))

/-- So many suspensions around an effect. -/
def nested (scope : Scope) (times : Nat) (inner : EffectExpr) : Script (Effect closures) :=
  match times with
  | 0 => inner.build scope
  | n + 1 => pure (.suspend (.nest scope n inner))

/-! ## Actions -/

/-- The rule about panics with a name. -/
def ClassifierName.rule : ClassifierName → Classifier
  | standard => .standard
  | allFatal => fun _ => false
  | noneFatal => fun _ => true
  | byMessage => fun payload =>
    Classifier.standard payload && !("FATAL".toList.isPrefixOf payload.describe.toList)

/-- What an action does with a callback; it only notes that there is none. -/
def withCallback (scope : Scope) (cb : CallbackExpr) (f : Callback → Script Unit) :
    Script Unit := do
  match ← cb.eval scope with
  | some found => f found
  | none => note (.noCallback cb)

/-- Run the oldest tasks of a queue, at most so many. -/
def runTasks (queue : String) : Nat → Script Unit
  | 0 => pure ()
  | n + 1 => do
    match ((← session).tasksIn queue).pop? with
    | none => note (.task false)
    | some (task, rest) => do
      change fun s => s.setTasks queue rest
      note (.task true)
      Code.perform (.runTask task)
      runTasks queue n

/-- Do an action. -/
def Action.perform (scope : Scope) : Action → Script Unit
  | log x => do note (.log (← x.eval scope))
  | panic payload => .panic payload
  | panicInfo payload => do
    note (.panicInfo (← Code.ask (.isNonFatal payload)) payload.describe)
  | classify rule => .ask (.setClassifier rule.rule)
  | nameConnection name c => do
    let connection ← c.eval scope
    change fun s => { s with connections := put name connection s.connections }
  | cancel c => do Code.perform (.cancel (← c.eval scope))
  | pushToken c actions => do Code.perform (.push (← c.eval scope) ⟨scope, actions, ()⟩)
  | popToken c runIt => do
    let found ← Code.ask (.pop (← c.eval scope))
    note (.popped found.isSome)
    match found with
    | some token => if runIt then Code.perform (.runToken token) else pure ()
    | none => pure ()
  | connectionState c => do
    let connection ← c.eval scope
    let canceled ← Code.ask (.isCanceled connection)
    note (.connectionState connection.id connection.isCancelable canceled)
  | saveCallback name =>
    match scope.callback with
    | some cb => change fun s => { s with callbacks := put name cb s.callbacks }
    | none => note (.noCallback .current)
  | dropCallback name => change fun s => { s with callbacks := drop name s.callbacks }
  | complete cb outcome => withCallback scope cb fun found => do
    Code.perform (.complete found (← outcome.eval scope))
  | runInto cb c e => withCallback scope cb fun found => do
    let effect ← e.build scope
    let connection ← c.eval scope
    Code.perform (.run effect connection (.complete found))
  | callbackInfo cb => withCallback scope cb fun found => do
    let connection ← Code.ask (.connectionOf found)
    note (.callback found.describe connection.id)
  | saveEffect name e => do
    let effect ← e.build scope
    change fun s => { s with effects := put name effect s.effects }
  | dropEffect name => change fun s => { s with effects := drop name s.effects }
  | partially name e => do
    let residual ← Code.partially (← e.build scope)
    note (.residual residual.kind residual.describe)
    change fun s => { s with effects := put name residual s.effects }
  | kinds e => do
    let effect ← e.build scope
    note (.kinds effect.describe effect.kinds)
  | run label c e actions => do
    let effect ← e.build scope
    let connection ← match c with
      | some c => c.eval scope
      | none => pure .uncancelable
    Code.perform (.run effect connection (.user ⟨label, ⟨scope, actions, ()⟩⟩))
  | runTasks queue count => Scenario.runTasks queue count
  | dropTasks queue => do
    let tasks := (← session).tasksIn queue
    change fun s => s.setTasks queue .empty
    note (.dropped tasks.toList.length)
  | contextInfo context => note (.context context.name context.describe)
  | execute context actions => Code.perform (.submit context (.user ⟨scope, actions, ()⟩))
  | failureInfo e => do note (.failure (← e.eval scope))
  | failureEqual a b => do
    let x ← a.eval scope
    let y ← b.eval scope
    note (.failureEqual (x = y))

/-- Do actions in order. -/
def performAll (scope : Scope) : List Action → Script Unit
  | [] => pure ()
  | action :: rest => do
    action.perform scope
    performAll scope rest

/-! ## The program -/

/-- Do the actions of captured code in a scope. -/
def Captured.begin {α : Type} (code : Captured α) (scope : Scope) : Script Unit :=
  performAll scope code.actions

/-- The host program of all scenarios. -/
def program : Program closures Session where
  thunk
    | .body code => do
      code.begin code.scope
      code.result.build code.scope
    | .nest scope times inner => nested scope times inner
  delay code := do
    code.begin code.scope
    code.result.eval code.scope
  registration code c cb :=
    code.begin { code.scope with connection := c, callback := some cb }
  body code cb := do
    let c ← Code.ask (.connectionOf cb)
    code.begin { code.scope with connection := c, callback := some cb }
  bind
    | .body ⟨binder, code⟩, v => do
      let scope := code.scope.bind binder v
      code.begin scope
      code.result.build scope
    | .loop scope times counter body next, _ => loopFrom scope times counter body next
    | .link link, v => pure (link.apply chainNames v)
  map
    | .body ⟨binder, code⟩, v => do
      let scope := code.scope.bind binder v
      code.begin scope
      code.result.eval scope
    | .increment, v => pure (Benchmark.Chain.increment v)
  handler code e := do
    let scope := code.scope.withError e
    code.begin scope
    code.result.build scope
  rescue code e := do
    let scope := code.scope.withError e
    code.begin scope
    code.result.eval scope
  modify code current := do
    let scope := { code.scope with connection := current }
    code.begin scope
    code.result.eval scope
  restore code exit old current := do
    let scope := { code.scope with connection := current, old := old }
    let scope := match exit with
      | .ok v => scope.bind "exit" v
      | .error e => (scope.bind "exit" (.error e.toInfo)).withError e
    code.begin scope
    code.result.eval scope
  token code := code.begin code.scope
  terminal receiver outcome := do
    note (.done receiver.label outcome)
    receiver.after.begin receiver.after.scope
  task code := code.begin code.scope
  executor queue task := change fun s => s.setTasks queue ((s.tasksIn queue).push task)
  observe := Session.observe

end Trampoline.Scenario
