import DistributedOs.Semantics.Execution

/-! The connection manager of the Mac app. Everything runs on the main actor: what a command leaves
behind comes back as a callback, in any order. A terminated process exits later, as any other does. -/

namespace DistributedOs.Mac.ConnectionManager

open Semantics

inductive ConnectionStatus where
  | disconnected
  | connecting
  | connected (host : String) (port : Nat)
  | failed (message : String)
  deriving DecidableEq

def ConnectionStatus.isConnected : ConnectionStatus → Bool
  | .connected _ _ => true
  | _ => false

def maxRetries : Nat := 3

/-- The manager and its backend, the callbacks that are outstanding, and the processes by number. A
timer is armed or not. -/
structure App where
  isConnecting : Bool
  connectionError : Option String
  connectionStatus : ConnectionStatus
  retryCount : Nat
  retryTimer : Bool
  healthCheckTimer : Bool
  relayProcess : Option Nat
  relayRunning : Bool
  backendProcess : Option Nat
  errorMessage : Option String
  startupChecks : Nat
  retryTasks : Nat
  healthTasks : Nat
  exitTasks : Nat
  launched : Nat
  alive : List Nat
  watched : List Nat
  /-- The health checks that were started. -/
  healthChecks : Nat
  /-- The last command of the user was to stop. -/
  stopped : Bool
  /-- The automatic retries since the user has started. -/
  retries : Nat

/-- A launch that fails has a description. -/
abbrev Failure := Option String

inductive Event where
  | startRelay (failure : Failure)
  | connectToRelay (host : String) (port : Nat) (failure : Failure)
  | stop
  | startupCheck
  | retryTimer
  | retryTask (failure : Failure)
  | healthTimer
  | healthTask (failure : Failure)
  | exit (number : Nat)
  | exitTask (failure : Failure)

def fresh : App :=
  { isConnecting := false, connectionError := none, connectionStatus := .disconnected,
    retryCount := 0, retryTimer := false
    healthCheckTimer := false, relayProcess := none, relayRunning := false, backendProcess := none,
      errorMessage := none
    startupChecks := 0, retryTasks := 0, healthTasks := 0, exitTasks := 0, launched := 0,
      alive := [], watched := [], healthChecks := 0
    stopped := false, retries := 0 }

namespace App

/-- `BackendService.startRelay`. The exit of the process is not watched. -/
def launchRelay (app : App) (failure : Failure) : App :=
  if app.relayRunning then app
  else
    match failure with
    | none =>
      { app with
        launched := app.launched + 1, alive := app.launched :: app.alive,
          backendProcess := some app.launched, relayRunning := true
        errorMessage := none }
    | some description => { app with errorMessage := some ("Failed to start relay: " ++ description) }

def attemptRelayStart (app : App) (failure : Failure) : App :=
  let app := app.launchRelay failure
  { app with startupChecks := app.startupChecks + 1 }

def startRelay (app : App) (failure : Failure) : App :=
  { app with
    connectionStatus := .connecting, isConnecting := true, connectionError := none
    retryCount := 0 }.attemptRelayStart failure

def handleRetry (app : App) : App :=
  let retryCount := app.retryCount + 1
  if retryCount ≤ maxRetries then
    let delay := min (retryCount * 2) 8
    { app with
      retryCount, connectionStatus := .connecting, retryTimer := true
      connectionError := some ("Connection failed. Retrying in " ++ toString delay ++
        "s... (Attempt " ++ toString retryCount ++ "/" ++
        toString maxRetries ++ ")") }
  else
    { app with
      retryCount, isConnecting := false
      connectionStatus := .failed ("Could not start relay after " ++ toString maxRetries ++ " attempts.")
      connectionError := some ("Relay failed to start after " ++ toString maxRetries ++
        " attempts. Check that dos-relay binary is installed.") }

def startHealthCheck (app : App) : App :=
  { app with healthCheckTimer := true, healthChecks := app.healthChecks + 1 }

/-- The block that `attemptRelayStart` leaves for half a second later. -/
def startupCheck (app : App) : App :=
  if app.relayRunning then
    { app with
      connectionStatus := .connected "127.0.0.1" 7890, isConnecting := false,
        retryCount := 0 }.startHealthCheck
  else app.handleRetry

def healthTask (app : App) (failure : Failure) : App :=
  if app.relayRunning then app
  else
    { app with
      connectionStatus := .disconnected
      connectionError := some "Relay connection lost. Reconnecting..." }.startRelay failure

def stopBackend (app : App) : App := { app with backendProcess := none, relayRunning := false }

def stop (app : App) : App :=
  { app with
    retryTimer := false, healthCheckTimer := false, relayProcess := none,
      isConnecting := false, retryCount := 0
    connectionStatus := .disconnected, connectionError := none }.stopBackend

def connectToRelay (app : App) (host : String) (port : Nat) (failure : Failure) : App :=
  let app := { app with connectionStatus := .connecting, isConnecting := true, connectionError := none }
  match failure with
  | none =>
    { app with
      launched := app.launched + 1, alive := app.launched :: app.alive,
        watched := app.launched :: app.watched
      relayProcess := some app.launched, relayRunning := true, connectionStatus := .connected host port
      isConnecting := false }.startHealthCheck
  | some description =>
    { app with
      connectionStatus := .failed ("Failed to launch relay: " ++ description),
        connectionError := some description
      isConnecting := false, relayProcess := none }

def exitTask (app : App) (failure : Failure) : App :=
  if app.connectionStatus.isConnected then
    { app with
      connectionStatus := .disconnected
      connectionError := some "Relay process exited unexpectedly. Reconnecting..." }.startRelay failure
  else app

def relayAlive (app : App) : Bool :=
  app.alive.any fun number => app.relayProcess = some number || app.backendProcess = some number

end App

def step (app : App) : Event → Option App
  | .startRelay failure => some ({ app with stopped := false, retries := 0 }.startRelay failure)
  | .connectToRelay host port failure =>
    some ({ app with stopped := false, retries := 0 }.connectToRelay host port failure)
  | .stop => some { app.stop with stopped := true }
  | .startupCheck =>
    if app.startupChecks = 0 then none
    else some { app with startupChecks := app.startupChecks - 1 }.startupCheck
  | .retryTimer =>
    if app.retryTimer then some { app with retryTimer := false, retryTasks := app.retryTasks + 1 }
    else none
  | .retryTask failure =>
    if app.retryTasks = 0 then none
    else some ({ app with
      retryTasks := app.retryTasks - 1, retries := app.retries + 1 }.attemptRelayStart failure)
  | .healthTimer =>
    if app.healthCheckTimer then some { app with healthTasks := app.healthTasks + 1 } else none
  | .healthTask failure =>
    if app.healthTasks = 0 then none
    else some ({ app with healthTasks := app.healthTasks - 1 }.healthTask failure)
  | .exit number =>
    if number ∈ app.alive then
      some { app with
        alive := app.alive.erase number
        exitTasks := if number ∈ app.watched then app.exitTasks + 1 else app.exitTasks }
    else none
  | .exitTask failure =>
    if app.exitTasks = 0 then none
    else some ({ app with exitTasks := app.exitTasks - 1 }.exitTask failure)

/-- What no user does. -/
def Event.isCallback : Event → Bool
  | .startRelay _ | .connectToRelay _ _ _ | .stop => false
  | _ => true

/-- What a step may do: a callback leaves a stopped app alone, the retries are bounded, and a tick
notices that the relay is gone. -/
structure Lawful (app : App) (event : Event) (after : App) : Prop where
  quiet : app.stopped = true → event.isCallback = true →
    after.connectionStatus = app.connectionStatus ∧ after.launched = app.launched ∧
    after.healthChecks = app.healthChecks
  bounded : after.retries ≤ maxRetries
  noticed : ∀ failure, event = .healthTask failure → app.relayAlive = false →
    after.connectionStatus.isConnected = false

/-- The app is stopped when no start-up check and no task of a timer is outstanding, it is started
without a retry that is still to come unless a relay is running, and a tick comes while a relay is
alive or the status says that none is. -/
def Calm (app : App) : Event → Prop
  | .stop => app.startupChecks = 0 ∧ app.retryTasks = 0 ∧ app.healthTasks = 0
  | .startRelay _ => app.relayRunning = true ∨ (app.retryTimer = false ∧ app.retryTasks = 0)
  | .healthTask _ => app.relayAlive = true ∨ app.connectionStatus.isConnected = false
  | _ => True

/-- The retries that are still to come. -/
def App.outstanding (app : App) : Nat := (if app.retryTimer then 1 else 0) + app.retryTasks

structure Steady (app : App) : Prop where
  connected : app.connectionStatus.isConnected = true → app.relayRunning = true
  checking : app.healthCheckTimer = true ∨ 0 < app.healthTasks → app.relayRunning = true
  quiet : app.stopped = true → app.startupChecks = 0 ∧ app.outstanding = 0 ∧ app.relayRunning = false
  bounded : app.retries + app.outstanding ≤ maxRetries
  counted : app.relayRunning = false → app.stopped = false →
    app.retries + app.outstanding ≤ app.retryCount

variable {app after : App} {event : Event} {events : List Event}

theorem steady_fresh : Steady fresh where
  connected := nofun
  checking := by
    rintro (armed | waiting)
    · cases armed
    · cases waiting
  quiet := nofun
  bounded := by decide
  counted := fun _ _ => Nat.le_refl 0

theorem steady_attempt (steady : Steady app) (going : app.stopped = false) (failure : Failure) :
    Steady (app.attemptRelayStart failure) := by
  have never : app.stopped ≠ true := by simp [going]
  unfold App.attemptRelayStart App.launchRelay
  by_cases running : app.relayRunning = true
  · rw [if_pos running]
    exact ⟨steady.connected, steady.checking, fun stopped =>
      (never stopped).elim, steady.bounded, steady.counted⟩
  · rw [if_neg running]
    cases failure with
    | none =>
      exact ⟨fun _ => rfl, fun _ => rfl, fun stopped => (never stopped).elim, steady.bounded, nofun⟩
    | some =>
      exact ⟨steady.connected, steady.checking, fun stopped =>
        (never stopped).elim, steady.bounded, steady.counted⟩

theorem steady_startRelay (steady : Steady app) (going : app.stopped = false)
    (clear : app.relayRunning = true ∨ app.retries + app.outstanding = 0)
    (failure : Failure) : Steady (app.startRelay failure) := by
  have begun : Steady { app with
      connectionStatus := .connecting, isConnecting := true, connectionError := none
      retryCount := 0 } := by
    refine ⟨nofun, steady.checking, steady.quiet, steady.bounded, fun idle _ => ?_⟩
    rcases clear with running | none
    · cases idle.symm.trans running
    · exact Nat.le_of_eq none
  exact steady_attempt begun going failure

theorem steady_begin (steady : Steady app) :
    Steady { app with stopped := false, retries := 0 } where
  connected := steady.connected
  checking := steady.checking
  quiet := nofun
  bounded := by
    rw [Nat.zero_add]
    exact Nat.le_of_add_left_le steady.bounded
  counted := by
    intro idle _
    rw [Nat.zero_add]
    cases stopped : app.stopped with
    | true =>
      have none : app.outstanding = 0 := (steady.quiet stopped).2.1
      exact Nat.le_trans (Nat.le_of_eq none) (Nat.zero_le _)
    | false => exact Nat.le_of_add_left_le (steady.counted idle stopped)

theorem steady_connectToRelay (steady : Steady app) (going : app.stopped = false) (host : String)
    (port : Nat) (failure : Failure) :
    Steady (app.connectToRelay host port failure) := by
  have never : app.stopped ≠ true := by simp [going]
  cases failure with
  | none =>
    exact ⟨fun _ => rfl, fun _ => rfl, fun stopped => (never stopped).elim, steady.bounded, nofun⟩
  | some =>
    exact ⟨nofun, steady.checking, fun stopped => (never stopped).elim, steady.bounded, steady.counted⟩

theorem steady_stop (steady : Steady app) (calm : Calm app .stop) :
    Steady { app.stop with stopped := true } := by
  obtain ⟨unchecked, untried, unticked⟩ := calm
  have none : App.outstanding { app.stop with stopped := true } = 0 := (Nat.zero_add _).trans untried
  refine ⟨nofun, ?_, fun _ => ⟨unchecked, none, rfl⟩, ?_, nofun⟩
  · rintro (armed | waiting)
    · cases armed
    · rw [show App.healthTasks { app.stop with stopped := true } = 0 from unticked] at waiting
      cases waiting
  · rw [none]
    exact Nat.le_of_add_right_le steady.bounded

theorem steady_startupCheck (steady : Steady app) (going : app.stopped = false) :
    Steady app.startupCheck := by
  have never : app.stopped ≠ true := by simp [going]
  unfold App.startupCheck
  by_cases running : app.relayRunning = true
  · rw [if_pos running]
    exact ⟨fun _ => running, fun _ => running, fun stopped => (never stopped).elim, steady.bounded,
      fun idle => absurd (idle.symm.trans running) Bool.false_ne_true⟩
  · rw [if_neg running]
    have counted := steady.counted (by simpa using running) going
    have bounded := steady.bounded
    unfold App.outstanding at counted bounded
    unfold App.handleRetry
    by_cases more : app.retryCount + 1 ≤ maxRetries
    · simp only [if_pos more]
      refine ⟨nofun, steady.checking, fun stopped => (never stopped).elim, ?_, fun _ _ => ?_⟩
      all_goals
        simp only [App.outstanding, if_true]
        omega
    · simp only [if_neg more]
      refine ⟨nofun, steady.checking, fun stopped => (never stopped).elim, steady.bounded, fun _ _ => ?_⟩
      simp only [App.outstanding]
      omega

theorem steady_exitTask (steady : Steady app)
    (failure : Failure) : Steady (app.exitTask failure) := by
  unfold App.exitTask
  split
  · rename_i connected
    have running := steady.connected connected
    have going : app.stopped = false := by
      cases stopped : app.stopped with
      | true => cases (steady.quiet stopped).2.2.symm.trans running
      | false => rfl
    have shown : Steady { app with
        connectionStatus := .disconnected
        connectionError := some "Relay process exited unexpectedly. Reconnecting..." } :=
      ⟨nofun, steady.checking, steady.quiet, steady.bounded, steady.counted⟩
    exact steady_startRelay shown going (.inl running) failure
  · exact steady

theorem steady_retryTimer (steady : Steady app) (armed : app.retryTimer = true) :
    Steady { app with retryTimer := false, retryTasks := app.retryTasks + 1 } := by
  have same : App.outstanding { app with retryTimer := false, retryTasks := app.retryTasks + 1 } =
      app.outstanding := by
    simp only [App.outstanding, armed, if_true]
    exact (Nat.zero_add _).trans (Nat.add_comm ..)
  refine ⟨steady.connected, steady.checking, ?_, ?_, ?_⟩
  all_goals rw [same]
  · exact steady.quiet
  · exact steady.bounded
  · exact steady.counted

theorem steady_retry (steady : Steady app) (waiting : app.retryTasks ≠ 0)
    (going : app.stopped = false) :
    Steady { app with retryTasks := app.retryTasks - 1, retries := app.retries + 1 } := by
  have bounded := steady.bounded
  have counted := steady.counted
  unfold App.outstanding at bounded counted
  refine ⟨steady.connected, steady.checking, ?_, ?_, ?_⟩
  · exact fun stopped => absurd (going.symm.trans stopped) Bool.false_ne_true
  · simp only [App.outstanding]
    omega
  · intro idle on
    have before := counted idle on
    simp only [App.outstanding]
    omega

theorem going_of_outstanding (steady : Steady app)
    (waiting : app.startupChecks ≠ 0 ∨ app.outstanding ≠ 0) : app.stopped = false := by
  cases stopped : app.stopped with
  | true =>
    obtain ⟨unchecked, none, _⟩ := steady.quiet stopped
    rcases waiting with checks | tries
    · exact (checks unchecked).elim
    · exact (tries none).elim
  | false => rfl

theorem steady_step (steady : Steady app) (calm : Calm app event)
    (taken : step app event = some after) : Steady after := by
  cases event with
  | startRelay failure =>
    cases taken
    refine steady_startRelay (steady_begin steady) rfl ?_ failure
    rcases calm with running | ⟨disarmed, none⟩
    · exact .inl running
    · exact .inr (by simp [App.outstanding, disarmed, none])
  | connectToRelay host port failure =>
    cases taken
    exact steady_connectToRelay (steady_begin steady) rfl host port failure
  | stop =>
    cases taken
    exact steady_stop steady calm
  | startupCheck =>
    simp only [step] at taken
    split at taken
    · cases taken
    · rename_i waiting
      cases taken
      have going := going_of_outstanding steady (.inl waiting)
      refine steady_startupCheck ?_ going
      exact ⟨steady.connected, steady.checking, fun stopped =>
        absurd (going.symm.trans stopped) Bool.false_ne_true, steady.bounded,
        steady.counted⟩
  | retryTimer =>
    simp only [step] at taken
    split at taken
    · rename_i armed
      cases taken
      exact steady_retryTimer steady armed
    · cases taken
  | retryTask failure =>
    simp only [step] at taken
    split at taken
    · cases taken
    · rename_i waiting
      cases taken
      have going : app.stopped = false := by
        refine going_of_outstanding steady (.inr ?_)
        unfold App.outstanding
        omega
      exact steady_attempt (steady_retry steady waiting going) going failure
  | healthTimer =>
    simp only [step] at taken
    split at taken
    · rename_i armed
      cases taken
      exact ⟨steady.connected, fun _ => steady.checking (.inl armed), steady.quiet,
        steady.bounded, steady.counted⟩
    · cases taken
  | healthTask =>
    simp only [step] at taken
    split at taken
    · cases taken
    · rename_i waiting
      cases taken
      have running := steady.checking (.inr (Nat.pos_of_ne_zero waiting))
      rw [App.healthTask, if_pos running]
      exact ⟨steady.connected, fun _ => running, steady.quiet, steady.bounded, steady.counted⟩
  | exit =>
    simp only [step] at taken
    split at taken
    · cases taken
      exact ⟨steady.connected, steady.checking, steady.quiet, steady.bounded, steady.counted⟩
    · cases taken
  | exitTask failure =>
    simp only [step] at taken
    split at taken
    · cases taken
    · cases taken
      refine steady_exitTask ?_ failure
      exact ⟨steady.connected, steady.checking, steady.quiet, steady.bounded, steady.counted⟩

theorem quiet_step (steady : Steady app) (stopped : app.stopped = true)
    (callback : event.isCallback = true) (taken : step app event = some after) :
    after.connectionStatus = app.connectionStatus ∧ after.launched = app.launched ∧
      after.healthChecks = app.healthChecks := by
  obtain ⟨unchecked, none, idle⟩ := steady.quiet stopped
  obtain ⟨disarmed, untried⟩ := Nat.add_eq_zero_iff.mp none
  have unticked : app.healthCheckTimer = false ∧ app.healthTasks = 0 := by
    have never := mt steady.checking (by simp [idle])
    simpa using never
  cases event with
  | startRelay failure | connectToRelay host port failure | stop => cases callback
  | startupCheck => simp [step, unchecked] at taken
  | retryTimer =>
    have off : app.retryTimer = false := by simpa using disarmed
    simp [step, off] at taken
  | retryTask => simp [step, untried] at taken
  | healthTimer => simp [step, unticked.1] at taken
  | healthTask => simp [step, unticked.2] at taken
  | exit =>
    simp only [step] at taken
    split at taken
    · cases taken
      exact ⟨rfl, rfl, rfl⟩
    · cases taken
  | exitTask =>
    have unconnected : ¬ app.connectionStatus.isConnected = true := by
      intro connected
      cases idle.symm.trans (steady.connected connected)
    simp only [step, App.exitTask, if_neg unconnected] at taken
    split at taken
    · cases taken
    · cases taken
      exact ⟨rfl, rfl, rfl⟩

theorem healthTask_step (steady : Steady app) {failure : Failure}
    (taken : step app (.healthTask failure) = some after) :
    after.connectionStatus = app.connectionStatus := by
  simp only [step] at taken
  split at taken
  · cases taken
  · rename_i waiting
    cases taken
    have running := steady.checking (.inr (Nat.pos_of_ne_zero waiting))
    rw [App.healthTask, if_pos running]

theorem lawful_step (steady : Steady app) (calm : Calm app event)
    (taken : step app event = some after) : Lawful app event after := by
  refine ⟨fun stopped callback => quiet_step steady stopped callback taken, ?_, ?_⟩
  · exact Nat.le_of_add_right_le (steady_step steady calm taken).bounded
  · rintro _ rfl gone
    rw [healthTask_step steady taken]
    rcases calm with alive | unconnected
    · cases gone.symm.trans alive
    · exact unconnected

/-- Every step of a calm run is lawful. -/
theorem lawful_of_calm (run : Execution step Calm fresh events app) (calm : Calm app event)
    (taken : step app event = some after) :
    Lawful app event after := by
  have steady : Steady app :=
    run.invariant Steady (fun _ _ _ steady calm taken => steady_step steady calm taken) steady_fresh
  exact lawful_step steady calm taken

/-- The first launch fails and its retry does not; after a tick the app is told to connect to a
relay, and stopped before both processes exit. -/
def calmEvents : List Event :=
  [.startRelay (some "no binary"), .startupCheck, .retryTimer, .retryTask none, .startupCheck,
    .healthTimer, .healthTask none,
   .connectToRelay "10.0.0.2" 7890 none, .stop, .exit 0, .exit 1]

instance (app : App) (event : Event) : Decidable (Calm app event) := by
  cases event <;> unfold Calm <;> infer_instance

theorem lawful_of_calm_sample : ∃ app after,
    Execution step Calm fresh calmEvents app ∧ app.stopped = true ∧
      step app (.exitTask none) = some after ∧
      Lawful app (.exitTask none) after := by
  obtain ⟨app, run, good⟩ := exists_execution
    (fun app => app.stopped && (step app (.exitTask none)).isSome)
    (show (replayWhere step (fun app event => decide (Calm app event)) fresh
      calmEvents).any _ = true by decide)
  rw [Bool.and_eq_true] at good
  have calm := run.weaken fun _ _ => of_decide_eq_true
  obtain ⟨after, taken⟩ := Option.isSome_iff_exists.mp good.2
  exact ⟨app, after, calm, good.1, taken, lawful_of_calm calm trivial taken⟩

def Breaks (events : List Event) (event : Event) : Prop :=
  ∃ app after, Execution step anything fresh events app ∧ step app event = some after ∧
  ¬ Lawful app event after

def restarted (failure : Failure) : List Event :=
  [.startRelay failure, .startupCheck, .startRelay failure, .retryTimer, .retryTask failure,
    .startupCheck, .retryTimer, .retryTask failure,
   .startupCheck, .retryTimer, .retryTask failure, .startupCheck, .retryTimer]

/-- The check after a stop starts anew, a second start gets a fourth retry, and a tick after the
exit finds nothing. -/
theorem unlawful_runs :
    Breaks [.startRelay none, .stop] .startupCheck ∧
      Breaks (restarted (some "no binary")) (.retryTask none) ∧
      Breaks [.startRelay none, .startupCheck, .exit 0, .healthTimer] (.healthTask none) := by
  refine ⟨⟨_, _, execution_iff_replay.mpr rfl, rfl, fun lawful => ?_⟩,
    ⟨_, _, execution_iff_replay.mpr rfl, rfl, fun lawful => ?_⟩,
    ⟨_, _, execution_iff_replay.mpr rfl, rfl, fun lawful => ?_⟩⟩
  · cases (lawful.quiet rfl rfl).1
  · exact absurd lawful.bounded (by decide)
  · cases lawful.noticed none rfl rfl

end DistributedOs.Mac.ConnectionManager
