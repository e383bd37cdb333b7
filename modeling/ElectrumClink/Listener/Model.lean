import ElectrumClink.Offers.Session

/-!
# The listener loop

`run` is the task of a server that keeps its listener up: it waits for its prerequisites, pins the
relays of old offers, brings the relay manager up to date (`refresh_manager`) and then sits in a
taskgroup until that ends.

`ListenerProcess.step` performs what `run` does between two awaits, with the outcome of the first;
or something that happens beside it: a change of a setting, of the offers or of the pick, of the
connections, of the clock.
-/

namespace ElectrumClink

/-- The settings of a wallet that its listener reads, besides `relay`. -/
structure ListenerSettings where
  wsHeartbeatSec : ℤ
  watchdogIntervalSec : ℤ
  listenerPingIntervalSec : ℤ

/-- A setting of `LISTENER_SETTINGS`, with its new value. -/
inductive ListenerSetting
  | relay (relay : String)
  | wsHeartbeatSec (sec : ℤ)
  | watchdogIntervalSec (sec : ℤ)
  | listenerPingIntervalSec (sec : ℤ)

/-- A `HeartbeatManager`. -/
structure HeartbeatManager where
  /-- The relays that it was built with. -/
  builtFor : List String
  heartbeatSec : ℤ
  /-- The relays that it still has. -/
  relays : List String
  connected : Bool

/-- How `run` ends. -/
inductive RunEnd
  | returned
  /-- With an `Exception`. -/
  | raised
  /-- With a `CancelledError`. -/
  | cancelled
deriving DecidableEq

/-- What `run` awaits. -/
inductive RunPc
  /-- Nothing: it is about to check its prerequisites. -/
  | checking
  /-- `asyncio.sleep(5)`, until the next check. -/
  | sleeping
  /-- `ensure_offer_relays_pinned`. -/
  | pinning
  /-- In `refresh_manager`, the end of a manager whose relays drifted. -/
  | closingDrifted
  /-- In `refresh_manager`, the end of a manager without relays. -/
  | closingEmpty
  /-- In `refresh_manager`, the connection of the manager. -/
  | connecting
  /-- `asyncio.sleep(30)`, after no relay was reached. -/
  | unconnected
  /-- The taskgroup. -/
  | serving
  /-- After an exception in the taskgroup, the end of the manager. -/
  | closingFailed
  /-- `asyncio.sleep(30)`, after an exception in the taskgroup. -/
  | resting
  | ended (how : RunEnd)
deriving DecidableEq

/-- Whether it is an await. -/
def RunPc.awaits : RunPc → Bool
  | .checking | .ended _ => false
  | _ => true

/-- How the taskgroup ends. -/
inductive GroupExit
  /-- Its children returned or were cancelled by `restart_event_handler`. -/
  | returned
  /-- A child raised an `Exception`. -/
  | raised
  /-- A `CancelledError` came up that is not a cancellation of `run`. -/
  | cancelled

/-- A server with its `run` task. -/
structure ListenerProcess where
  now : Time
  /-- The offers, the pick and the relay setting. -/
  server : RelayServer
  settings : ListenerSettings
  manager : Option HeartbeatManager
  /-- `_manager_relays`. -/
  managerRelays : List String
  /-- Whether `taskgroup` is set. -/
  taskgroup : Bool
  doStop : Bool
  /-- Whether the task of `run` itself was cancelled. -/
  ownCancelled : Bool
  pc : RunPc
  /-- Whether `refresh_manager` has just succeeded and nothing changed since, as the steps write it
  down; no step reads it. -/
  passed : Bool

/-- An outcome of what `run` awaits, or something that happens beside it. -/
inductive ListenerAction
  /-- `listener_prerequisites_met`: whether the network and the wallet are there, or it raises. -/
  | check (met : Except Unit Bool)
  /-- A sleep is over. -/
  | wake
  /-- `ensure_offer_relays_pinned` is over; `pickRaised` is the exception that it catches,
  `buildRaises` whether `get_relay_manager` raises, if it is called next. -/
  | pinned (pickRaised buildRaises : Bool)
  /-- `manager.close()` is over. -/
  | closed (raises buildRaises : Bool)
  /-- `manager.connect()` raises, or leaves these relays. -/
  | connectReturned (outcome : Option (List String × Bool))
  | groupExited (how : GroupExit)
  /-- The task of `run` is cancelled, and the cancellation arrives at what it awaits. -/
  | cancelRun
  | deliverCancel
  /-- `do_stop` is set. -/
  | stop
  | advance (t : Time)
  /-- A setting changes and is announced to `notify_setting_changed`. -/
  | setSetting (setting : ListenerSetting)
  /-- The offers, the pick or the configuration change. -/
  | change (server : RelayServer)
  /-- The manager loses or regains relays. -/
  | relaysChanged (relays : List String) (connected : Bool)

namespace ListenerProcess

/-- A server whose `run` task starts. -/
def start (now : Time) (server : RelayServer) (settings : ListenerSettings) : ListenerProcess where
  now := now
  server := server
  settings := settings
  manager := none
  managerRelays := []
  taskgroup := false
  doStop := false
  ownCancelled := false
  pc := .checking
  passed := false

/-- `ws_heartbeat_sec`. -/
def wsHeartbeatSec (s : ListenerProcess) : ℤ := max 0 s.settings.wsHeartbeatSec

/-- `listen_relay_urls`. -/
def listenRelayUrls (tables : CharTables) (s : ListenerProcess) : List String :=
  s.server.listenRelayUrls tables s.now

/-- `get_relay_manager`. -/
def getRelayManager (tables : CharTables) (s : ListenerProcess) : HeartbeatManager where
  builtFor := s.listenRelayUrls tables
  heartbeatSec := s.wsHeartbeatSec
  relays := s.listenRelayUrls tables
  connected := false

/-- `_run_task_was_cancelled`; `hasCancelling` says whether tasks have `cancelling`, as they do from
Python 3.11 on. -/
def runTaskWasCancelled (hasCancelling : Bool) (s : ListenerProcess) : Bool :=
  if hasCancelling then s.ownCancelled else true

/-- The end of `refresh_manager`, and what `run` does next. -/
def finishRefresh (s : ListenerProcess) (m : HeartbeatManager) : ListenerProcess :=
  if m.relays = [] then { s with pc := .unconnected }
  else { s with pc := .serving, taskgroup := true, passed := true }

/-- `refresh_manager`, from the test of `connected` on. -/
def connectManager (s : ListenerProcess) (m : HeartbeatManager) : ListenerProcess :=
  if m.connected then s.finishRefresh m else { s with pc := .connecting }

/-- `get_relay_manager`, as the new manager of the server. -/
def buildManager (tables : CharTables) (s : ListenerProcess) : ListenerProcess :=
  { s with
    manager := some (s.getRelayManager tables)
    managerRelays := s.listenRelayUrls tables }

/-- `refresh_manager`, from the test for relays on. -/
def checkManager (s : ListenerProcess) (m : HeartbeatManager) : ListenerProcess :=
  if m.relays = [] then { s with pc := .closingEmpty } else s.connectManager m

/-- `refresh_manager` without a manager. -/
def refreshNew (tables : CharTables) (s : ListenerProcess) (buildRaises : Bool) :
    ListenerProcess :=
  if buildRaises then { s with pc := .ended .raised }
  else (s.buildManager tables).checkManager (s.getRelayManager tables)

/-- The relays to listen on are not those that the manager was built with. -/
def Drifted (tables : CharTables) (s : ListenerProcess) : Prop :=
  s.managerRelays.toFinset ≠ (s.listenRelayUrls tables).toFinset

instance (tables : CharTables) (s : ListenerProcess) : Decidable (s.Drifted tables) :=
  inferInstanceAs (Decidable (_ ≠ _))

/-- `refresh_manager`, up to its first await. -/
def refreshManager (tables : CharTables) (s : ListenerProcess) (buildRaises : Bool) :
    ListenerProcess :=
  match s.manager with
  | none => s.refreshNew tables buildRaises
  -- the relays alone are compared, not the heartbeat
  | some m => if s.Drifted tables then { s with pc := .closingDrifted } else s.checkManager m

/-- What `run` does when the end of a manager is over. -/
def afterClose (tables : CharTables) (s : ListenerProcess) (buildRaises : Bool) :
    Option ListenerProcess :=
  match s.pc with
  | .closingDrifted => some ({ s with manager := none }.refreshNew tables buildRaises)
  | .closingEmpty =>
    some (if buildRaises then { s with pc := .ended .raised }
      else (s.buildManager tables).connectManager (s.getRelayManager tables))
  -- `run` drops its manager and rests; the `finally` clears `taskgroup` after that
  | .closingFailed => some { s with manager := none, pc := .resting }
  | _ => none

/-- What `run` does when its taskgroup is over. -/
def afterGroup (hasCancelling : Bool) (s : ListenerProcess) : GroupExit → ListenerProcess
  | .returned => { s with pc := .checking, taskgroup := false }
  | .raised =>
    if s.manager.isSome then { s with pc := .closingFailed } else { s with pc := .resting }
  | .cancelled =>
    -- a cancellation that came out of a child restarts the listener
    if s.doStop || s.runTaskWasCancelled hasCancelling then
      { s with pc := .ended .cancelled, taskgroup := false }
    else { s with pc := .checking, taskgroup := false }

/-- A setting is set and announced. -/
def setSetting (s : ListenerProcess) : ListenerSetting → ListenerProcess
  -- the cached pick is dropped before the restart is requested
  | .relay relay => { s with server := s.server.setRelay relay }
  | .wsHeartbeatSec sec =>
    { s with
      settings := { s.settings with wsHeartbeatSec := sec }
      server := s.server.restartEventHandler }
  | .watchdogIntervalSec sec =>
    { s with
      settings := { s.settings with watchdogIntervalSec := sec }
      server := s.server.restartEventHandler }
  | .listenerPingIntervalSec sec =>
    { s with
      settings := { s.settings with listenerPingIntervalSec := sec }
      server := s.server.restartEventHandler }

/-- Perform an action, if it is enabled. -/
def step (tables : CharTables) (hasCancelling : Bool) (s : ListenerProcess) :
    ListenerAction → Option ListenerProcess
  | .check met =>
    if s.pc = .checking then
      match met with
      | .error _ => some { s with pc := .ended .raised }
      | .ok met =>
        -- `do_stop` is looked at only while the prerequisites are missing
        if met ∧ s.listenRelayUrls tables ≠ [] then some { s with pc := .pinning }
        else if s.doStop then some { s with pc := .ended .returned }
        else some { s with pc := .sleeping }
    else none
  | .wake =>
    match s.pc with
    | .sleeping | .unconnected => some { s with pc := .checking }
    | .resting => some { s with pc := .checking, taskgroup := false }
    | _ => none
  | .pinned _ buildRaises =>
    if s.pc = .pinning then some (s.refreshManager tables buildRaises) else none
  | .closed raises buildRaises =>
    if raises then
      match s.pc with
      | .closingDrifted | .closingEmpty | .closingFailed =>
        -- neither `refresh_manager` nor the handler in `run` catches it
        some { s with pc := .ended .raised, taskgroup := false }
      | _ => none
    else s.afterClose tables buildRaises
  | .connectReturned outcome =>
    if s.pc = .connecting then
      s.manager.map fun m =>
        match outcome with
        | none => { s with pc := .ended .raised }
        | some (relays, connected) =>
          let m := { m with relays := relays, connected := connected }
          { s with manager := some m }.finishRefresh m
    else none
  | .groupExited how =>
    if s.pc = .serving then some { s.afterGroup hasCancelling how with passed := false } else none
  | .cancelRun => some { s with ownCancelled := true }
  | .deliverCancel =>
    if s.ownCancelled ∧ s.pc.awaits then some { s with pc := .ended .cancelled, taskgroup := false }
    else none
  | .stop => some { s with doStop := true }
  | .advance t => if s.now ≤ t then some { s with now := t, passed := false } else none
  | .setSetting setting => some { s.setSetting setting with passed := false }
  | .change server => some { s with server := server, passed := false }
  | .relaysChanged relays connected =>
    s.manager.map fun m =>
      { s with manager := some { m with relays := relays, connected := connected } }

/-- The states that a run of actions that meet `P` reaches. -/
abbrev Reachable (tables : CharTables) (hasCancelling : Bool)
    (P : ListenerProcess → ListenerAction → Prop) (init : ListenerProcess) :
    ListenerProcess → Prop :=
  Transition.Reachable (step tables hasCancelling) P init

end ListenerProcess

end ElectrumClink
