import ElectrumClink.Data.Transition
import ElectrumClink.Server.Dispatch

/-!
# The plugin and its servers

`ClinkPlugin` runs one server for every wallet file. A server is stopped in two halves:
`_stop_server` detaches it at once and schedules `close`, which awaits the end of its relay manager
before it cancels the task that listens. Until then the task goes on.

`Plugin.step` performs one action: a call of the plugin, a step of a server's `run` task or of a
scheduled `close`, the arrival of an event at a relay manager, or its dispatch. The relays a
server listens on and the prerequisites of its listener are left open: its `run` task may take up
and give up listening at any time.
-/

namespace ElectrumClink

/-- A wallet object; each reload of a wallet file builds a new one. -/
structure WalletObject where
  /-- What tells the object from all others. -/
  id : ℕ
  /-- `storage.path`, unless it cannot be read. -/
  path : Option String
  hasLightning : Bool
deriving DecidableEq

namespace WalletObject

/-- `_wallet_key`: the path, or a name for this object without one. -/
def key (wallet : WalletObject) : String :=
  let path := wallet.path.getD ""
  if path ≠ "" then path else "<unnamed-wallet-" ++ toString wallet.id ++ ">"

end WalletObject

/-- Where the `run` task of a server is. -/
inductive RunPhase
  /-- It waits for its prerequisites, picks relays or connects. -/
  | waiting
  /-- `handle_requests` reads the events of the manager. -/
  | listening
  /-- It returned or was cancelled. -/
  | ended
deriving DecidableEq

/-- Where the `close` coroutine of a stopped server is. -/
inductive CloseStep
  | scheduled
  /-- It awaits `manager.close()`. -/
  | closingManager
  /-- It awaits `taskgroup.cancel_remaining()`. -/
  | cancelling
  | done
deriving DecidableEq

/-- The teardown of a stopped server, with the taskgroup it cancels. -/
structure Teardown where
  step : CloseStep
  taskgroup : Option ℕ
deriving DecidableEq

/-- A server with its tasks. -/
structure ServerProcess where
  wallet : WalletObject
  doStop : Bool
  /-- Whether the callbacks are registered. -/
  callbacks : Bool
  /-- The relay manager: the events that it received and nobody read yet. -/
  manager : Option (List Event)
  phase : RunPhase
  teardown : Option Teardown
  /-- What `_dispatch` reads and writes. -/
  core : ClinkServer

/-- The inner taskgroup of a server comes up or goes down. -/
def ServerProcess.withTaskgroup (s : ServerProcess) (up : Bool) : ServerProcess :=
  { s with core := { s.core with taskgroup := up } }

/-- A request that `_dispatch` answered. -/
structure Answer where
  /-- The server that answered, and the key of its wallet. -/
  server : ℕ
  key : String
  event : Event
  reply : Reply
  /-- Whether the server had been stopped. -/
  stopped : Bool
deriving DecidableEq

/-- The plugin, with every server it ever built. -/
structure Plugin where
  now : Time
  /-- `_servers`: the number of the running server of a wallet. -/
  servers : Dict String ℕ
  /-- `_taskgroups`: a taskgroup has the number of the server it was made for. -/
  taskgroups : Dict String ℕ
  /-- The servers, in the order they were built. -/
  processes : List ServerProcess
  /-- The requests answered so far, written by the steps and read by none of them. -/
  answers : List Answer

/-- What can happen next. -/
inductive PluginAction
  /-- `start_plugin`; `enabled` is the wallet's setting, `core` what its storage holds. -/
  | startPlugin (wallet : WalletObject) (enabled : Bool) (core : ClinkServer)
  | setWalletEnabled (wallet : WalletObject) (enabled : Bool) (core : ClinkServer)
  | closeWallet (wallet : Option WalletObject)
  | onClose
  /-- Time passes. -/
  | advance (t : Time)
  /-- The `run` task takes up listening, with a new manager or the one there is. -/
  | listen (server : ℕ) (rebuild : Bool)
  /-- The listener goes down: it is restarted, or an exception tears its manager down. -/
  | unlisten (server : ℕ) (exception : Bool)
  /-- The `run` task of a stopped server returns. -/
  | returnRun (server : ℕ)
  /-- A relay delivers an event. -/
  | arrive (server : ℕ) (event : Event)
  /-- `handle_requests` reads an event and awaits `_dispatch`. -/
  | dispatch (server : ℕ) (calls : Calls)
  /-- Whatever else happens to a server: notifications, settings, offers, the wallet. -/
  | other (server : ℕ) (core : ClinkServer)
  /-- The `close` coroutine of a stopped server takes its next step. -/
  | close (server : ℕ)

namespace Plugin

/-- Nothing was started yet. -/
def init (now : Time) : Plugin := ⟨now, ∅, ∅, [], []⟩

/-- Change a server. -/
def update (p : Plugin) (i : ℕ) (f : ServerProcess → ServerProcess) : Plugin :=
  { p with processes := p.processes.modify i f }

/-- Whether a server drives this very wallet object. -/
def drives (p : Plugin) (i : ℕ) (wallet : WalletObject) : Bool :=
  p.processes[i]?.any fun s => decide (s.wallet.id = wallet.id)

/-- `_stop_server`: detach the server and schedule its `close`. -/
def stopServer (p : Plugin) (key : String) : Plugin :=
  let taskgroup := p.taskgroups.get? key
  let detached :=
    { p with servers := p.servers.erase key, taskgroups := p.taskgroups.erase key }
  match p.servers.get? key with
  | none => detached
  | some i =>
    detached.update i fun s =>
      { s with doStop := true, callbacks := false, teardown := some ⟨.scheduled, taskgroup⟩ }

/-- Stop several servers. -/
def stopServers (p : Plugin) (keys : List String) : Plugin := keys.foldl stopServer p

/-- Whether `start_plugin` has something to start. -/
def starts (p : Plugin) (wallet : WalletObject) (enabled : Bool) : Bool :=
  wallet.hasLightning && enabled &&
    !(p.servers.get? wallet.key).any fun i => p.drives i wallet

/-- The servers that `start_plugin` replaces: that of another object of the same file. -/
def replacedKeys (p : Plugin) (wallet : WalletObject) (enabled : Bool) : List String :=
  if p.starts wallet enabled then p.servers.keys.filter (· = wallet.key) else []

/-- The end of `start_plugin`: a new server with a taskgroup of its own. -/
def launch (p : Plugin) (wallet : WalletObject) (core : ClinkServer) : Plugin :=
  { p with
    servers := p.servers.set wallet.key p.processes.length
    taskgroups := p.taskgroups.set wallet.key p.processes.length
    processes := p.processes ++
      [{ wallet := wallet
         doStop := false
         callbacks := true
         manager := none
         phase := .waiting
         teardown := none
         core := core.restart core.offers }] }

/-- `start_plugin`. -/
def startPlugin (p : Plugin) (wallet : WalletObject) (enabled : Bool) (core : ClinkServer) :
    Plugin :=
  if p.starts wallet enabled then
    (p.stopServers (p.replacedKeys wallet enabled)).launch wallet core
  else p

/-- The servers of a wallet that is not enabled any more. -/
def disabledKeys (p : Plugin) (wallet : WalletObject) : List String :=
  (p.servers.entries.filter fun e => p.drives e.2 wallet || e.1 == wallet.key).map Prod.fst

/-- `apply_wallet_enabled`, after the setting was written. -/
def setWalletEnabled (p : Plugin) (wallet : WalletObject) (enabled : Bool) (core : ClinkServer) :
    Plugin :=
  if enabled then p.startPlugin wallet enabled core else p.stopServers (p.disabledKeys wallet)

/-- Whether a server drives an object of this file. -/
def drivesFile (p : Plugin) (i : ℕ) (path : String) : Bool :=
  p.processes[i]?.any fun s => decide (s.wallet.path = some path)

/-- The server that `close_wallet` stops: the one that drives the object, or else one that drives an
object of its file. -/
def closedKeys (p : Plugin) (wallet : WalletObject) : List String :=
  match p.servers.entries.find? fun e => p.drives e.2 wallet with
  | some e => [e.1]
  | none =>
    match wallet.path with
    | none => []
    | some path =>
      ((p.servers.entries.find? fun e => p.drivesFile e.2 path).map Prod.fst).toList

/-- `close_wallet`; without a wallet it stops everything. -/
def closeWallet (p : Plugin) (wallet : Option WalletObject) : Plugin :=
  match wallet with
  | none => p.stopServers p.servers.keys
  | some wallet => p.stopServers (p.closedKeys wallet)

/-- `on_close`. -/
def onClose (p : Plugin) : Plugin := p.stopServers p.servers.keys

/-- The next step of a `close` coroutine, if there is one. -/
def closeStep (p : Plugin) (i : ℕ) (s : ServerProcess) (t : Teardown) : Option Plugin :=
  match t.step with
  | .scheduled =>
    let next : CloseStep := if s.manager.isSome then .closingManager else .cancelling
    some (p.update i fun s => { s with teardown := some ⟨next, t.taskgroup⟩ })
  -- the cancellation follows whether or not the manager closes without an error
  | .closingManager =>
    some (p.update i fun s => { s with teardown := some ⟨.cancelling, t.taskgroup⟩ })
  | .cancelling =>
    let p := p.update i fun s => { s with teardown := some ⟨.done, t.taskgroup⟩ }
    match t.taskgroup with
    | none => some p
    | some g =>
      some (p.update g fun s => ServerProcess.withTaskgroup { s with phase := .ended } false)
  | .done => none

/-- The requests that a dispatch answered. -/
def answersOf (i : ℕ) (s : ServerProcess) (event : Event) (reply : Option Reply) : List Answer :=
  (reply.map fun reply => ⟨i, s.wallet.key, event, reply, s.doStop⟩).toList

/-- Perform an action, if it is enabled. A server's identity is that of its wallet file. -/
def step (env : String → Env) (p : Plugin) : PluginAction → Option Plugin
  | .startPlugin wallet enabled core => some (p.startPlugin wallet enabled core)
  | .setWalletEnabled wallet enabled core => some (p.setWalletEnabled wallet enabled core)
  | .closeWallet wallet => some (p.closeWallet wallet)
  | .onClose => some p.onClose
  | .advance t => if p.now ≤ t then some { p with now := t } else none
  | .listen i rebuild =>
    p.processes[i]?.bind fun s =>
      if s.phase = .waiting then
        some (p.update i fun s => ServerProcess.withTaskgroup
          { s with
            manager := some (if rebuild then [] else s.manager.getD [])
            phase := .listening } true)
      else none
  | .unlisten i exception =>
    p.processes[i]?.bind fun s =>
      if s.phase = .listening then
        some (p.update i fun s => ServerProcess.withTaskgroup
          { s with
            manager := if exception then none else s.manager
            phase := .waiting } false)
      else none
  | .returnRun i =>
    p.processes[i]?.bind fun s =>
      if s.phase = .waiting ∧ s.doStop = true then
        some (p.update i fun s => { s with phase := .ended })
      else none
  | .arrive i event =>
    p.processes[i]?.bind fun s =>
      s.manager.map fun events =>
        p.update i fun s => { s with manager := some (events ++ [event]) }
  | .dispatch i calls =>
    p.processes[i]?.bind fun s =>
      match s.phase, s.manager with
      | .listening, some (event :: events) =>
        -- nothing here asks whether the server was stopped
        let result := s.core.dispatch (env s.wallet.key) calls p.now event
        let p := p.update i fun s => { s with manager := some events, core := result.2 }
        some { p with answers := p.answers ++ answersOf i s event result.1 }
      | _, _ => none
  | .other i core =>
    p.processes[i]?.map fun _ => p.update i fun s => { s with core := core }
  | .close i =>
    p.processes[i]?.bind fun s => s.teardown.bind fun t => p.closeStep i s t

/-- The states that a run of actions that meet `P` reaches. -/
abbrev Reachable (env : String → Env) (P : Plugin → PluginAction → Prop) (init : Plugin) :
    Plugin → Prop :=
  Transition.Reachable (step env) P init

end Plugin

end ElectrumClink
