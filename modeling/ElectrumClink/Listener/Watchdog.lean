import ElectrumClink.Server.Model

/-!
# The relay watchdog

While the listener is up, `_relay_watchdog` repairs its relay manager: `prune_dead_relays` drops the
relays whose connections are seen to be broken, `ensure_listener_relays` attaches the relays that
are missing, and `ping_listener` drops and attaches again those that it hears no echo from. The
relays are attached by `update_relays` of the manager.

`Watchdog.pass` performs one of these passes, over what it meets outside the server.
-/

namespace ElectrumClink

namespace Watchdog

/-! ## The relay manager -/

/-- A `HeartbeatRelay`. -/
structure Relay where
  /-- Which object it is. -/
  id : ℕ
  url : String
deriving DecidableEq

/-- A `ManagerSubscription`. -/
structure Subscription where
  filters : List Json
  onlyStored : Bool

/-- A `HeartbeatManager`. -/
structure Manager where
  relays : List Relay
  connected : Bool
  subscriptions : Dict String Subscription
  /-- The next relay that is built. -/
  nextId : ℕ

/-- What becomes of the calls that `update_relays` makes. -/
structure Outcomes where
  /-- Whether a new relay is connected when the attempts are over. -/
  connected : Relay → Bool
  /-- Whether `subscribe` returns for a subscription, or raises. -/
  subscribes : String → Bool

/-- One `update_relays`, as the steps write it down; no step reads it. -/
structure RelayUpdate where
  /-- The new list. -/
  desired : List String
  outcomes : Outcomes
  before : List Relay
  /-- The relays that it tried to connect, and those of them that it added. -/
  new : List Relay
  added : List Relay
  /-- The relays that it closed. -/
  removed : List Relay
  after : List Relay
  subscriptions : Dict String Subscription
  /-- The calls of `subscribe`. -/
  issued : List (String × Subscription)

section Manager

variable (normalizeUrl : String → String)

/-- `_new_relay`. The library keeps the normalized URL. -/
def newRelay (id : ℕ) (url : String) : Relay := ⟨id, normalizeUrl url⟩

/-- The constructor of the manager. -/
def Manager.build (urls : List String) : Manager where
  relays := urls.zipIdx.map fun (url, id) => newRelay normalizeUrl id url
  connected := false
  subscriptions := ∅
  nextId := urls.length

/-- The relays that are built for URLs that no relay of the manager carries. -/
def Manager.newRelays (m : Manager) (updated : List String) : List Relay :=
  ((updated.filter fun url => url ∉ m.relays.map Relay.url).zipIdx m.nextId).map fun (url, id) =>
    newRelay normalizeUrl id url

/-- The loop that issues the subscriptions again, until one raises. -/
def issue (subscribes : String → Bool) :
    List (String × Subscription) → List (String × Subscription)
  | [] => []
  | subscription :: rest =>
    if subscribes subscription.1 then subscription :: issue subscribes rest else [subscription]

/-- What `update_relays` does to a connected manager. The `broadcast` of the library is over when
all of its calls are. -/
def Manager.update (m : Manager) (outcomes : Outcomes) (updatedRelayList : List String) :
    RelayUpdate :=
  let updated := (updatedRelayList.map normalizeUrl).dedup
  let new := m.newRelays normalizeUrl updated
  let added := new.filter outcomes.connected
  let relays := m.relays ++ added
  let removed := relays.filter fun relay => relay.url ∉ updated
  let after := relays.filter fun relay => relay ∉ removed
  let changes := !new.isEmpty || !removed.isEmpty
  { desired := updatedRelayList
    outcomes := outcomes
    before := m.relays
    new := new
    added := added
    removed := removed
    after := after
    subscriptions := m.subscriptions
    -- over no relay a subscription would end at once, and the listener with it
    issued :=
      if changes && !after.isEmpty then issue outcomes.subscribes m.subscriptions.entries else [] }

/-- `update_relays`; it raises while the manager is not connected. -/
def Manager.updateRelays (m : Manager) (outcomes : Outcomes) (updatedRelayList : List String) :
    Option RelayUpdate :=
  if m.connected then some (m.update normalizeUrl outcomes updatedRelayList) else none

end Manager

/-! ## The passes -/

/-- What can be seen of the connection of a relay. -/
structure Connection where
  connected : Bool
  /-- Whether its websocket is closed, if it has one. -/
  wsClosed : Option Bool
  /-- Whether its receive loop is over, if it was started. -/
  receiveDone : Option Bool

/-- `_relay_connection_dead`. -/
def relayConnectionDead (relay : Connection) : Bool :=
  if !relay.connected then true
  else if relay.wsClosed.getD true then true
  else relay.receiveDone.getD false

/-- A pass, with what it meets outside the server. -/
inductive Pass
  /-- `prune_dead_relays`. -/
  | pruneDeadRelays (connection : Relay → Connection)
  /-- `ensure_listener_relays`. -/
  | ensureListenerRelays (listenRelayUrls : List String) (outcomes : Outcomes)
  /-- `ping_listener`: the ping of each relay, and which of them came back in time. -/
  | pingListener (ping : Relay → EventId) (echoed : EventId → Bool) (now : Time)
      (listenRelayUrls : List String) (outcomes : Outcomes)
  /-- No pass: subscriptions are opened or closed. -/
  | subscriptions (subscriptions : Dict String Subscription)

/-- The relays to listen on that a pass reads, and the outcomes of its update. -/
def Pass.reads : Pass → Option (List String × Outcomes)
  | .ensureListenerRelays listenRelayUrls outcomes
  | .pingListener _ _ _ listenRelayUrls outcomes => some (listenRelayUrls, outcomes)
  | .pruneDeadRelays _ | .subscriptions _ => none

end Watchdog

/-- A server with its relay manager. -/
structure Watchdog where
  server : ClinkServer
  manager : Option Watchdog.Manager
  /-- The relays that were closed, and the updates; no step reads them. -/
  closed : List Watchdog.Relay
  updates : List Watchdog.RelayUpdate

namespace Watchdog

/-- Before any pass. -/
def start (server : ClinkServer) (manager : Option Manager) : Watchdog := ⟨server, manager, [], []⟩

/-- `_drop_relays`. What `close` raises is only logged. -/
def dropRelays (s : Watchdog) (relays : List Relay) : Watchdog :=
  match s.manager with
  | none => s
  | some m =>
    { s with
      manager := some { m with relays := m.relays.filter fun relay => relay ∉ relays }
      closed := s.closed ++ relays }

/-- `prune_dead_relays`. -/
def pruneDeadRelays (s : Watchdog) (connection : Relay → Connection) : Watchdog :=
  match s.manager with
  | none => s
  | some m =>
    if !m.connected then s
    else
      let dead := m.relays.filter fun relay => relayConnectionDead (connection relay)
      if dead.isEmpty then s else s.dropRelays dead

/-- The manager and the logs after an update. -/
def updated (s : Watchdog) (m : Manager) (update : RelayUpdate) : Watchdog :=
  { s with
    manager := some
      { m with relays := update.after, nextId := m.nextId + update.new.length }
    closed := s.closed ++ update.removed
    updates := s.updates ++ [update] }

/-- The manager holds a relay. -/
def Holds (s : Watchdog) (relay : Relay) : Prop := ∃ m, s.manager = some m ∧ relay ∈ m.relays

variable (normalizeUrl : String → String)

/-- The URLs that the listener should sit on, as `ensure_listener_relays` compares them. -/
def desiredRelays (listenRelayUrls : List String) : List String :=
  (listenRelayUrls.map normalizeUrl).dedup

/-- `ensure_listener_relays`. -/
def ensureListenerRelays (s : Watchdog) (listenRelayUrls : List String) (outcomes : Outcomes) :
    Watchdog :=
  match s.manager with
  | none => s
  | some m =>
    if !m.connected then s
    else
      let desired := desiredRelays normalizeUrl listenRelayUrls
      if desired ⊆ m.relays.map Relay.url then s
      else
        match m.updateRelays normalizeUrl outcomes (desired.insertionSort (· ≤ ·)) with
        | none => s
        | some update => s.updated m update

/-- What `ping_listener` records of the relays that it does not hear. -/
def silentResult (failed : List Relay) : String :=
  let urls := ", ".intercalate (failed.map Relay.url)
  "relay went silent, reconnecting: " ++ String.ofList (urls.toList.take 64)

/-- `ping_listener`, with whether every relay passed. -/
def pingListener (s : Watchdog) (ping : Relay → EventId) (echoed : EventId → Bool) (now : Time)
    (listenRelayUrls : List String) (outcomes : Outcomes) : Bool × Watchdog :=
  match s.manager with
  | none => (true, s)
  | some m =>
    if !m.connected || m.relays.isEmpty then (true, s)
    else
      let pinged := m.relays.foldl (fun pinged relay => pinged.set (ping relay) relay)
        (∅ : Dict EventId Relay)
      let s :=
        { s with
          server :=
            { s.server with
              pendingPings := s.server.pendingPings.filter fun id => id ∉ pinged } }
      -- a ping that could not be sent does not come back either
      let failed := (pinged.entries.filter fun e => !echoed e.1).map Prod.snd
      if failed.isEmpty then (true, s)
      else
        let s :=
          { s with server := s.server.record now "listener" none (silentResult failed) }
        (false, (s.dropRelays failed).ensureListenerRelays normalizeUrl listenRelayUrls outcomes)

/-- Perform a pass. -/
def pass (s : Watchdog) : Pass → Watchdog
  | .pruneDeadRelays connection => s.pruneDeadRelays connection
  | .ensureListenerRelays listenRelayUrls outcomes =>
    s.ensureListenerRelays normalizeUrl listenRelayUrls outcomes
  | .pingListener ping echoed now listenRelayUrls outcomes =>
    (s.pingListener normalizeUrl ping echoed now listenRelayUrls outcomes).2
  | .subscriptions subscriptions =>
    { s with manager := s.manager.map fun m => { m with subscriptions := subscriptions } }

/-- Perform passes one after the other. -/
def run (s : Watchdog) (passes : List Pass) : Watchdog := passes.foldl (pass normalizeUrl) s

end Watchdog

end ElectrumClink
