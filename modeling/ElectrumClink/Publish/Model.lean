import ElectrumClink.Data.Rendezvous
import ElectrumClink.Data.Transition
import ElectrumClink.Protocol

/-!
# Publishing events

`add_event_checked` publishes an event on all relays of its manager at once and waits for their
`OK` messages. A relay object hands an `OK` over through `event_adds`, a dictionary of futures by
event id, and all publishes of the plugin share these dictionaries.

`Publishing.step` performs what one of these publishes, or one of its children, does between two
awaits, and what the relays send meanwhile.
-/

namespace ElectrumClink

/-- A relay object. -/
abbrev RelayId := ℕ

/-- A message of a relay: `["OK", <event id>, <accepted>, <reason>]`, as far as it goes. -/
abbrev RelayMessage := List Json

/-- What `bool` and `str` make of a JSON value. -/
structure JsonBuiltins where
  bool : Json → Bool
  str : Json → String

/-- A reading of the values that relays send. -/
def JsonBuiltins.sample : JsonBuiltins where
  bool
    | .bool b => b
    | .str s => s ≠ ""
    | .int n => n ≠ 0
    | _ => false
  str
    | .str s => s
    | .int n => toString n
    | _ => ""

/-- What `_publish_to_relay` returns: whether the relay accepted, if it said so, and the reason. -/
abbrev RelayVerdict := Option Bool × String

/-- The end of `_publish_to_relay`, after an `OK`. -/
def relayVerdict (py : JsonBuiltins) (message : RelayMessage) : RelayVerdict :=
  let accepted := match message[2]? with
    | some flag => py.bool flag
    | none => true
  let reason := match message[3]? with
    | some text => py.str text
    | none => ""
  (some accepted, reason)

/-- How `add_event_checked` ends. -/
inductive PublishOutcome
  /-- It returns the event id. -/
  | published (eventId : EventId)
  /-- It raises `PublishRejected`. -/
  | rejected (message : String)
  /-- It raises `asyncio.TimeoutError`. -/
  | timedOut (message : String)
  /-- It was cancelled. -/
  | cancelled
  /-- The stock publish raised something. -/
  | raised
deriving DecidableEq

/-- The end of `add_event_checked`, after the `gather`. -/
def publishOutcome (eventId : EventId) (results : List RelayVerdict) : PublishOutcome :=
  if results.any fun r => r.1 = some true then .published eventId
  else
    let rejections := (results.filter fun r => r.1 = some false).map Prod.snd
    if rejections ≠ [] then
      let detail := (rejections.find? fun r => r ≠ "").getD "no reason given"
      .rejected s!"relay rejected the event: {detail}"
    else .timedOut "no relay acknowledged the event"

/-- Where a `_publish_to_relay` is. It knows its future by the number of those before it. -/
inductive PublishStage
  /-- Its task has not started. -/
  | scheduled
  /-- It awaits the `send`. -/
  | sending (future : ℕ)
  /-- It awaits its future. -/
  | waiting (future : ℕ)
  | returned (future : ℕ) (verdict : RelayVerdict)
  /-- It was cancelled, if it had started with this future. -/
  | cancelled (future : Option ℕ)
deriving DecidableEq

/-- A call of `add_event_checked`. -/
structure PublishCall where
  eventId : EventId
  /-- The children of the `gather`, one for each relay. -/
  children : List (RelayId × PublishStage)
  /-- It left the publish to `aionostr._add_event`. -/
  stock : Bool
  /-- Its cancellation was requested. -/
  cancelling : Bool
  outcome : Option PublishOutcome
deriving DecidableEq

/-- The publishes of the plugin. -/
structure Publishing where
  /-- The futures of all publishes. The `event_adds` of a relay are the entries of the table for
  that relay. -/
  futures : Rendezvous (RelayId × EventId) RelayMessage
  calls : List PublishCall

/-- What can happen next. -/
inductive PublishAction
  /-- `add_event_checked` is called; a relay that does not support a checked publish is marked. -/
  | call (eventId : EventId) (relays : List (RelayId × Bool))
  /-- The task of a child starts. -/
  | start (call child : ℕ)
  /-- The `send` of a child returned. -/
  | sent (call child : ℕ)
  /-- A relay sends an `OK` for an event. -/
  | ok (relay : RelayId) (eventId : EventId) (message : RelayMessage)
  /-- A child goes on with the message in its future. -/
  | wake (call child : ℕ)
  /-- The `send` of a child raised, or its `wait_for` timed out. -/
  | trouble (call child : ℕ) (repr : String)
  /-- A call is cancelled by its caller. -/
  | cancel (call : ℕ)
  /-- The cancellation of a call reaches a child. -/
  | cancelChild (call child : ℕ)
  /-- The `gather` of a call is over. -/
  | finish (call : ℕ)
  /-- The stock publish of a call is over. -/
  | finishStock (call : ℕ) (outcome : PublishOutcome)

namespace PublishStage

/-- The verdict that a child returned. -/
def verdict : PublishStage → Option RelayVerdict
  | .returned _ verdict => some verdict
  | _ => none

/-- The task of a child is over. -/
def IsOver : PublishStage → Prop
  | .returned _ _ | .cancelled _ => True
  | _ => False

instance : (stage : PublishStage) → Decidable stage.IsOver
  | .returned _ _ | .cancelled _ => inferInstanceAs (Decidable True)
  | .scheduled | .sending _ | .waiting _ => inferInstanceAs (Decidable False)

/-- The future that a child holds in the `event_adds` of its relay. -/
def held : PublishStage → Option ℕ
  | .sending f | .waiting f => some f
  | _ => none

end PublishStage

namespace PublishCall

/-- `add_event_checked`, up to its first await. -/
def create (eventId : EventId) (relays : List (RelayId × Bool)) : PublishCall :=
  if relays = [] then
    ⟨eventId, [], false, false, some (.timedOut "no connected relays to publish to")⟩
  else if relays.all Prod.snd then
    ⟨eventId, relays.map fun r => (r.1, .scheduled), false, false, none⟩
  else ⟨eventId, [], true, false, none⟩

/-- A child gets on. -/
def setChild (call : PublishCall) (i : ℕ) (relay : RelayId) (stage : PublishStage) : PublishCall :=
  { call with children := call.children.set i (relay, stage) }

/-- How the `gather` ends, when all children are over: cancelled, if that was requested. -/
def gathered (call : PublishCall) : Option PublishOutcome :=
  if call.children.all fun c => c.2.IsOver then
    if call.cancelling then some .cancelled
    else some (publishOutcome call.eventId (call.children.filterMap fun c => c.2.verdict))
  else none

end PublishCall

namespace Publishing

/-- Nothing was published. -/
def init : Publishing := ⟨.init, []⟩

/-- A child of a call, with that call. -/
def child? (s : Publishing) (c i : ℕ) : Option (PublishCall × RelayId × PublishStage) :=
  (s.calls[c]?).bind fun call => (call.children[i]?).map fun child => (call, child)

/-- A child of a call gets on. -/
def setStage (s : Publishing) (c i : ℕ) (call : PublishCall) (relay : RelayId)
    (stage : PublishStage) : Publishing :=
  { s with calls := s.calls.set c (call.setChild i relay stage) }

/-- `_publish_to_relay`, up to the `send`: its future is registered. -/
def startChild (s : Publishing) (c i : ℕ) (call : PublishCall) (relay : RelayId) : Publishing :=
  { s.setStage c i call relay (.sending s.futures.waiters.length) with
    futures := s.futures.register (relay, call.eventId) }

/-- `_publish_to_relay`, from where it leaves its `try`. -/
def endChild (s : Publishing) (c i : ℕ) (call : PublishCall) (relay : RelayId) (future : ℕ)
    (stage : PublishStage) : Publishing :=
  { s.setStage c i call relay stage with futures := s.futures.leave future }

/-- Perform an action, if it is enabled. -/
def step (py : JsonBuiltins) (s : Publishing) : PublishAction → Option Publishing
  | .call eventId relays => some { s with calls := s.calls ++ [.create eventId relays] }
  | .start c i =>
    (s.child? c i).bind fun (call, relay, stage) =>
      if stage = .scheduled then some (s.startChild c i call relay) else none
  | .sent c i =>
    (s.child? c i).bind fun (call, relay, stage) =>
      match stage with
      | .sending f => some (s.setStage c i call relay (.waiting f))
      | _ => none
  | .ok relay eventId message =>
    some { s with futures := s.futures.say (relay, eventId) message }
  | .wake c i =>
    (s.child? c i).bind fun (call, relay, stage) =>
      match stage with
      | .waiting f =>
        ((s.futures.waiters[f]?).bind Waiter.answer).map fun message =>
          s.endChild c i call relay f (.returned f (relayVerdict py message))
      | _ => none
  | .trouble c i repr =>
    (s.child? c i).bind fun (call, relay, stage) =>
      stage.held.map fun f => s.endChild c i call relay f (.returned f (none, repr))
  | .cancel c =>
    (s.calls[c]?).bind fun call =>
      if call.outcome.isNone then
        some { s with calls := s.calls.set c { call with cancelling := true } }
      else none
  | .cancelChild c i =>
    (s.child? c i).bind fun (call, relay, stage) =>
      if call.cancelling ∧ ¬ stage.IsOver then
        match stage.held with
        | some f => some (s.endChild c i call relay f (.cancelled (some f)))
        -- a task that is cancelled before it starts never runs
        | none => some (s.setStage c i call relay (.cancelled none))
      else none
  | .finish c =>
    (s.calls[c]?).bind fun call =>
      if call.outcome.isNone ∧ ¬ call.stock then
        call.gathered.map fun outcome =>
          { s with calls := s.calls.set c { call with outcome := some outcome } }
      else none
  | .finishStock c outcome =>
    (s.calls[c]?).bind fun call =>
      if call.outcome.isNone ∧ call.stock then
        some { s with calls := s.calls.set c { call with outcome := some outcome } }
      else none

/-- The states that a run reaches. -/
abbrev Reachable (py : JsonBuiltins) : Publishing → Prop :=
  Transition.Reachable (step py) (fun _ _ => True) init

end Publishing

end ElectrumClink
