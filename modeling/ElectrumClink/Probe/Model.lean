import ElectrumClink.Data.Transition
import ElectrumClink.Relay.Pick

/-!
# Probing a relay

A probe publishes an event over one connection and waits until it comes back over another. A relay
does not store such an event, so the subscription has to be there when it is published.

`Probe.step` performs what `_run_probe` does between two awaits, with the outcome of the first, or
what happens beside it: the task that reads gets on, and somebody else publishes.
-/

namespace ElectrumClink

/-- A relay manager, as far as a probe looks at it. -/
structure ProbeManager where
  hasRelays : Bool
  connected : Bool
deriving DecidableEq

/-- The managers of a probe. -/
inductive ProbeSide
  | reader
  | writer
deriving DecidableEq

/-- The name of a manager in a message. -/
def ProbeSide.name : ProbeSide → String
  | .reader => "reader"
  | .writer => "writer"

/-- The task of `_await_readback`. -/
inductive ReadTask
  | notCreated
  | running
  | returned (got : Bool)
  /-- It raised an exception, which may be a `TimeoutError`. -/
  | raised (timeout : Bool) (repr : String)
  | cancelled
deriving DecidableEq

/-- How `_run_probe` ends. -/
inductive ProbeEnd
  | returned (result : ProbeResult)
  /-- With a `CancelledError`. -/
  | cancelled
deriving DecidableEq

/-- What `_run_probe` awaits. -/
inductive ProbeStage
  /-- `reader.connect()`. -/
  | connectingReader
  /-- `writer.connect()`. -/
  | connectingWriter
  /-- `asyncio.sleep(settle)`. -/
  | settling
  /-- `publish()`. -/
  | publishing
  /-- The task that reads, until `timeout`. -/
  | awaiting
  /-- In the `finally`, the task that reads, which it has cancelled. -/
  | stopping (outcome : ProbeEnd)
  /-- `reader.close()`. -/
  | closingReader (outcome : ProbeEnd)
  /-- `writer.close()`. -/
  | closingWriter (outcome : ProbeEnd)
  | ended (outcome : ProbeEnd)
deriving DecidableEq

/-- Something that a probe did or saw. -/
inductive ProbeMark
  /-- The task that reads was created. -/
  | subscribed
  /-- The event of the probe was sent. -/
  | sent
  /-- The task that reads saw an event with the marker. -/
  | heard (content : String)
  /-- A manager was closed. -/
  | closed (side : ProbeSide)
deriving DecidableEq

/-- A run of `_run_probe`. -/
structure Probe where
  relay : String
  marker : String
  /-- The reading of the clock when it started. -/
  start : Time
  stage : ProbeStage
  readTask : ReadTask
  /-- The contents of the events that were published to the reader. -/
  network : List String
  /-- What happened, oldest first; no step reads it. -/
  log : List ProbeMark
deriving DecidableEq

/-- What can happen next. -/
inductive ProbeAction
  /-- `reader.connect()` returns. -/
  | readerConnected
  /-- `writer.connect()` returns; this is what became of the managers. -/
  | writerConnected (reader writer : ProbeManager)
  /-- One of them did not connect in time. -/
  | connectTimedOut
  /-- What is awaited raises an exception. -/
  | raised (repr : String)
  | settled
  /-- The event of the probe goes out. -/
  | sent
  /-- `publish()` returns. -/
  | published
  /-- Somebody else publishes an event to the reader. -/
  | inject (content : String)
  /-- The relay delivers an event to the reader. -/
  | deliver (content : String)
  /-- The events of the subscription end. -/
  | streamEnded
  /-- The task that reads raises an exception. -/
  | readRaised (timeout : Bool) (repr : String)
  /-- The task that reads is over, and the probe looks at it. -/
  | readOver (clock : Time)
  /-- It is not over in time, and is cancelled. -/
  | readTimedOut
  /-- The task that was cancelled is over. -/
  | readStopped
  /-- `close()` of a manager is over. -/
  | closed
  /-- The probe is cancelled. An older `wait_for` ignores that if the task that reads is over. -/
  | cancel
deriving DecidableEq

/-- The start of the content of a probe. -/
def probeContentPrefix : String := "clink-relay-probe:"

/-- `marker in content`. -/
def Contains (marker content : String) : Prop := marker.toList <:+: content.toList

instance (marker content : String) : Decidable (Contains marker content) :=
  inferInstanceAs (Decidable (marker.toList <:+: content.toList))

namespace Probe

/-- A probe that awaits its first connection. -/
def begin (relay marker : String) (clock : Time) : Probe :=
  ⟨relay, marker, clock, .connectingReader, .notCreated, [], []⟩

/-- The content of the event of the probe. -/
def content (s : Probe) : String := probeContentPrefix ++ s.marker

/-- The task that reads goes on when there is an event. -/
def Reading (s : Probe) : Prop :=
  s.readTask = .running ∧ (s.stage = .settling ∨ s.stage = .publishing ∨ s.stage = .awaiting)

instance (s : Probe) : Decidable s.Reading := inferInstanceAs (Decidable (_ ∧ _))

/-- A result of the probe. -/
def report (s : Probe) (status : ProbeStatus) (rttMs : Option ℤ) (detail : String) : ProbeEnd :=
  .returned ⟨s.relay, status, rttMs, detail⟩

/-- A manager is closed. -/
def close (s : Probe) (side : ProbeSide) (stage : ProbeStage) : Probe :=
  { s with stage := stage, log := s.log ++ [.closed side] }

/-- The `finally` of the probe, up to its first await. -/
def finish (s : Probe) (outcome : ProbeEnd) : Probe :=
  if s.readTask = .running then { s with stage := .stopping outcome }
  else s.close .reader (.closingReader outcome)

/-- The task that reads gets on. -/
def setRead (s : Probe) (task : ReadTask) : Probe := { s with readTask := task }

/-- The manager that has no relays or is not connected, the reader first. -/
def unconnected (reader writer : ProbeManager) : Option ProbeSide :=
  if !reader.hasRelays || !reader.connected then some .reader
  else if !writer.hasRelays || !writer.connected then some .writer
  else none

/-- What the probe makes of the task that reads. -/
def afterRead (s : Probe) (clock : Time) : Option ProbeEnd :=
  let rttMs := wholeSeconds ((clock - s.start) * 1000)
  match s.readTask with
  | .returned true => some (s.report .ok (some rttMs) "")
  | .returned false =>
    some (s.report .noReadback (some rttMs) "relay did not deliver the probe event")
  | .raised true _ => some (s.report .noReadback none "timed out waiting for read-back")
  | .raised false repr => some (s.report .error none repr)
  | .cancelled => some .cancelled
  | .notCreated | .running => none

/-- `_await_readback` sees an event. -/
def hear (s : Probe) (content : String) : Probe :=
  if Contains s.marker content then
    { s with readTask := .returned true, log := s.log ++ [.heard content] }
  else s

/-- Perform an action, if it is enabled. -/
def step (s : Probe) : ProbeAction → Option Probe
  | .readerConnected =>
    if s.stage = .connectingReader then some { s with stage := .connectingWriter } else none
  | .writerConnected reader writer =>
    if s.stage = .connectingWriter then
      match unconnected reader writer with
      | some side =>
        some (s.finish (s.report .unreachable none s!"{side.name} could not connect"))
      | none =>
        some { s with stage := .settling, readTask := .running, log := s.log ++ [.subscribed] }
    else none
  | .connectTimedOut =>
    if s.stage = .connectingReader ∨ s.stage = .connectingWriter then
      some (s.finish (s.report .unreachable none "connect timed out"))
    else none
  | .raised repr =>
    if s.stage = .connectingReader ∨ s.stage = .connectingWriter ∨ s.stage = .publishing then
      some (s.finish (s.report .error none repr))
    else none
  | .settled => if s.stage = .settling then some { s with stage := .publishing } else none
  | .sent =>
    if s.stage = .publishing ∧ .sent ∉ s.log then
      some { s with network := s.network ++ [s.content], log := s.log ++ [.sent] }
    else none
  | .published =>
    -- a publish that returns was acknowledged by the relay
    if s.stage = .publishing ∧ .sent ∈ s.log then some { s with stage := .awaiting } else none
  | .inject content =>
    -- nobody knows the marker before it is sent
    if .sent ∈ s.log ∨ ¬ Contains s.marker content then
      some { s with network := s.network ++ [content] }
    else none
  | .deliver content =>
    if s.Reading ∧ content ∈ s.network then some (s.hear content) else none
  | .streamEnded => if s.Reading then some (s.setRead (.returned false)) else none
  | .readRaised timeout repr =>
    if s.Reading then some (s.setRead (.raised timeout repr)) else none
  | .readOver clock =>
    if s.stage = .awaiting then (s.afterRead clock).map s.finish else none
  | .readTimedOut =>
    if s.stage = .awaiting ∧ s.readTask = .running then
      some ((s.setRead .cancelled).finish
        (s.report .noReadback none "timed out waiting for read-back"))
    else none
  | .readStopped =>
    match s.stage with
    | .stopping outcome =>
      some ((s.setRead .cancelled).close .reader (.closingReader outcome))
    | _ => none
  | .closed =>
    match s.stage with
    | .closingReader outcome => some (s.close .writer (.closingWriter outcome))
    | .closingWriter outcome => some { s with stage := .ended outcome }
    | _ => none
  | .cancel =>
    match s.stage with
    | .connectingReader | .connectingWriter | .settling | .publishing =>
      some (s.finish .cancelled)
    | .awaiting =>
      -- `wait_for` cancels the task and waits until it is over
      some ((if s.readTask = .running then s.setRead .cancelled else s).finish .cancelled)
    -- the `finally` swallows it
    | .stopping _ => some s
    -- `_safe_close` does not catch it, and the probe ends where it is
    | .closingReader _ | .closingWriter _ => some { s with stage := .ended .cancelled }
    | .ended _ => none

/-- The states that a probe reaches. -/
abbrev Reachable (init : Probe) : Probe → Prop :=
  Transition.Reachable step (fun _ _ => True) init

end Probe

/-- The outcome that a probe has come to. -/
def ProbeStage.outcome : ProbeStage → Option ProbeEnd
  | .stopping outcome | .closingReader outcome | .closingWriter outcome | .ended outcome =>
    some outcome
  | _ => none

end ElectrumClink
