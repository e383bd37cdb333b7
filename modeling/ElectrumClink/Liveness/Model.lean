import ElectrumClink.Data.GrowingList
import ElectrumClink.Offers.Relays
import ElectrumClink.Probe.Model

/-!
# The liveness monitor

`RelayLivenessMonitor` probes the relays that the noffers of existing offers advertise, and a relay
that fails once more after a while. Its runs come from the hourly tick and on demand, and may
overlap; the relays of one run are probed at the same time.

`Liveness.step` performs what a run, or one of its children, does between two awaits; a child that
probes performs the steps of its `Probe`.
-/

namespace ElectrumClink

/-- Latest liveness verdict for one advertised relay. -/
structure LivenessResult where
  relay : String
  ok : Bool
  status : ProbeStatus
  detail : String
  rttMs : Option ℤ
  checkedAt : Time
  retried : Bool
deriving DecidableEq

/-- How long after a failed probe the relay is probed again. -/
def retryDelaySec : Time := 60

/-- `_distinct`. -/
def distinct (tables : CharTables) (relays : List String) : List String :=
  relays.foldl
    (fun out url =>
      let url := tables.stripText url
      if url ≠ "" ∧ url ∉ out then out ++ [url] else out) []

/-- Where a `_check_one` is. -/
inductive RelayCheckOneStage
  /-- Its task has not started. -/
  | scheduled
  /-- It probes, for the second time if it retried. -/
  | probing (retried : Bool) (probe : Probe)
  /-- It sleeps, after a probe that failed. -/
  | sleeping (wakeAt : Time)
  | returned (result : LivenessResult)
  | raised
  | cancelled
deriving DecidableEq

/-- A probe that is over, with the times on the clock of the loop between which it ran. -/
structure ProbeRecord where
  began : Time
  ended : Time
  probe : Probe
deriving DecidableEq

/-- A call of `_check_one`. -/
structure RelayCheckOne where
  relay : String
  stage : RelayCheckOneStage
  /-- When its last probe began; no step reads this, nor the next. -/
  began : Time
  /-- Its probes that are over. -/
  probes : List ProbeRecord
deriving DecidableEq

/-- How `run_once` ends. -/
inductive RunOnceEnd
  | returned
  /-- It raised an exception, or was cancelled. -/
  | failed
deriving DecidableEq

/-- A call of `run_once`. -/
structure RunOnce where
  /-- What it was called with; no step reads it. -/
  relays : List String
  /-- The children of the `gather`. -/
  children : List RelayCheckOne
  retryDelay : Time
  /-- Its cancellation was requested. -/
  cancelling : Bool
  outcome : Option RunOnceEnd
deriving DecidableEq

/-- A liveness monitor. -/
structure Liveness where
  /-- The clock of the loop. -/
  now : Time
  retryDelay : Time
  /-- Latest result per relay. -/
  results : Dict String LivenessResult
  runs : List RunOnce
  /-- The runs that returned, in this order; no step reads it. -/
  finished : List ℕ

/-- What can happen next. -/
inductive LivenessAction
  | advance (t : Time)
  /-- `run_once` is called. -/
  | runOnce (relays : List String) (retryDelay : Option Time)
  /-- A child probes its relay; the probe draws a marker and reads the clock. -/
  | probe (run child : ℕ) (marker : String) (clock : Time)
  /-- The probe of a child raises before it connects. -/
  | probeRaises (run child : ℕ)
  /-- The probe of a child gets on; if that ends it, the child reads the clock. -/
  | probeStep (run child : ℕ) (a : ProbeAction) (clock : Time)
  /-- A run is cancelled by its caller. -/
  | cancel (run : ℕ)
  /-- The cancellation of a run reaches a child. -/
  | cancelChild (run child : ℕ) (clock : Time)
  /-- The `gather` of a run is over. -/
  | finish (run : ℕ)

namespace RelayCheckOneStage

/-- What a child returned. -/
def result : RelayCheckOneStage → Option LivenessResult
  | .returned result => some result
  | _ => none

/-- A child raised, or was cancelled. -/
def Failed : RelayCheckOneStage → Prop
  | .raised | .cancelled => True
  | _ => False

instance : (stage : RelayCheckOneStage) → Decidable stage.Failed
  | .raised | .cancelled => inferInstanceAs (Decidable True)
  | .scheduled | .probing _ _ | .sleeping _ | .returned _ => inferInstanceAs (Decidable False)

/-- What a child does next is probe: it starts, or it slept long enough. -/
def nextProbe (now : Time) : RelayCheckOneStage → Option Bool
  | .scheduled => some false
  | .sleeping wakeAt => if wakeAt ≤ now then some true else none
  | _ => none

end RelayCheckOneStage

/-- The verdict over the result of a probe. -/
def livenessResult (relay : String) (result : ProbeResult) (checkedAt : Time) (retried : Bool) :
    LivenessResult :=
  ⟨relay, result.ok, result.status, result.detail, result.rttMs, checkedAt, retried⟩

namespace RelayCheckOne

/-- `_check_one`, from the end of a probe on. -/
def afterProbe (c : RelayCheckOne) (now delay clock : Time) (retried : Bool) :
    ProbeEnd → RelayCheckOneStage
  | .cancelled => .cancelled
  | .returned result =>
    if result.ok ∨ retried then .returned (livenessResult c.relay result clock retried)
    else .sleeping (now + delay)

/-- The probe of a child got on. -/
def proceed (c : RelayCheckOne) (now delay clock : Time) (retried : Bool) (probe : Probe) :
    RelayCheckOne :=
  match probe.stage with
  | .ended outcome =>
    { c with
      stage := c.afterProbe now delay clock retried outcome
      probes := c.probes ++ [⟨c.began, now, probe⟩] }
  | _ => { c with stage := .probing retried probe }

/-- A cancellation reaches a child. -/
def cancelled (c : RelayCheckOne) (now delay clock : Time) : Option RelayCheckOne :=
  match c.stage with
  | .scheduled | .sleeping _ => some { c with stage := .cancelled }
  | .probing retried probe =>
    (probe.step .cancel).map fun probe => c.proceed now delay clock retried probe
  | _ => none

end RelayCheckOne

namespace RunOnce

/-- `run_once`, up to the `gather`. -/
def create (tables : CharTables) (now : Time) (relays : List String) (retryDelay : Time) :
    RunOnce :=
  ⟨relays, (distinct tables relays).map fun relay => ⟨relay, .scheduled, now, []⟩, retryDelay,
    false, none⟩

/-- How the `gather` ends: with the first child that failed, or when all have returned. -/
def gathered (run : RunOnce) : Option RunOnceEnd :=
  if run.children.any fun c => c.stage.Failed then some .failed
  else if run.children.all fun c => c.stage.result.isSome then
    if run.cancelling then some .failed else some .returned
  else none

/-- What the children returned. -/
def checked (run : RunOnce) : List LivenessResult := run.children.filterMap fun c => c.stage.result

/-- The results by relay. -/
def table (run : RunOnce) : Dict String LivenessResult :=
  run.checked.foldl (fun results res => results.set res.relay res) ∅

end RunOnce

namespace Liveness

/-- A new monitor. -/
def start (now retryDelay : Time) : Liveness := ⟨now, retryDelay, ∅, [], []⟩

/-- `down_relays`. -/
def downRelays (s : Liveness) : List LivenessResult :=
  (s.results.entries.map Prod.snd).filter fun r => !r.ok

/-- A child of a run, with that run. -/
def child? (s : Liveness) (i j : ℕ) : Option (RunOnce × RelayCheckOne) :=
  (s.runs[i]?).bind fun run => (run.children[j]?).map fun child => (run, child)

/-- A child of a run gets on. -/
def setChild (s : Liveness) (i j : ℕ) (run : RunOnce) (child : RelayCheckOne) : Liveness :=
  { s with runs := s.runs.set i { run with children := run.children.set j child } }

/-- The end of `run_once`. -/
def finishRun (s : Liveness) (i : ℕ) (run : RunOnce) (outcome : RunOnceEnd) : Liveness :=
  let s := { s with runs := s.runs.set i { run with outcome := some outcome } }
  match outcome with
  | .returned => { s with results := run.table, finished := s.finished ++ [i] }
  | .failed => s

/-- Perform an action, if it is enabled. -/
def step (tables : CharTables) (s : Liveness) : LivenessAction → Option Liveness
  | .advance t => if s.now ≤ t then some { s with now := t } else none
  | .runOnce relays retryDelay =>
    some { s with
      runs := s.runs ++ [.create tables s.now relays (retryDelay.getD s.retryDelay)] }
  | .probe i j marker clock =>
    (s.child? i j).bind fun (run, child) =>
      (child.stage.nextProbe s.now).map fun retried =>
        s.setChild i j run { child with
          stage := .probing retried (.begin child.relay marker clock), began := s.now }
  | .probeRaises i j =>
    (s.child? i j).bind fun (run, child) =>
      (child.stage.nextProbe s.now).map fun _ =>
        s.setChild i j run { child with stage := .raised }
  | .probeStep i j a clock =>
    (s.child? i j).bind fun (run, child) =>
      match child.stage with
      | .probing retried probe =>
        -- only a run cancels the probes of its children
        if a = .cancel then none
        else
          (probe.step a).map fun probe =>
            s.setChild i j run (child.proceed s.now run.retryDelay clock retried probe)
      | _ => none
  | .cancel i =>
    (s.runs[i]?).bind fun run =>
      if run.outcome.isNone then
        some { s with runs := s.runs.set i { run with cancelling := true } }
      else none
  | .cancelChild i j clock =>
    (s.child? i j).bind fun (run, child) =>
      if run.cancelling then
        (child.cancelled s.now run.retryDelay clock).map (s.setChild i j run)
      else none
  | .finish i =>
    (s.runs[i]?).bind fun run =>
      if run.outcome.isNone then run.gathered.map (s.finishRun i run) else none

/-- The states that a monitor reaches. -/
abbrev Reachable (tables : CharTables) (init : Liveness) : Liveness → Prop :=
  Transition.Reachable (step tables) (fun _ _ => True) init

/-- `check_relay_liveness`: a run over what the offers advertise. -/
def checkRelayLiveness (tables : CharTables) (offers : List Offer) (effectiveRelay : String)
    (retryDelay : Option Time) : LivenessAction :=
  .runOnce (advertisedRelays tables offers effectiveRelay) retryDelay

end Liveness

end ElectrumClink
