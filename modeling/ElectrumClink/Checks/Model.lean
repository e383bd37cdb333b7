import ElectrumClink.Data.Transition
import ElectrumClink.Offers.Store

/-!
# Checks of noffers

`check_offers` self-tests the offers that it is asked for: it starts a task of `_run_offer_checks`,
which gathers a check of each of them, and awaits it. While that task is not over a further call
awaits it too, whatever offers the call asks for.

`OfferChecks.step` performs what one of these tasks, or a call, does between two awaits.
-/

namespace ElectrumClink

/-- Outcome of one noffer round-trip self-test. -/
inductive CheckStatus
  | ok
  | listenerError
  | unreachable
  | publishFailed
  | noResponse
  | badResponse
  | invalidNoffer
  | error
deriving DecidableEq

/-- Result of self-testing one noffer. -/
structure CheckResult where
  noffer : String
  status : CheckStatus
  detail : String := ""
  rttMs : Option ℤ := none
  errorCode : Option ℤ := none
  /-- Stamped by the caller of `check_noffer`. -/
  checkedAt : Time := 0
deriving DecidableEq

/-- The offers that are asked for: all of them, or those with the given ids. -/
def Requested : Option (List String) → Offer → Prop
  | none, _ => True
  | some offerIds, offer => offer.offerId ∈ offerIds

instance : (offerIds : Option (List String)) → (offer : Offer) →
    Decidable (Requested offerIds offer)
  | none, _ => inferInstanceAs (Decidable True)
  | some offerIds, offer => inferInstanceAs (Decidable (offer.offerId ∈ offerIds))

/-- What `check_noffers` of the plugin asks for, with the offer of its caller. -/
def checkNoffersIds (offerId : Option String) : Option (List String) :=
  (offerId.filter (· ≠ "")).map fun offerId => [offerId]

/-- Where a `check_one` is. -/
inductive CheckOne
  /-- Its task has not started. -/
  | waiting
  /-- It awaits `check_noffer`. -/
  | probing
  | returned
  | raised
deriving DecidableEq

/-- Where a `_run_offer_checks` is. -/
inductive RunStage
  /-- Its task has not started. -/
  | scheduled
  /-- It awaits the `gather`. -/
  | gathering
  | returned
  | raised
deriving DecidableEq

/-- A task of `_run_offer_checks`. -/
structure CheckRun where
  offerIds : Option (List String)
  stage : RunStage
  /-- The children of the `gather`. -/
  checks : List (Offer × CheckOne)
  results : Dict String CheckResult
  /-- How many probes there had been when the task was created; no step reads it. -/
  since : ℕ

/-- A call of `check_offers`. -/
structure CheckCall where
  offerIds : Option (List String)
  /-- The run whose task it awaits, and whether it created that task. -/
  run : ℕ
  own : Bool
  /-- What it returned, or that it raised. -/
  outcome : Option (Except Unit (Dict String CheckResult))

/-- The checks of a server. -/
structure OfferChecks where
  /-- `_check_task`. -/
  checkTask : Option ℕ
  runs : List CheckRun
  calls : List CheckCall
  checkResults : Dict String CheckResult
  /-- Which run probed which offer, in this order; no step reads it. -/
  probes : List (ℕ × String)

/-- What can happen next. -/
inductive CheckAction
  /-- `check_offers` is called. -/
  | call (offerIds : Option (List String))
  /-- The task of a run starts. -/
  | startRun (run : ℕ)
  /-- The task of a child starts. -/
  | startCheck (run child : ℕ)
  /-- `check_noffer` returned, or something in `check_one` raised. -/
  | endCheck (run child : ℕ) (now : Time) (result : Option CheckResult)
  /-- The `gather` of a run is over. -/
  | endRun (run : ℕ)
  /-- The task that a call awaits is over. -/
  | wake (call : ℕ)

namespace CheckRun

/-- The task of `_run_offer_checks`. -/
def create (offerIds : Option (List String)) (since : ℕ) : CheckRun :=
  ⟨offerIds, .scheduled, [], ∅, since⟩

/-- What the task ended with, if it is over. -/
def outcome (run : CheckRun) : Option (Except Unit (Dict String CheckResult)) :=
  match run.stage with
  | .scheduled | .gathering => none
  | .returned => some (.ok run.results)
  | .raised => some (.error ())

/-- `_run_offer_checks`, up to the `gather`. -/
def start (offers : SavedOffers) (run : CheckRun) : CheckRun :=
  { run with
    stage := .gathering
    checks := (offers.list.filter fun o => Requested run.offerIds o).map fun o => (o, .waiting) }

/-- A child of the `gather` gets on. -/
def setCheck (run : CheckRun) (child : ℕ) (offer : Offer) (check : CheckOne) : CheckRun :=
  { run with checks := run.checks.set child (offer, check) }

/-- How the `gather` ends: with the first exception, or when all children have returned. The loop
starts the children before it gets to an exception of one of them. -/
def gathered (run : CheckRun) : Option RunStage :=
  if run.checks.any fun c => c.2 = .waiting then none
  else if run.checks.any fun c => c.2 = .raised then some .raised
  else if run.checks.all fun c => c.2 = .returned then some .returned
  else none

end CheckRun

namespace OfferChecks

/-- A server that has not checked anything. -/
def init : OfferChecks := ⟨none, [], [], ∅, []⟩

/-- The run of `_check_task`, unless it is over. -/
def inFlight (s : OfferChecks) : Option ℕ :=
  s.checkTask.filter fun r => (s.runs[r]?).any fun run => run.outcome.isNone

/-- `check_offers`, up to its await. -/
def checkOffers (s : OfferChecks) (offerIds : Option (List String)) : OfferChecks :=
  match s.inFlight with
  -- the run is not asked what it covers
  | some r => { s with calls := s.calls ++ [⟨offerIds, r, false, none⟩] }
  | none =>
    { s with
      checkTask := some s.runs.length
      runs := s.runs ++ [.create offerIds s.probes.length]
      calls := s.calls ++ [⟨offerIds, s.runs.length, true, none⟩] }

def setRun (s : OfferChecks) (r : ℕ) (run : CheckRun) : OfferChecks :=
  { s with runs := s.runs.set r run }

/-- A child of the `gather` of a run, with that run. -/
def child? (s : OfferChecks) (r i : ℕ) : Option (CheckRun × Offer × CheckOne) :=
  (s.runs[r]?).bind fun run => (run.checks[i]?).map fun c => (run, c)

/-- The start of `check_one`. -/
def startCheck (s : OfferChecks) (r i : ℕ) (run : CheckRun) (offer : Offer) : OfferChecks :=
  { s.setRun r (run.setCheck i offer .probing) with probes := s.probes ++ [(r, offer.offerId)] }

/-- The end of `check_one`. -/
def endCheck (s : OfferChecks) (r i : ℕ) (run : CheckRun) (offer : Offer) (now : Time) :
    Option CheckResult → OfferChecks
  | none => s.setRun r (run.setCheck i offer .raised)
  | some result =>
    let result := { result with checkedAt := now }
    { s.setRun r { run.setCheck i offer .returned with
        results := run.results.set offer.offerId result } with
      checkResults := s.checkResults.set offer.offerId result }

/-- The end of `_run_offer_checks`: when it returns, it drops the cached results of offers that were
removed. -/
def endRun (offers : SavedOffers) (s : OfferChecks) (r : ℕ) (run : CheckRun) (stage : RunStage) :
    OfferChecks :=
  { s.setRun r { run with stage := stage } with
    checkResults :=
      if stage = .returned then
        s.checkResults.filter fun id _ => id ∈ offers.list.map Offer.offerId
      else s.checkResults }

/-- The end of `check_offers`. -/
def endCall (s : OfferChecks) (c : ℕ) (call : CheckCall)
    (outcome : Except Unit (Dict String CheckResult)) : OfferChecks :=
  { s with
    checkTask := if call.own ∧ s.checkTask = some call.run then none else s.checkTask
    calls := s.calls.set c { call with outcome := some outcome } }

/-- Perform an action, if it is enabled. The offers do not change. -/
def step (offers : SavedOffers) (s : OfferChecks) : CheckAction → Option OfferChecks
  | .call offerIds => some (s.checkOffers offerIds)
  | .startRun r =>
    (s.runs[r]?).bind fun run =>
      if run.stage = .scheduled then some (s.setRun r (run.start offers)) else none
  | .startCheck r i =>
    (s.child? r i).bind fun (run, offer, check) =>
      if check = .waiting then some (s.startCheck r i run offer) else none
  | .endCheck r i now result =>
    (s.child? r i).bind fun (run, offer, check) =>
      if check = .probing then some (s.endCheck r i run offer now result) else none
  | .endRun r =>
    (s.runs[r]?).bind fun run =>
      if run.stage = .gathering then run.gathered.map (s.endRun offers r run) else none
  | .wake c =>
    (s.calls[c]?).bind fun call =>
      if call.outcome.isNone then
        ((s.runs[call.run]?).bind CheckRun.outcome).map (s.endCall c call)
      else none

/-- The states that a run of actions that meet `P` reaches. -/
abbrev Reachable (offers : SavedOffers) (P : OfferChecks → CheckAction → Prop)
    (init : OfferChecks) : OfferChecks → Prop :=
  Transition.Reachable (step offers) P init

end OfferChecks

end ElectrumClink
