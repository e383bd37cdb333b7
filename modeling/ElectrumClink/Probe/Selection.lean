import ElectrumClink.Data.GrowingList
import ElectrumClink.Probe.Verdict
import ElectrumClink.Protocol.Memo
import ElectrumClink.Relay.Cache

/-!
# Probing the candidates

`select_payable_relay` probes all candidates at the same time, and chooses the first in their order
whose probe passed. `SelectionCall.step` performs what one of the probes does between two awaits.

However the probes get on, the call comes to what `selectPayableRelay` computes from the reports of
runs of `_run_probe` (`selection_refines`), so that what was chosen carried an event back, and what
comes before it in the order did not pass (`selection_verdict`).
-/

namespace ElectrumClink

/-- Where the probe of a candidate is. -/
inductive CandidateStage
  | scheduled
  | probing (probe : Probe)
  /-- It raised before it connected, or was cancelled before it started. -/
  | raised
deriving DecidableEq

/-- A relay that is probed. -/
structure Candidate where
  relay : String
  stage : CandidateStage
deriving DecidableEq

/-- How `select_payable_relay` ends. -/
inductive SelectionEnd
  | returned (sel : RelaySelection)
  /-- It raised an exception, or was cancelled. -/
  | failed
deriving DecidableEq

/-- A call of `select_payable_relay`. -/
structure SelectionCall where
  candidates : List Candidate
  /-- Its cancellation was requested. -/
  cancelling : Bool
  outcome : Option SelectionEnd
deriving DecidableEq

/-- What can happen next. -/
inductive SelectionAction
  /-- A probe starts; it draws a marker and reads the clock. -/
  | probe (i : ℕ) (marker : String) (clock : Time)
  /-- A probe raises before it connects. -/
  | probeRaises (i : ℕ)
  /-- A probe gets on. -/
  | probeStep (i : ℕ) (a : ProbeAction)
  | cancel
  /-- The cancellation reaches a probe. -/
  | cancelProbe (i : ℕ)
  /-- The `gather` is over. -/
  | finish

namespace Candidate

/-- What the probe returned. -/
def result (c : Candidate) : Option ProbeResult :=
  match c.stage with
  | .probing probe =>
    match probe.stage with
    | .ended (.returned result) => some result
    | _ => none
  | _ => none

/-- The probe raised an exception, or was cancelled. -/
def Failed (c : Candidate) : Prop :=
  match c.stage with
  | .raised => True
  | .probing probe => probe.stage = .ended .cancelled
  | .scheduled => False

instance : (c : Candidate) → Decidable c.Failed
  | ⟨_, .raised⟩ => inferInstanceAs (Decidable True)
  | ⟨_, .probing probe⟩ => inferInstanceAs (Decidable (probe.stage = .ended .cancelled))
  | ⟨_, .scheduled⟩ => inferInstanceAs (Decidable False)

/-- The cancellation reaches the probe. -/
def cancelled (c : Candidate) : Option Candidate :=
  match c.stage with
  | .scheduled => some { c with stage := .raised }
  | .probing probe => (probe.step .cancel).map fun probe => { c with stage := .probing probe }
  | .raised => none

end Candidate

namespace SelectionCall

/-- `select_payable_relay`, up to the `gather`. -/
def create (tables : CharTables) (candidates : List String) : SelectionCall :=
  match probedCandidates tables candidates with
  | [] => ⟨[], false, some (.returned ⟨"", false, []⟩)⟩
  | cands => ⟨cands.map fun relay => ⟨relay, .scheduled⟩, false, none⟩

/-- The first candidate. -/
def first (s : SelectionCall) : String := (s.candidates.map Candidate.relay).headD ""

/-- What the probes returned. -/
def results (s : SelectionCall) : List ProbeResult := s.candidates.filterMap Candidate.result

/-- How the `gather` ends, and what is made of it. -/
def gathered (s : SelectionCall) : Option SelectionEnd :=
  if s.candidates.any fun c => c.Failed then some .failed
  else if s.candidates.all fun c => c.result.isSome then
    if s.cancelling then some .failed else some (.returned (selectFrom s.first s.results))
  else none

/-- A probe gets on. -/
def setStage (s : SelectionCall) (i : ℕ) (c : Candidate) (stage : CandidateStage) :
    SelectionCall :=
  { s with candidates := s.candidates.set i { c with stage := stage } }

/-- Perform an action, if it is enabled. -/
def step (s : SelectionCall) : SelectionAction → Option SelectionCall
  | .probe i marker clock =>
    (s.candidates[i]?).bind fun c =>
      if c.stage = .scheduled then
        some (s.setStage i c (.probing (.begin c.relay marker clock)))
      else none
  | .probeRaises i =>
    (s.candidates[i]?).bind fun c =>
      if c.stage = .scheduled then some (s.setStage i c .raised) else none
  | .probeStep i a =>
    (s.candidates[i]?).bind fun c =>
      match c.stage with
      | .probing probe =>
        -- only the call cancels its probes
        if a = .cancel then none
        else (probe.step a).map fun probe => s.setStage i c (.probing probe)
      | _ => none
  | .cancel => if s.outcome.isNone then some { s with cancelling := true } else none
  | .cancelProbe i =>
    (s.candidates[i]?).bind fun c =>
      if s.cancelling then
        c.cancelled.map fun c => { s with candidates := s.candidates.set i c }
      else none
  | .finish =>
    if s.outcome.isNone then
      s.gathered.map fun outcome => { s with outcome := some outcome }
    else none

/-- The states that a call reaches. -/
abbrev Reachable (init : SelectionCall) : SelectionCall → Prop :=
  Transition.Reachable step (fun _ _ => True) init

end SelectionCall

/-! ## What the probes returned -/

/-- A probe that is over stays over. -/
theorem Probe.stage_of_ended {probe probe' : Probe} {a : ProbeAction} {outcome : ProbeEnd}
    (hended : probe.stage = .ended outcome) (h : probe.step a = some probe') :
    probe'.stage = .ended outcome := by
  cases a with
  | inject content =>
    obtain ⟨-, ⟨⟩⟩ := Option.ite_none_right_eq_some.1 h
    exact hended
  | _ => simp [Probe.step, Probe.Reading, hended] at h

namespace Candidate

variable {c c' : Candidate} {r : ProbeResult}

theorem result_eq_some_iff :
    c.result = some r ↔
      ∃ probe, c.stage = .probing probe ∧ probe.stage = .ended (.returned r) := by
  constructor
  · intro h
    unfold result at h
    split at h
    next probe hstage =>
      split at h
      next result hended =>
        obtain rfl := Option.some.inj h
        exact ⟨probe, hstage, hended⟩
      next => cases h
    next => cases h
  · rintro ⟨probe, hstage, hended⟩
    simp only [result, hstage, hended]

/-- What a step may make of a candidate: the relay stays, and so does what is over. -/
structure Follows (c c' : Candidate) : Prop where
  relay : c'.relay = c.relay
  result : ∀ r, c.result = some r → c'.result = some r
  failed : c.Failed → c'.Failed

/-- What has not begun is not over. -/
theorem follows_of_scheduled (hstage : c.stage = .scheduled) (stage : CandidateStage) :
    c.Follows { c with stage := stage } := by
  refine ⟨rfl, fun r hr => ?_, fun hfailed => ?_⟩
  · obtain ⟨probe, hprobing, -⟩ := result_eq_some_iff.1 hr
    cases hstage.symm.trans hprobing
  · simp only [Failed, hstage] at hfailed

theorem follows_of_step {probe probe' : Probe} {a : ProbeAction}
    (hstage : c.stage = .probing probe) (h : probe.step a = some probe') :
    c.Follows { c with stage := .probing probe' } := by
  refine ⟨rfl, fun r hr => ?_, fun hfailed => ?_⟩
  · obtain ⟨probe, hprobing, hended⟩ := result_eq_some_iff.1 hr
    cases hstage.symm.trans hprobing
    exact result_eq_some_iff.2 ⟨probe', rfl, Probe.stage_of_ended hended h⟩
  · simp only [Failed, hstage] at hfailed
    exact Probe.stage_of_ended hfailed h

/-- The probe of a candidate is a run of `_run_probe`. -/
def Probes (c : Candidate) : Prop :=
  ∀ probe, c.stage = .probing probe →
    ∃ marker clock, Probe.Reachable (.begin c.relay marker clock) probe

theorem Probes.step (hc : c.Probes) {probe probe' : Probe} {a : ProbeAction}
    (hstage : c.stage = .probing probe) (h : probe.step a = some probe') :
    ({ c with stage := .probing probe' } : Candidate).Probes := by
  rintro _ ⟨⟩
  obtain ⟨marker, clock, hreachable⟩ := hc probe hstage
  exact ⟨marker, clock, .next hreachable trivial h⟩

/-- What a probe returned it tells of its relay. -/
theorem Probes.told (hc : c.Probes) (hr : c.result = some r) :
    r.relay = c.relay ∧ ∃ marker clock probe, c.stage = .probing probe ∧
      Probe.Reachable (.begin c.relay marker clock) probe ∧
      probe.stage = .ended (.returned r) ∧ probe.Told r := by
  obtain ⟨probe, hstage, hended⟩ := result_eq_some_iff.1 hr
  obtain ⟨marker, clock, hreachable⟩ := hc probe hstage
  have houtcome : probe.stage.outcome = some (.returned r) := by
    rw [hended]
    rfl
  obtain ⟨hrelay, htold⟩ := (Probe.probeInv hreachable).told houtcome
  exact ⟨hrelay.trans (Probe.const_of_reachable hreachable).1,
    marker, clock, probe, hstage, hreachable, hended, htold⟩

end Candidate

/-! ## The invariant -/

namespace SelectionCall

variable {tables : CharTables} {candidates : List String} {s t : SelectionCall}

/-- What every step keeps. -/
structure SelectionInv (tables : CharTables) (candidates : List String) (s : SelectionCall) :
    Prop where
  relays : s.candidates.map Candidate.relay = probedCandidates tables candidates
  probes : ∀ c ∈ s.candidates, c.Probes
  returned : ∀ sel, s.outcome = some (.returned sel) → ∃ results,
    s.candidates.map Candidate.result = results.map some ∧ sel = selectFrom s.first results
  failed : s.outcome = some .failed → s.cancelling = true ∨ ∃ c ∈ s.candidates, c.Failed

/-- A candidate gets on. -/
theorem SelectionInv.set (h : SelectionInv tables candidates s) {i : ℕ} {c c' : Candidate}
    (hc : s.candidates[i]? = some c) (hfollows : c.Follows c') (hprobes : c'.Probes) :
    SelectionInv tables candidates { s with candidates := s.candidates.set i c' } := by
  have hrelays : (s.candidates.set i c').map Candidate.relay =
      s.candidates.map Candidate.relay := GrowingList.map_set_of_eq hc hfollows.relay
  refine ⟨hrelays.trans h.relays, ?_, ?_, ?_⟩
  · intro d hd
    rcases List.mem_or_eq_of_mem_set hd with hold | rfl
    · exact h.probes d hold
    · exact hprobes
  · intro sel hsel
    obtain ⟨results, hresults, rfl⟩ := h.returned sel hsel
    refine ⟨results, ?_, ?_⟩
    · have hmem : c.result ∈ results.map some :=
        hresults ▸ List.mem_map_of_mem (List.mem_of_getElem? hc)
      obtain ⟨r, -, hr⟩ := List.mem_map.1 hmem
      rw [← hresults]
      exact GrowingList.map_set_of_eq hc ((hfollows.result r hr.symm).trans hr)
    · rw [first, first, hrelays]
  · intro hfailed
    refine (h.failed hfailed).imp_right ?_
    rintro ⟨d, hd, hdfailed⟩
    obtain ⟨j, hj⟩ := List.mem_iff_getElem?.1 hd
    by_cases heq : j = i
    · subst heq
      obtain rfl := Option.some.inj (hc.symm.trans hj)
      exact ⟨c', List.mem_of_getElem? (GrowingList.getElem?_set_iff hc |>.2 (.inl ⟨rfl, rfl⟩)),
        hfollows.failed hdfailed⟩
    · exact ⟨d, List.mem_of_getElem? ((GrowingList.getElem?_set_iff hc).2 (.inr ⟨heq, hj⟩)),
        hdfailed⟩

/-- How a `gather` ends. -/
theorem gathered_cases {outcome : SelectionEnd} (h : s.gathered = some outcome) :
    (outcome = .failed ∧ (s.cancelling = true ∨ ∃ c ∈ s.candidates, c.Failed)) ∨
      outcome = .returned (selectFrom s.first s.results) ∧
        s.candidates.map Candidate.result = s.results.map some := by
  unfold gathered at h
  split at h
  next hfailed =>
    obtain ⟨c, hc, hcfailed⟩ := List.any_eq_true.1 hfailed
    exact .inl ⟨(Option.some.inj h).symm, .inr ⟨c, hc, of_decide_eq_true hcfailed⟩⟩
  next =>
    split at h
    next hall =>
      split at h
      next hcancelling => exact .inl ⟨(Option.some.inj h).symm, .inl hcancelling⟩
      next =>
        refine .inr ⟨(Option.some.inj h).symm, ?_⟩
        have hsome : ∀ r ∈ s.candidates.map Candidate.result, r.isSome = true := by
          intro r hr
          obtain ⟨c, hc, rfl⟩ := List.mem_map.1 hr
          exact List.all_eq_true.1 hall c hc
        rw [results, List.map_filterMap_some_eq_filter_map_isSome, List.filter_eq_self.2 hsome]
    next => cases h

theorem selectionInv_create : SelectionInv tables candidates (create tables candidates) := by
  unfold create
  split
  next hnone => exact ⟨hnone.symm, by simp, fun sel hsel => ⟨[], rfl, by cases hsel; rfl⟩, by simp⟩
  next cands hcands =>
    refine ⟨?_, ?_, by rintro _ ⟨⟩, by rintro ⟨⟩⟩
    · rw [List.map_map]
      exact List.map_id _
    · intro c hc probe hstage
      obtain ⟨relay, -, rfl⟩ := List.mem_map.1 hc
      cases hstage

theorem selectionInv_step {a : SelectionAction} (h : SelectionInv tables candidates s)
    (hstep : s.step a = some t) : SelectionInv tables candidates t := by
  cases a with
  | probe i marker clock =>
    obtain ⟨c, hc, hbegins⟩ := Option.bind_eq_some_iff.1 hstep
    obtain ⟨hstage, ⟨⟩⟩ := Option.ite_none_right_eq_some.1 hbegins
    refine h.set hc (Candidate.follows_of_scheduled hstage _) ?_
    rintro _ ⟨⟩
    exact ⟨marker, clock, .init⟩
  | probeRaises i =>
    obtain ⟨c, hc, hbegins⟩ := Option.bind_eq_some_iff.1 hstep
    obtain ⟨hstage, ⟨⟩⟩ := Option.ite_none_right_eq_some.1 hbegins
    exact h.set hc (Candidate.follows_of_scheduled hstage _) (by rintro _ ⟨⟩)
  | probeStep i a =>
    obtain ⟨c, hc, hstage⟩ := Option.bind_eq_some_iff.1 hstep
    have hprobes := h.probes c (List.mem_of_getElem? hc)
    split at hstage
    next probe hprobing =>
      obtain ⟨-, hmap⟩ := Option.ite_none_left_eq_some.1 hstage
      obtain ⟨probe', hprobe, rfl⟩ := Option.map_eq_some_iff.1 hmap
      -- the run of the probe gets one step further
      exact h.set hc (Candidate.follows_of_step hprobing hprobe) (hprobes.step hprobing hprobe)
    next => cases hstage
  | cancel =>
    obtain ⟨hrunning, ⟨⟩⟩ := Option.ite_none_right_eq_some.1 hstep
    exact ⟨h.relays, h.probes, h.returned, fun _ => .inl rfl⟩
  | cancelProbe i =>
    obtain ⟨c, hc, hcancelled⟩ := Option.bind_eq_some_iff.1 hstep
    have hprobes := h.probes c (List.mem_of_getElem? hc)
    obtain ⟨-, hmap⟩ := Option.ite_none_right_eq_some.1 hcancelled
    obtain ⟨c', hc', rfl⟩ := Option.map_eq_some_iff.1 hmap
    -- a probe that has not started is over at once, one that runs is told
    unfold Candidate.cancelled at hc'
    split at hc'
    next hstage =>
      obtain rfl := Option.some.inj hc'
      exact h.set hc (Candidate.follows_of_scheduled hstage _) (by rintro _ ⟨⟩)
    next probe hprobing =>
      obtain ⟨probe', hprobe, rfl⟩ := Option.map_eq_some_iff.1 hc'
      exact h.set hc (Candidate.follows_of_step hprobing hprobe) (hprobes.step hprobing hprobe)
    next => cases hc'
  | finish =>
    obtain ⟨-, hmap⟩ := Option.ite_none_right_eq_some.1 hstep
    obtain ⟨outcome, houtcome, rfl⟩ := Option.map_eq_some_iff.1 hmap
    -- what the `gather` came to is what the call returns or raises
    refine ⟨h.relays, h.probes, ?_, ?_⟩
    · rintro sel hsel
      obtain ⟨rfl, -⟩ | ⟨rfl, hresults⟩ := gathered_cases houtcome
      · cases hsel
      · cases hsel
        exact ⟨s.results, hresults, rfl⟩
    · intro hfailed
      obtain ⟨-, hwhy⟩ | ⟨rfl, -⟩ := gathered_cases houtcome
      · exact hwhy
      · cases hfailed

theorem selectionInv (h : Reachable (create tables candidates) s) :
    SelectionInv tables candidates s :=
  h.invariant selectionInv_create fun _ _ _ hinv _ hstep => selectionInv_step hinv hstep

/-! ## The plain selection -/

end SelectionCall

/-- What the probe of a candidate came to, as the plain selection takes it. -/
def Candidate.report (c : Candidate) : Option ProbeReport :=
  c.result.map fun r => ⟨r.status, r.rttMs, r.detail⟩

theorem Candidate.result_of_failed {c : Candidate} (h : c.Failed) : c.result = none := by
  rw [Option.eq_none_iff_forall_ne_some]
  intro r hr
  obtain ⟨probe, hstage, hended⟩ := Candidate.result_eq_some_iff.1 hr
  simp only [Candidate.Failed, hstage, hended] at h
  cases h

section Gather

variable {probes : Probes} {cands : List Candidate} {i : ℕ}

/-- Where all probes returned, so does the plain `gather`. -/
theorem gatherProbes_eq_ok {results : List ProbeResult}
    (hprobes : ∀ j c, cands[j]? = some c → probes (i + j) c.relay = c.report)
    (hrelay : ∀ c ∈ cands, ∀ r, c.result = some r → r.relay = c.relay)
    (hresults : cands.map Candidate.result = results.map some) :
    gatherProbes probes i (cands.map Candidate.relay) = .ok results := by
  induction cands generalizing i results with
  | nil =>
    obtain rfl := List.map_eq_nil_iff.1 hresults.symm
    rfl
  | cons c cands ih =>
    cases results with
    | nil => cases hresults
    | cons r results =>
      obtain ⟨hr, hrest⟩ := List.cons.inj hresults
      have hreport : probes i c.relay = some ⟨r.status, r.rttMs, r.detail⟩ := by
        rw [← Nat.add_zero i, hprobes 0 c rfl, Candidate.report, hr]
        rfl
      have hgather : gatherProbes probes (i + 1) (cands.map Candidate.relay) = .ok results :=
        ih (fun j d hd => by rw [← hprobes (j + 1) d hd, Nat.add_right_comm, Nat.add_assoc])
          (fun d hd => hrelay d (List.mem_cons_of_mem c hd)) hrest
      rw [List.map_cons, gatherProbes, hgather, probeRelayPayable, hreport,
        ← hrelay c List.mem_cons_self r hr]
      rfl

/-- Where one did not, the plain `gather` raises. -/
theorem gatherProbes_eq_error
    (hprobes : ∀ j c, cands[j]? = some c → probes (i + j) c.relay = c.report)
    (hnone : ∃ c ∈ cands, c.result = none) :
    gatherProbes probes i (cands.map Candidate.relay) = .error .probe := by
  induction cands generalizing i with
  | nil =>
    obtain ⟨c, hc, -⟩ := hnone
    cases hc
  | cons c cands ih =>
    have hreport : probes i c.relay = c.report := by
      rw [← Nat.add_zero i, hprobes 0 c rfl]
    rw [List.map_cons, gatherProbes, probeRelayPayable, hreport, Candidate.report]
    cases hr : c.result with
    | none => rfl
    | some r =>
      obtain ⟨d, hd, hdnone⟩ := hnone
      have hrest : d ∈ cands := by
        rcases List.mem_cons.1 hd with rfl | hrest
        · cases hr.symm.trans hdnone
        · exact hrest
      have hgather := ih (i := i + 1)
        (fun j e he => by rw [← hprobes (j + 1) e he, Nat.add_right_comm, Nat.add_assoc])
        ⟨d, hrest, hdnone⟩
      rw [hgather]
      rfl

end Gather

namespace SelectionCall

variable {tables : CharTables} {candidates : List String} {s : SelectionCall}
  {sel : RelaySelection}

/-- What the probes of a call came to. -/
def probes (s : SelectionCall) : Probes := fun i _ => (s.candidates[i]?).bind Candidate.report

theorem probes_eq (i : ℕ) (c : Candidate) (hc : s.candidates[i]? = some c) :
    s.probes (0 + i) c.relay = c.report := by
  rw [Nat.zero_add, probes, hc]
  rfl

theorem selectPayableRelay_eq (tables : CharTables) (candidates : List String) (probes : Probes) :
    selectPayableRelay tables candidates probes =
      (gatherProbes probes 0 (probedCandidates tables candidates)).map
        (selectFrom ((probedCandidates tables candidates).headD "")) := by
  unfold selectPayableRelay
  cases probedCandidates tables candidates <;> rfl

/-- The first relay is blank, the second cannot be reached; the probe of the third, which got on
meanwhile, passes. -/
def sampleCandidates : List String := [" ", "wss://q.example ", "wss://r.example"]

def sampleActions : List SelectionAction :=
  [.probe 1 "5f" 0] ++ Probe.sampleActions.map (.probeStep 1) ++
    [.probe 0 "6a" 0, .probeStep 0 .connectTimedOut, .probeStep 0 .closed, .probeStep 0 .closed,
      .finish]

def sampleSelection : RelaySelection :=
  ⟨"wss://r.example", true, [⟨"wss://q.example", .unreachable, none, "connect timed out"⟩,
    ⟨"wss://r.example", .ok, some 1000, ""⟩]⟩

theorem exists_selected_sample : ∃ s, Reachable (create .ascii sampleCandidates) s ∧
    s.outcome = some (.returned sampleSelection) := by
  have hrun : (Transition.exec step (create .ascii sampleCandidates) sampleActions).any
      (fun s => decide (s.outcome = some (.returned sampleSelection))) = true := by decide +kernel
  obtain ⟨s, hs, houtcome⟩ := Transition.exists_reachable_of_exec hrun
  exact ⟨s, hs, of_decide_eq_true houtcome⟩

/-- Refinement: however its probes get on, a call of `select_payable_relay` comes to what the plain
selection makes of their reports, each of which is that of a run of `_run_probe` with its candidate;
and where it fails without being cancelled, the plain one raises. -/
theorem selection_refines (h : Reachable (create tables candidates) s) :
    (∀ sel, s.outcome = some (.returned sel) →
      selectPayableRelay tables candidates s.probes = .ok sel) ∧
    (s.outcome = some .failed → s.cancelling = true ∨
      selectPayableRelay tables candidates s.probes = .error .probe) ∧
    ∀ i relay report, (probedCandidates tables candidates)[i]? = some relay →
      s.probes i relay = some report →
        ∃ marker clock probe, Probe.Reachable (.begin relay marker clock) probe ∧
          probe.stage =
            .ended (.returned ⟨relay, report.status, report.rttMs, report.detail⟩) := by
  have hinv := selectionInv h
  have hrelay : ∀ c ∈ s.candidates, ∀ r, c.result = some r → r.relay = c.relay :=
    fun c hc r hr => ((hinv.probes c hc).told hr).1
  refine ⟨?_, ?_, ?_⟩
  · intro sel hsel
    obtain ⟨results, hresults, rfl⟩ := hinv.returned sel hsel
    rw [selectPayableRelay_eq, first, ← hinv.relays, gatherProbes_eq_ok probes_eq hrelay hresults]
    rfl
  · intro hfailed
    refine (hinv.failed hfailed).imp_right ?_
    rintro ⟨c, hc, hcfailed⟩
    rw [selectPayableRelay_eq, ← hinv.relays,
      gatherProbes_eq_error probes_eq ⟨c, hc, Candidate.result_of_failed hcfailed⟩]
    rfl
  · intro i relay report hi hreport
    obtain ⟨c, hc, hcreport⟩ := Option.bind_eq_some_iff.1 hreport
    obtain ⟨r, hr, rfl⟩ := Option.map_eq_some_iff.1 hcreport
    rw [← hinv.relays, List.getElem?_map, hc] at hi
    obtain rfl := Option.some.inj hi
    obtain ⟨hrelay, marker, clock, probe, -, hreachable, hended, -⟩ :=
      (hinv.probes c (List.mem_of_getElem? hc)).told hr
    rw [← hrelay]
    exact ⟨marker, clock, probe, hrelay ▸ hreachable, hended⟩

/-- The selection of the sample is a plain one. -/
theorem selection_refines_sample :
    ∃ probes, selectPayableRelay .ascii sampleCandidates probes = .ok sampleSelection := by
  obtain ⟨s, hs, houtcome⟩ := exists_selected_sample
  exact ⟨s.probes, (selection_refines hs).1 sampleSelection houtcome⟩

end SelectionCall

end ElectrumClink
