import ElectrumClink.Liveness.Model
import ElectrumClink.Probe.Verdict
import ElectrumClink.Protocol.Memo

/-!
# What the liveness monitor reports

The results of a monitor are those of the run that returned last (`results_of_last_run`): runs that
overlap, fail or are cancelled leave no trace of their own. A relay is reported down only after two
probes of that run failed, far enough apart, and payable only if one of them read its event back
(`down_relays_confirmed`).
-/

namespace ElectrumClink

open Distinct

variable {tables : CharTables}

theorem distinct_eq (tables : CharTables) (relays : List String) :
    distinct tables relays = collect (· ≠ "") tables.stripText relays := by
  unfold distinct collect insertNew
  rfl

/-- What is probed is what is left of the relays once they are stripped. -/
theorem mem_distinct {relays : List String} {url : String} :
    url ∈ distinct tables relays ↔ url ≠ "" ∧ ∃ u ∈ relays, url = tables.stripText u := by
  rw [distinct_eq, mem_collect]

/-- The relays that are probed are distinct, none blank or with whitespace around it. -/
theorem cleanRelays_distinct (tables : CharTables) (relays : List String) :
    CleanRelays tables (distinct tables relays) where
  nodup := by
    rw [distinct_eq]
    exact nodup_collect relays
  stripped url h := by
    obtain ⟨-, u, -, rfl⟩ := mem_distinct.1 h
    exact tables.stripText_stripText u
  ne_empty _ h := (mem_distinct.1 h).1

/-- Clean relays are probed as they are. -/
theorem CleanRelays.distinct_eq_self {relays : List String} (h : CleanRelays tables relays) :
    distinct tables relays = relays := by
  rw [distinct_eq]
  exact collect_eq_self h.ne_empty h.stripped h.nodup

namespace Liveness

variable {s t : Liveness} {c c' : RelayCheckOne} {run run' : RunOnce} {delay now clock : Time}
  {relay : String} {i j : ℕ}

/-- A probe of a relay was over with a result. -/
structure Reports (record : ProbeRecord) (relay : String) (result : ProbeResult) : Prop where
  reachable : ∃ marker clock, Probe.Reachable (.begin relay marker clock) record.probe
  ended : record.probe.stage = .ended (.returned result)

/-- What a verdict over a relay rests on: a probe that passed, or two of which the first failed, the
second begun no sooner than the delay after the end of the first. -/
inductive Vouched (delay : Time) (relay : String) : List ProbeRecord → LivenessResult → Prop
  | passed (record : ProbeRecord) (result : ProbeResult) (checkedAt : Time)
      (hreports : Reports record relay result) (hok : result.ok = true) :
      Vouched delay relay [record] (livenessResult relay result checkedAt false)
  | retried (first second : ProbeRecord) (failure result : ProbeResult) (checkedAt : Time)
      (hfirst : Reports first relay failure) (hfailed : failure.ok = false)
      (hsecond : Reports second relay result) (hdelay : first.ended + delay ≤ second.began) :
      Vouched delay relay [first, second] (livenessResult relay result checkedAt true)

/-- A child whose probe failed may probe again at a time. -/
def Waited (delay : Time) (c : RelayCheckOne) (time : Time) : Prop :=
  ∃ first failure, c.probes = [first] ∧ Reports first c.relay failure ∧ failure.ok = false ∧
    first.ended + delay ≤ time

/-- What is known of a child. -/
def ChildInv (delay : Time) (c : RelayCheckOne) : Prop :=
  match c.stage with
  | .scheduled => c.probes = []
  | .probing false probe =>
    c.probes = [] ∧ ∃ marker clock, Probe.Reachable (.begin c.relay marker clock) probe
  | .probing true probe =>
    Waited delay c c.began ∧ ∃ marker clock, Probe.Reachable (.begin c.relay marker clock) probe
  | .sleeping wakeAt => Waited delay c wakeAt
  | .returned result => Vouched delay c.relay c.probes result
  | .raised | .cancelled => True

/-- What is known of a run. -/
structure RunInv (tables : CharTables) (run : RunOnce) : Prop where
  relays : run.children.map RelayCheckOne.relay = distinct tables run.relays
  children : ∀ c ∈ run.children, ChildInv run.retryDelay c
  allReturned : run.outcome = some .returned → ∀ c ∈ run.children, c.stage.result.isSome = true

/-- What every step of a monitor keeps. -/
structure LivenessInv (tables : CharTables) (s : Liveness) : Prop where
  runs : ∀ (i : ℕ) (run : RunOnce), s.runs[i]? = some run → RunInv tables run
  mem_finished : ∀ i, i ∈ s.finished ↔
    ∃ run, s.runs[i]? = some run ∧ run.outcome = some .returned
  results : s.finished = [] ∧ s.results = ∅ ∨ ∃ i run, s.finished.getLast? = some i ∧
    s.runs[i]? = some run ∧ run.outcome = some .returned ∧ s.results = run.table

/-! ## The children -/

/-- The probe of a child got on: it still probes, or its probe is recorded. -/
theorem childInv_proceed {retried : Bool} {probe probe' : Probe} {a : ProbeAction}
    (hc : ChildInv delay c) (hstage : c.stage = .probing retried probe)
    (h : probe.step a = some probe') :
    ChildInv delay (c.proceed now delay clock retried probe') := by
  simp only [ChildInv, hstage] at hc
  unfold RelayCheckOne.proceed
  split
  next outcome hended =>
    cases outcome with
    | cancelled => trivial
    | returned result =>
      cases retried with
      | false =>
        obtain ⟨hprobes, marker, start, hreachable⟩ := hc
        have hreports : Reports ⟨c.began, now, probe'⟩ c.relay result :=
          ⟨⟨marker, start, .next hreachable trivial h⟩, hended⟩
        -- a first probe that passed ends the child, one that failed starts the retry delay
        by_cases hok : result.ok = true
        · simp only [ChildInv, RelayCheckOne.afterProbe, hok, true_or, if_true, hprobes,
            List.nil_append]
          exact .passed _ result clock hreports hok
        · simp only [ChildInv, RelayCheckOne.afterProbe, hok, Bool.false_eq_true, or_self, if_false]
          refine ⟨_, result, ?_, hreports, Bool.eq_false_iff.2 hok, le_rfl⟩
          rw [hprobes, List.nil_append]
      | true =>
        -- the second probe ends the child whatever it reports
        obtain ⟨⟨first, failure, hprobes, hfirst, hfailed, hdelay⟩, marker, start, hreachable⟩ := hc
        have hreports : Reports ⟨c.began, now, probe'⟩ c.relay result :=
          ⟨⟨marker, start, .next hreachable trivial h⟩, hended⟩
        simp only [ChildInv, RelayCheckOne.afterProbe, or_true, if_true, hprobes,
          List.singleton_append]
        exact .retried first _ failure result clock hfirst hfailed hreports hdelay
  next =>
    cases retried with
    | false =>
      obtain ⟨hprobes, marker, start, hreachable⟩ := hc
      exact ⟨hprobes, marker, start, .next hreachable trivial h⟩
    | true =>
      obtain ⟨hwaited, marker, start, hreachable⟩ := hc
      exact ⟨hwaited, marker, start, .next hreachable trivial h⟩

/-- A child never changes its relay. -/
theorem relay_proceed {retried : Bool} {probe : Probe} :
    (c.proceed now delay clock retried probe).relay = c.relay := by
  unfold RelayCheckOne.proceed
  split <;> rfl

/-- What a cancellation does to a child that it reaches. -/
theorem cancelled_cases (h : c.cancelled now delay clock = some c') :
    c.stage.result = none ∧ (c' = { c with stage := .cancelled } ∨
      ∃ retried probe probe', c.stage = .probing retried probe ∧
        probe.step .cancel = some probe' ∧ c' = c.proceed now delay clock retried probe') := by
  unfold RelayCheckOne.cancelled at h
  split at h
  case h_1 hstage | h_2 hstage =>
    obtain rfl := Option.some.inj h
    rw [hstage]
    exact ⟨rfl, .inl rfl⟩
  case h_3 retried probe hstage =>
    obtain ⟨probe', hstep, rfl⟩ := Option.map_eq_some_iff.1 h
    rw [hstage]
    exact ⟨rfl, .inr ⟨retried, probe, probe', rfl, hstep, rfl⟩⟩
  case h_4 => cases h

theorem childInv_cancelled (hc : ChildInv delay c) (h : c.cancelled now delay clock = some c') :
    ChildInv delay c' := by
  obtain ⟨-, rfl | ⟨retried, probe, probe', hstage, hstep, rfl⟩⟩ := cancelled_cases h
  · trivial
  · exact childInv_proceed hc hstage hstep

theorem relay_cancelled (h : c.cancelled now delay clock = some c') : c'.relay = c.relay := by
  obtain ⟨-, rfl | ⟨retried, probe, probe', -, -, rfl⟩⟩ := cancelled_cases h
  · rfl
  · exact relay_proceed

/-- A child that is about to probe. -/
theorem childInv_probe {retried : Bool} {marker : String} (hc : ChildInv delay c)
    (h : c.stage.nextProbe now = some retried) :
    ChildInv delay
      { c with stage := .probing retried (.begin c.relay marker clock), began := now } := by
  unfold RelayCheckOneStage.nextProbe at h
  split at h
  case h_1 hstage =>
    obtain rfl := Option.some.inj h
    simp only [ChildInv, hstage] at hc
    exact ⟨hc, marker, clock, .init⟩
  case h_2 wakeAt hstage =>
    obtain ⟨hwake, heq⟩ := Option.ite_none_right_eq_some.1 h
    obtain rfl := Option.some.inj heq
    simp only [ChildInv, hstage] at hc
    obtain ⟨first, failure, hprobes, hreports, hfailed, hdelay⟩ := hc
    exact ⟨⟨first, failure, hprobes, hreports, hfailed, hdelay.trans hwake⟩, marker, clock, .init⟩
  case h_3 => cases h

/-! ## The steps -/

/-- What a step can do to the runs and to the results. -/
inductive Effect (tables : CharTables) (s t : Liveness) : Prop
  /-- Time passes. -/
  | quiet (hruns : t.runs = s.runs) (hresults : t.results = s.results)
      (hfinished : t.finished = s.finished)
  /-- A run begins. -/
  | called (relays : List String) (delay : Time)
      (heq : t = { s with runs := s.runs ++ [.create tables s.now relays delay] })
  /-- A child that has not returned gets on. -/
  | child (i j : ℕ) (run : RunOnce) (c c' : RelayCheckOne) (hrun : s.runs[i]? = some run)
      (hchild : run.children[j]? = some c) (hopen : c.stage.result = none)
      (hrelay : c'.relay = c.relay)
      (hinv : ChildInv run.retryDelay c → ChildInv run.retryDelay c')
      (heq : t = s.setChild i j run c')
  /-- A run is to be cancelled. -/
  | cancelling (i : ℕ) (run : RunOnce) (hrun : s.runs[i]? = some run) (hopen : run.outcome = none)
      (heq : t = { s with runs := s.runs.set i { run with cancelling := true } })
  /-- A run is over. -/
  | finished (i : ℕ) (run : RunOnce) (outcome : RunOnceEnd) (hrun : s.runs[i]? = some run)
      (hopen : run.outcome = none) (hgathered : run.gathered = some outcome)
      (heq : t = s.finishRun i run outcome)

theorem child?_eq_some (h : s.child? i j = some (run, c)) :
    s.runs[i]? = some run ∧ run.children[j]? = some c := by
  obtain ⟨run', hrun, hmap⟩ := Option.bind_eq_some_iff.1 h
  obtain ⟨child, hchild, heq⟩ := Option.map_eq_some_iff.1 hmap
  cases heq
  exact ⟨hrun, hchild⟩

/-- A child that is about to probe has not returned. -/
theorem result_of_nextProbe {stage : RelayCheckOneStage} {retried : Bool}
    (h : stage.nextProbe now = some retried) : stage.result = none := by
  cases stage with
  | returned => cases h
  | _ => rfl

theorem step_effect {a : LivenessAction} (h : step tables s a = some t) : Effect tables s t := by
  cases a with
  | advance t =>
    obtain ⟨-, heq⟩ := Option.ite_none_right_eq_some.1 h
    obtain rfl := Option.some.inj heq
    exact .quiet rfl rfl rfl
  | runOnce relays retryDelay => exact .called relays _ (Option.some.inj h).symm
  | probe i j marker clock =>
    obtain ⟨⟨run, c⟩, hget, hmap⟩ := Option.bind_eq_some_iff.1 h
    obtain ⟨retried, hnext, rfl⟩ := Option.map_eq_some_iff.1 hmap
    obtain ⟨hrun, hchild⟩ := child?_eq_some hget
    refine .child i j run c _ hrun hchild (result_of_nextProbe hnext) ?_ ?_ rfl
    · rfl
    · exact fun hc => childInv_probe hc hnext
  | probeRaises i j =>
    obtain ⟨⟨run, c⟩, hget, hmap⟩ := Option.bind_eq_some_iff.1 h
    obtain ⟨retried, hnext, rfl⟩ := Option.map_eq_some_iff.1 hmap
    obtain ⟨hrun, hchild⟩ := child?_eq_some hget
    refine .child i j run c _ hrun hchild (result_of_nextProbe hnext) ?_ ?_ rfl
    · rfl
    · exact fun _ => trivial
  | probeStep i j a clock =>
    obtain ⟨⟨run, c⟩, hget, hstep⟩ := Option.bind_eq_some_iff.1 h
    obtain ⟨hrun, hchild⟩ := child?_eq_some hget
    dsimp only at hstep
    split at hstep
    next retried probe hstage =>
      obtain ⟨-, hmap⟩ := Option.ite_none_left_eq_some.1 hstep
      obtain ⟨probe', hprobe, rfl⟩ := Option.map_eq_some_iff.1 hmap
      -- only a child whose probe is under way takes a step of a probe
      refine .child i j run c _ hrun hchild ?_ relay_proceed
        (fun hc => childInv_proceed hc hstage hprobe) rfl
      rw [hstage]
      rfl
    next => cases hstep
  | cancel i =>
    obtain ⟨run, hrun, hite⟩ := Option.bind_eq_some_iff.1 h
    obtain ⟨hopen, heq⟩ := Option.ite_none_right_eq_some.1 hite
    exact .cancelling i run hrun (Option.isNone_iff_eq_none.1 hopen) (Option.some.inj heq).symm
  | cancelChild i j clock =>
    obtain ⟨⟨run, c⟩, hget, hite⟩ := Option.bind_eq_some_iff.1 h
    obtain ⟨-, hmap⟩ := Option.ite_none_right_eq_some.1 hite
    obtain ⟨c', hcancelled, rfl⟩ := Option.map_eq_some_iff.1 hmap
    obtain ⟨hrun, hchild⟩ := child?_eq_some hget
    exact .child i j run c c' hrun hchild (cancelled_cases hcancelled).1
      (relay_cancelled hcancelled) (fun hc => childInv_cancelled hc hcancelled) rfl
  | finish i =>
    obtain ⟨run, hrun, hite⟩ := Option.bind_eq_some_iff.1 h
    obtain ⟨hopen, hmap⟩ := Option.ite_none_right_eq_some.1 hite
    obtain ⟨outcome, hgathered, rfl⟩ := Option.map_eq_some_iff.1 hmap
    exact .finished i run outcome hrun (Option.isNone_iff_eq_none.1 hopen) hgathered rfl

/-! ## The invariant -/

theorem runInv_create (now : Time) (relays : List String) (delay : Time) :
    RunInv tables (.create tables now relays delay) where
  relays := by
    rw [RunOnce.create, List.map_map]
    exact List.map_id _
  children c hc := by
    obtain ⟨relay, -, rfl⟩ := List.mem_map.1 hc
    rfl
  allReturned := by rintro ⟨⟩

/-- A child gets on in a run that has not returned. -/
theorem RunInv.setChild (h : RunInv tables run) (hchild : run.children[j]? = some c)
    (hopen : c.stage.result = none) (hrelay : c'.relay = c.relay)
    (hc' : ChildInv run.retryDelay c') :
    RunInv tables { run with children := run.children.set j c' } where
  relays := (GrowingList.map_set_of_eq hchild hrelay).trans h.relays
  children d hd := by
    rcases List.mem_or_eq_of_mem_set hd with hd | rfl
    · exact h.children d hd
    · exact hc'
  allReturned hreturned := by
    have hresult := h.allReturned hreturned c (List.mem_of_getElem? hchild)
    rw [hopen] at hresult
    cases hresult

/-- The run that returned last did so for good. -/
theorem LivenessInv.set (h : LivenessInv tables s) (hrun : s.runs[i]? = some run)
    (hopen : run.outcome ≠ some .returned) (hopen' : run'.outcome ≠ some .returned)
    (hinv : RunInv tables run') :
    LivenessInv tables { s with runs := s.runs.set i run' } where
  runs k r hk := by
    rcases (GrowingList.getElem?_set_iff hrun).1 hk with ⟨-, rfl⟩ | ⟨-, hk⟩
    · exact hinv
    · exact h.runs k r hk
  mem_finished k := by
    rw [h.mem_finished k]
    constructor
    · rintro ⟨r, hk, hreturned⟩
      refine ⟨r, (GrowingList.getElem?_set_iff hrun).2 (.inr ⟨?_, hk⟩), hreturned⟩
      rintro rfl
      obtain rfl := Option.some.inj (hrun.symm.trans hk)
      exact hopen hreturned
    · rintro ⟨r, hk, hreturned⟩
      rcases (GrowingList.getElem?_set_iff hrun).1 hk with ⟨-, rfl⟩ | ⟨-, hk⟩
      · exact absurd hreturned hopen'
      · exact ⟨r, hk, hreturned⟩
  results := by
    rcases h.results with hnone | ⟨k, r, hlast, hk, hreturned, hresults⟩
    · exact .inl hnone
    · refine .inr ⟨k, r, hlast, (GrowingList.getElem?_set_iff hrun).2 (.inr ⟨?_, hk⟩), hreturned,
        hresults⟩
      rintro rfl
      obtain rfl := Option.some.inj (hrun.symm.trans hk)
      exact hopen hreturned

/-- A run that is gathered has the results of all children. -/
theorem result_of_gathered (h : run.gathered = some .returned) :
    ∀ c ∈ run.children, c.stage.result.isSome = true := by
  unfold RunOnce.gathered at h
  split at h
  next => cases h
  next =>
    obtain ⟨hall, -⟩ := Option.ite_none_right_eq_some.1 h
    exact List.all_eq_true.1 hall

/-- A run returns, and its results are the current ones. -/
theorem LivenessInv.returned (h : LivenessInv tables s) (hrun : s.runs[i]? = some run)
    (hgathered : run.gathered = some .returned) :
    LivenessInv tables (s.finishRun i run .returned) := by
  have hinv := h.runs i run hrun
  have hrun' : (s.finishRun i run .returned).runs[i]? =
      some { run with outcome := some .returned } :=
    (GrowingList.getElem?_set_iff hrun).2 (.inl ⟨rfl, rfl⟩)
  constructor
  case runs =>
    intro k r hk
    rcases (GrowingList.getElem?_set_iff hrun).1 hk with ⟨-, rfl⟩ | ⟨-, hk⟩
    · exact ⟨hinv.relays, hinv.children, fun _ => result_of_gathered hgathered⟩
    · exact h.runs k r hk
  case mem_finished =>
    intro k
    have hfinished : (s.finishRun i run .returned).finished = s.finished ++ [i] := rfl
    rw [hfinished, List.mem_append, List.mem_singleton, h.mem_finished]
    constructor
    · rintro (⟨r, hk, hreturned⟩ | rfl)
      · by_cases hki : k = i
        · subst hki
          exact ⟨_, hrun', rfl⟩
        · exact ⟨r, (GrowingList.getElem?_set_iff hrun).2 (.inr ⟨hki, hk⟩), hreturned⟩
      · exact ⟨_, hrun', rfl⟩
    · rintro ⟨r, hk, hreturned⟩
      rcases (GrowingList.getElem?_set_iff hrun).1 hk with ⟨rfl, -⟩ | ⟨-, hk⟩
      · exact .inr rfl
      · exact .inl ⟨r, hk, hreturned⟩
  case results => exact .inr ⟨i, _, List.getLast?_concat, hrun', rfl, rfl⟩

/-- Every step keeps the invariant. -/
theorem livenessInv_step {a : LivenessAction} (hinv : LivenessInv tables s)
    (h : step tables s a = some t) : LivenessInv tables t := by
  rcases step_effect h with ⟨hruns, hresults, hfinished⟩ | ⟨relays, delay, rfl⟩ |
    ⟨i, j, run, c, c', hrun, hchild, hopen, hrelay, hc', rfl⟩ | ⟨i, run, hrun, hopen, rfl⟩ |
    ⟨i, run, outcome, hrun, hopen, hgathered, rfl⟩
  case quiet =>
    constructor
    case runs =>
      rw [hruns]
      exact hinv.runs
    case mem_finished =>
      rw [hruns, hfinished]
      exact hinv.mem_finished
    case results =>
      rw [hruns, hfinished, hresults]
      exact hinv.results
  case called =>
    -- a new run has returned nothing, so the results stay
    constructor
    case runs =>
      intro k r hk
      rcases GrowingList.getElem?_concat_iff.1 hk with hk | ⟨-, rfl⟩
      · exact hinv.runs k r hk
      · exact runInv_create _ _ _
    case mem_finished =>
      intro k
      rw [hinv.mem_finished k]
      constructor
      · rintro ⟨r, hk, hreturned⟩
        exact ⟨r, GrowingList.getElem?_concat_iff.2 (.inl hk), hreturned⟩
      · rintro ⟨r, hk, hreturned⟩
        rcases GrowingList.getElem?_concat_iff.1 hk with hk | ⟨-, rfl⟩
        · exact ⟨r, hk, hreturned⟩
        · cases hreturned
    case results =>
      refine hinv.results.imp id ?_
      rintro ⟨k, r, hlast, hk, hrest⟩
      exact ⟨k, r, hlast, GrowingList.getElem?_concat_iff.2 (.inl hk), hrest⟩
  case child =>
    have hrunInv := hinv.runs i run hrun
    -- of a run that returned, every child has a result
    have hrunning : run.outcome ≠ some .returned := by
      intro hreturned
      have hresult := hrunInv.allReturned hreturned c (List.mem_of_getElem? hchild)
      rw [hopen] at hresult
      cases hresult
    refine hinv.set hrun hrunning hrunning ?_
    exact hrunInv.setChild hchild hopen hrelay
      (hc' (hrunInv.children c (List.mem_of_getElem? hchild)))
  case cancelling =>
    have hrunInv := hinv.runs i run hrun
    have hrunning : run.outcome ≠ some .returned := by simp [hopen]
    exact hinv.set hrun hrunning hrunning ⟨hrunInv.relays, hrunInv.children, hrunInv.allReturned⟩
  case finished =>
    have hrunInv := hinv.runs i run hrun
    cases outcome with
    | returned => exact hinv.returned hrun hgathered
    | failed =>
      refine hinv.set hrun (by simp [hopen]) (by simp) ⟨hrunInv.relays, hrunInv.children, ?_⟩
      rintro ⟨⟩

theorem livenessInv_start (now delay : Time) : LivenessInv tables (start now delay) where
  runs := by rintro i run ⟨⟩
  mem_finished i := by
    constructor
    · rintro ⟨⟩
    · rintro ⟨run, ⟨⟩, -⟩
  results := .inl ⟨rfl, rfl⟩

theorem livenessInv (h : Reachable tables (start now delay) s) : LivenessInv tables s :=
  h.invariant (livenessInv_start now delay) fun _ _ _ hinv _ hstep => livenessInv_step hinv hstep

/-- `check_relay_liveness` probes exactly the relays that the offers advertise. -/
theorem step_checkRelayLiveness {offers : List Offer} {effectiveRelay : String}
    {retryDelay : Option Time}
    (h : step tables s (checkRelayLiveness tables offers effectiveRelay retryDelay) = some t) :
    ∃ run, t.runs = s.runs ++ [run] ∧
      run.children.map RelayCheckOne.relay = advertisedRelays tables offers effectiveRelay := by
  obtain rfl := Option.some.inj h
  refine ⟨_, rfl, ?_⟩
  rw [(runInv_create _ _ _).relays]
  exact (cleanRelays_advertisedRelays tables offers effectiveRelay).distinct_eq_self

/-! ## What is reported -/

/-- A verdict is over the relay of its child. -/
theorem Vouched.relay_eq {probes : List ProbeRecord} {r : LivenessResult}
    (h : Vouched delay relay probes r) : r.relay = relay := by
  cases h <;> rfl

/-- Of children that have all returned, what they returned names their relays, in their order. -/
theorem map_relay_filterMap_result {children : List RelayCheckOne}
    (h : ∀ c ∈ children, ∃ r, c.stage.result = some r ∧ r.relay = c.relay) :
    (children.filterMap fun c => c.stage.result).map LivenessResult.relay =
      children.map RelayCheckOne.relay := by
  induction children with
  | nil => rfl
  | cons c children ih =>
    obtain ⟨r, hr, hrelay⟩ := h c List.mem_cons_self
    have hcons : ((c :: children).filterMap fun c => c.stage.result) =
        r :: children.filterMap fun c => c.stage.result := List.filterMap_cons_some hr
    rw [hcons, List.map_cons, List.map_cons, hrelay,
      ih fun c' hc' => h c' (List.mem_cons_of_mem c hc')]

/-- What a child returned rests on its probes. -/
theorem RunInv.vouched (h : RunInv tables run) (hc : c ∈ run.children) {r : LivenessResult}
    (hr : c.stage.result = some r) : Vouched run.retryDelay c.relay c.probes r := by
  have hinv := h.children c hc
  cases hstage : c.stage with
  | returned r' =>
    rw [hstage] at hr
    obtain rfl := Option.some.inj hr
    simpa only [ChildInv, hstage] using hinv
  | _ =>
    rw [hstage] at hr
    cases hr

/-- The results of a run name the relays that it probed. -/
theorem RunInv.map_relay_checked (h : RunInv tables run)
    (hreturned : run.outcome = some .returned) :
    run.checked.map LivenessResult.relay = distinct tables run.relays := by
  rw [← h.relays]
  refine map_relay_filterMap_result fun c hc => ?_
  obtain ⟨r, hr⟩ := Option.isSome_iff_exists.1 (h.allReturned hreturned c hc)
  exact ⟨r, hr, (h.vouched hc hr).relay_eq⟩

/-- The table of a run has its results in the order of the relays. -/
theorem RunInv.entries_table (h : RunInv tables run) (hreturned : run.outcome = some .returned) :
    run.table.entries = run.checked.map fun r => (r.relay, r) := by
  have hfold : run.table =
      (run.checked.map fun r => (r.relay, r)).foldl (fun d e => d.set e.1 e.2) ∅ := by
    rw [List.foldl_map]
    rfl
  have hnodup : ((run.checked.map fun r => (r.relay, r)).map Prod.fst).Nodup := by
    rw [List.map_map]
    change (run.checked.map LivenessResult.relay).Nodup
    rw [h.map_relay_checked hreturned]
    exact (cleanRelays_distinct tables run.relays).nodup
  rw [hfold, Dict.entries_foldl_set hnodup fun e _ => Dict.notMem_empty e.1]
  rfl

/-- The keys of the table are the relays that the run probed. -/
theorem RunInv.keys_table (h : RunInv tables run) (hreturned : run.outcome = some .returned) :
    run.table.keys = distinct tables run.relays := by
  rw [Dict.keys, h.entries_table hreturned, List.map_map]
  exact h.map_relay_checked hreturned

/-- What the table of a run says of a relay, the child for that relay found out. -/
theorem RunInv.vouched_of_table (h : RunInv tables run) (hreturned : run.outcome = some .returned)
    {r : LivenessResult} (hget : run.table.get? relay = some r) :
    ∃ c ∈ run.children, c.relay = relay ∧ Vouched run.retryDelay relay c.probes r := by
  have hmem := Dict.get?_eq_some_iff.1 hget
  rw [h.entries_table hreturned] at hmem
  obtain ⟨r', hchecked, heq⟩ := List.mem_map.1 hmem
  cases heq
  obtain ⟨c, hc, hr⟩ := List.mem_filterMap.1 hchecked
  have hvouched := h.vouched hc hr
  have hrelay := hvouched.relay_eq
  exact ⟨c, hc, hrelay.symm, hrelay ▸ hvouched⟩

/-- What the probe behind a report did. -/
theorem Reports.told {record : ProbeRecord} {result : ProbeResult}
    (h : Reports record relay result) : record.probe.Told result := by
  obtain ⟨marker, clock, hreachable⟩ := h.reachable
  have houtcome : record.probe.stage.outcome = some (.returned result) := by
    rw [h.ended]
    rfl
  exact ((Probe.probeInv hreachable).told houtcome).2

/-- A monitor that finds a relay unreachable, and once more after a minute. -/
def sampleActions : List LivenessAction :=
  [.runOnce ["wss://r.example"] none, .probe 0 0 "5f" 0, .probeStep 0 0 .connectTimedOut 0,
    .probeStep 0 0 .closed 0, .probeStep 0 0 .closed 0, .advance 60, .probe 0 0 "6a" 60,
    .probeStep 0 0 .connectTimedOut 60, .probeStep 0 0 .closed 60, .probeStep 0 0 .closed 61,
    .finish 0]

/-- What it reports. -/
def sampleDown : LivenessResult :=
  ⟨"wss://r.example", false, .unreachable, "connect timed out", none, 61, true⟩

theorem exists_down_sample :
    ∃ s, Reachable .ascii (start 0 retryDelaySec) s ∧ s.downRelays = [sampleDown] := by
  have hrun : (Transition.exec (step .ascii) (start 0 retryDelaySec) sampleActions).any
      (fun s => decide (s.downRelays = [sampleDown])) = true := by decide +kernel
  obtain ⟨s, hs, hdown⟩ := Transition.exists_reachable_of_exec hrun
  exact ⟨s, hs, of_decide_eq_true hdown⟩

/-- The results of a monitor, at any time, are those of the run that returned last: of exactly the
relays that it was called with, and each resting on probes of this run. -/
theorem results_of_last_run (h : Reachable tables (start now delay) s) :
    (s.results = ∅ ∧ ∀ run ∈ s.runs, run.outcome ≠ some .returned) ∨
      ∃ i run, s.finished.getLast? = some i ∧ s.runs[i]? = some run ∧
        run.outcome = some .returned ∧ s.results.keys = distinct tables run.relays ∧
        ∀ relay r, s.results.get? relay = some r →
          ∃ c ∈ run.children, c.relay = relay ∧ Vouched run.retryDelay relay c.probes r := by
  have hinv := livenessInv h
  rcases hinv.results with ⟨hfinished, hresults⟩ | ⟨i, run, hlast, hrun, hreturned, hresults⟩
  · refine .inl ⟨hresults, fun run hmem hreturned => ?_⟩
    obtain ⟨i, hi⟩ := List.mem_iff_getElem?.1 hmem
    have hnone := (hinv.mem_finished i).2 ⟨run, hi, hreturned⟩
    rw [hfinished] at hnone
    cases hnone
  · have hrunInv := hinv.runs i run hrun
    rw [hresults]
    exact .inr ⟨i, run, hlast, hrun, hreturned, hrunInv.keys_table hreturned,
      fun relay r => hrunInv.vouched_of_table hreturned⟩

/-- The results of the sample's monitor. -/
theorem results_of_last_run_sample :
    ∃ s : Liveness, s.downRelays = [sampleDown] ∧
      ((s.results = ∅ ∧ ∀ run ∈ s.runs, run.outcome ≠ some .returned) ∨
        ∃ i run, s.finished.getLast? = some i ∧ s.runs[i]? = some run ∧
          run.outcome = some .returned ∧ s.results.keys = distinct .ascii run.relays ∧
          ∀ relay r, s.results.get? relay = some r →
            ∃ c ∈ run.children, c.relay = relay ∧ Vouched run.retryDelay relay c.probes r) := by
  obtain ⟨s, hs, hdown⟩ := exists_down_sample
  exact ⟨s, hdown, results_of_last_run hs⟩

end Liveness

end ElectrumClink
