import ElectrumClink.Probe.Model

/-!
# What a probe tells

`ProbeInv` is kept by every step: what a probe did so far is a beginning of *subscribe, send, hear*,
followed by the managers it has closed. From it, what each status says (`probe_verdict`), and that a
probe that is over has closed what it opened (`probe_closes`).
-/

namespace ElectrumClink

namespace Probe

variable {s t : Probe} {relay marker : String} {clock : Time}

/-- What a probe did before it closed its managers. -/
inductive Traced (s : Probe) : List ProbeMark → Prop
  | nothing (htask : s.readTask = .notCreated) : Traced s []
  | subscribed (hcreated : s.readTask ≠ .notCreated) (hnot : s.readTask ≠ .returned true) :
      Traced s [.subscribed]
  | sent (hcreated : s.readTask ≠ .notCreated) (hnot : s.readTask ≠ .returned true) :
      Traced s [.subscribed, .sent]
  | heard (content : String) (htask : s.readTask = .returned true)
      (hcontains : Contains s.marker content) (hmem : content ∈ s.network) :
      Traced s [.subscribed, .sent, .heard content]

/-- The managers that were closed, at a stage. -/
inductive Closings : ProbeStage → List ProbeMark → Prop
  | running {stage : ProbeStage} (h : stage.outcome = none) : Closings stage []
  | stopping (outcome : ProbeEnd) : Closings (.stopping outcome) []
  | reader (outcome : ProbeEnd) : Closings (.closingReader outcome) [.closed .reader]
  | writer (outcome : ProbeEnd) :
      Closings (.closingWriter outcome) [.closed .reader, .closed .writer]
  | ended (outcome : ProbeEnd) : Closings (.ended outcome) [.closed .reader, .closed .writer]
  /-- A cancellation ended the probe while it closed the reader. -/
  | broken : Closings (.ended .cancelled) [.closed .reader]

/-- What the outcome of a probe says about the task that reads. -/
structure Tells (s : Probe) (outcome : ProbeEnd) : Prop where
  relay : ∀ r, outcome = .returned r → r.relay = s.relay
  ok : ∀ r, outcome = .returned r → r.status = .ok → s.readTask = .returned true
  unreachable : ∀ r, outcome = .returned r → r.status = .unreachable → s.readTask = .notCreated
  noReadback : ∀ r, outcome = .returned r → r.status = .noReadback →
    s.readTask ≠ .returned true ∧ .sent ∈ s.log

/-- What is known at each stage. -/
def AtStage (s : Probe) : Prop :=
  match s.stage with
  | .connectingReader | .connectingWriter => s.readTask = .notCreated
  | .settling => s.readTask ≠ .notCreated ∧ .sent ∉ s.log
  | .publishing => s.readTask ≠ .notCreated
  | .awaiting => s.readTask ≠ .notCreated ∧ .sent ∈ s.log
  | .stopping outcome => s.readTask = .running ∧ s.Tells outcome
  | .closingReader outcome | .closingWriter outcome | .ended outcome =>
    s.readTask ≠ .running ∧ s.Tells outcome

/-- What every step of a probe keeps. -/
structure ProbeInv (s : Probe) : Prop where
  trace : ∃ body closings, s.log = body ++ closings ∧ s.Traced body ∧ Closings s.stage closings
  /-- The marker is only seen once it was sent. -/
  network : ∀ content ∈ s.network, Contains s.marker content → .sent ∈ s.log
  stage : s.AtStage

/-! ## Traces -/

theorem Closings.eq_nil {stage : ProbeStage} {closings : List ProbeMark}
    (h : Closings stage closings) (hnone : stage.outcome = none) : closings = [] := by
  cases h with
  | running => rfl
  | stopping | reader | writer | ended | broken => cases hnone

/-- The managers that were closed are none of the other marks. -/
theorem Closings.eq_closed {stage : ProbeStage} {closings : List ProbeMark} {mark : ProbeMark}
    (h : Closings stage closings) (hmem : mark ∈ closings) : ∃ side, mark = .closed side := by
  cases h with
  | running | stopping => cases hmem
  | reader | broken => exact ⟨_, List.mem_singleton.1 hmem⟩
  | writer | ended =>
    rcases List.mem_cons.1 hmem with rfl | hmem
    · exact ⟨_, rfl⟩
    · exact ⟨_, List.mem_singleton.1 hmem⟩

/-- Before a probe has its outcome, it has closed nothing. -/
theorem ProbeInv.traced (h : ProbeInv s) (hnone : s.stage.outcome = none) : s.Traced s.log := by
  obtain ⟨body, closings, hlog, hbody, hclosings⟩ := h.trace
  obtain rfl := hclosings.eq_nil hnone
  rw [List.append_nil] at hlog
  rwa [hlog]

theorem Traced.not_closed {body : List ProbeMark} (h : s.Traced body) (side : ProbeSide) :
    .closed side ∉ body := by
  cases h <;> simp

/-- The trace of a task that reads and gets on without having seen the marker. -/
theorem Traced.setRead {task : ReadTask} {body : List ProbeMark} (h : s.Traced body)
    (hrunning : s.readTask = .running) (hcreated : task ≠ .notCreated)
    (hnot : task ≠ .returned true) : (s.setRead task).Traced body := by
  cases h with
  | nothing htask => cases hrunning.symm.trans htask
  | subscribed => exact .subscribed hcreated hnot
  | sent => exact .sent hcreated hnot
  | heard content htask => cases hrunning.symm.trans htask

/-- The trace does not depend on the stage, nor on the events that others publish. -/
theorem Traced.mono {body : List ProbeMark} (h : s.Traced body) (htask : t.readTask = s.readTask)
    (hmarker : t.marker = s.marker) (hnetwork : ∀ content ∈ s.network, content ∈ t.network) :
    t.Traced body := by
  cases h with
  | nothing hnone => exact .nothing (htask.trans hnone)
  | subscribed hcreated hnot => exact .subscribed (htask ▸ hcreated) (htask ▸ hnot)
  | sent hcreated hnot => exact .sent (htask ▸ hcreated) (htask ▸ hnot)
  | heard content hread hcontains hmem =>
    exact .heard content (htask.trans hread) (hmarker ▸ hcontains) (hnetwork content hmem)

/-- A probe that has not seen the marker, by whether its event was sent. -/
theorem Traced.of_running {body : List ProbeMark} (h : s.Traced body)
    (hrunning : s.readTask = .running) :
    body = [.subscribed] ∨ body = [.subscribed, .sent] := by
  cases h with
  | nothing htask => cases hrunning.symm.trans htask
  | subscribed => exact .inl rfl
  | sent => exact .inr rfl
  | heard content htask => cases hrunning.symm.trans htask

theorem Traced.of_notCreated {body : List ProbeMark} (h : s.Traced body)
    (htask : s.readTask = .notCreated) : body = [] := by
  cases h with
  | nothing => rfl
  | subscribed hcreated | sent hcreated => exact absurd htask hcreated
  | heard content hread => cases htask.symm.trans hread

/-- A probe that has not sent its event has only subscribed. -/
theorem Traced.of_not_sent {body : List ProbeMark} (h : s.Traced body)
    (hcreated : s.readTask ≠ .notCreated) (hnot : .sent ∉ body) :
    body = [.subscribed] ∧ s.readTask ≠ .returned true := by
  cases h with
  | nothing htask => exact absurd htask hcreated
  | subscribed _ hunheard => exact ⟨rfl, hunheard⟩
  | sent | heard => simp at hnot

/-! ## The steps -/

theorem Tells.mono {outcome : ProbeEnd} (h : s.Tells outcome) (hrelay : t.relay = s.relay)
    (htask : t.readTask = s.readTask) (hlog : ∀ mark ∈ s.log, mark ∈ t.log) :
    t.Tells outcome where
  relay r hr := (h.relay r hr).trans hrelay.symm
  ok r hr hok := htask.trans (h.ok r hr hok)
  unreachable r hr hstatus := htask.trans (h.unreachable r hr hstatus)
  noReadback r hr hstatus := by
    rw [htask]
    exact (h.noReadback r hr hstatus).imp id (hlog _)

/-- The outcome of a cancelled probe says nothing. -/
theorem tells_cancelled : s.Tells .cancelled := by
  constructor <;> rintro r ⟨⟩

/-- An error says nothing about the task that reads. -/
theorem tells_error (rttMs : Option ℤ) (detail : String) :
    s.Tells (s.report .error rttMs detail) := by
  constructor
  case relay =>
    rintro r ⟨⟩
    rfl
  all_goals rintro r ⟨⟩ ⟨⟩

theorem tells_unreachable (h : s.readTask = .notCreated) (rttMs : Option ℤ) (detail : String) :
    s.Tells (s.report .unreachable rttMs detail) := by
  constructor
  case relay =>
    rintro r ⟨⟩
    rfl
  case unreachable => exact fun _ _ _ => h
  all_goals rintro r ⟨⟩ ⟨⟩

theorem tells_noReadback (hnot : s.readTask ≠ .returned true) (hsent : .sent ∈ s.log)
    (rttMs : Option ℤ) (detail : String) : s.Tells (s.report .noReadback rttMs detail) := by
  constructor
  case relay =>
    rintro r ⟨⟩
    rfl
  case noReadback => exact fun _ _ _ => ⟨hnot, hsent⟩
  all_goals rintro r ⟨⟩ ⟨⟩

/-- What the probe makes of the task that reads, it makes of it rightly. -/
theorem tells_afterRead {outcome : ProbeEnd} (hsent : .sent ∈ s.log)
    (h : s.afterRead clock = some outcome) : s.Tells outcome := by
  unfold afterRead at h
  dsimp only at h
  split at h
  case h_1 htask =>
    obtain rfl := Option.some.inj h
    constructor
    case relay =>
      rintro r ⟨⟩
      rfl
    case ok => exact fun _ _ _ => htask
    all_goals rintro r ⟨⟩ ⟨⟩
  case h_2 htask =>
    obtain rfl := Option.some.inj h
    exact tells_noReadback (by simp [htask]) hsent _ _
  case h_3 htask =>
    obtain rfl := Option.some.inj h
    exact tells_noReadback (by simp [htask]) hsent _ _
  case h_4 =>
    obtain rfl := Option.some.inj h
    exact tells_error _ _
  case h_5 =>
    obtain rfl := Option.some.inj h
    exact tells_cancelled
  all_goals cases h

/-- A manager is closed once the task that reads is over. -/
theorem ProbeInv.closeReader (h : ProbeInv s) {outcome : ProbeEnd} (htask : s.readTask ≠ .running)
    (htells : s.Tells outcome) (hlog : s.Traced s.log) :
    ProbeInv (s.close .reader (.closingReader outcome)) where
  trace := ⟨s.log, _, rfl, hlog.mono rfl rfl fun _ => id, .reader outcome⟩
  network content hmem hcontains :=
    List.mem_append_left _ (h.network content hmem hcontains)
  stage := ⟨htask, htells.mono rfl rfl fun _ => List.mem_append_left _⟩

/-- The probe has its outcome. -/
theorem ProbeInv.finish (h : ProbeInv s) {outcome : ProbeEnd} (hnone : s.stage.outcome = none)
    (htells : s.Tells outcome) : ProbeInv (s.finish outcome) := by
  unfold Probe.finish
  split
  next hrunning =>
    refine ⟨⟨s.log, [], (List.append_nil _).symm, ?_, .stopping outcome⟩, h.network, hrunning, ?_⟩
    · exact (h.traced hnone).mono rfl rfl fun _ => id
    · exact htells.mono rfl rfl fun _ => id
  next hover => exact h.closeReader hover htells (h.traced hnone)

/-- The task that reads gets on without having seen the marker. -/
theorem ProbeInv.setRead (h : ProbeInv s) (hreading : s.Reading) {task : ReadTask}
    (hcreated : task ≠ .notCreated) (hnot : task ≠ .returned true) : ProbeInv (s.setRead task) := by
  obtain ⟨hrunning, hstage⟩ := hreading
  have hnone : s.stage.outcome = none := by
    rcases hstage with hstage | hstage | hstage <;> rw [hstage] <;> rfl
  refine ⟨⟨s.log, [], (List.append_nil _).symm, ?_, .running hnone⟩, h.network, ?_⟩
  · exact (h.traced hnone).setRead hrunning hcreated hnot
  · have hat := h.stage
    unfold AtStage at hat ⊢
    rcases hstage with hstage | hstage | hstage
    · simp only [hstage, Probe.setRead] at hat ⊢
      exact ⟨hcreated, hat.2⟩
    · simp only [hstage, Probe.setRead] at hat ⊢
      exact hcreated
    · simp only [hstage, Probe.setRead] at hat ⊢
      exact ⟨hcreated, hat.2⟩

/-- The task that reads sees an event. -/
theorem ProbeInv.hear (h : ProbeInv s) (hreading : s.Reading) {content : String}
    (hmem : content ∈ s.network) : ProbeInv (s.hear content) := by
  unfold Probe.hear
  split
  next hcontains =>
    obtain ⟨hrunning, hstage⟩ := hreading
    have hsent := h.network content hmem hcontains
    have hnone : s.stage.outcome = none := by
      rcases hstage with hstage | hstage | hstage <;> rw [hstage] <;> rfl
    have hlog : s.log = [.subscribed, .sent] := by
      rcases (h.traced hnone).of_running hrunning with hlog | hlog
      · simp [hlog] at hsent
      · exact hlog
    refine ⟨⟨s.log ++ [.heard content], [], (List.append_nil _).symm, ?_, .running hnone⟩, ?_, ?_⟩
    · rw [hlog]
      exact .heard content rfl hcontains hmem
    · exact fun c hc hmarker => List.mem_append_left _ (h.network c hc hmarker)
    · have hat := h.stage
      unfold AtStage at hat ⊢
      rcases hstage with hstage | hstage | hstage
      · simp only [hstage] at hat
        exact absurd hsent hat.2
      · simp [hstage]
      · simp [hstage, hlog]
  next => exact h

/-- An event is published to the reader, which knows the marker only once it was sent. -/
theorem ProbeInv.inject (h : ProbeInv s) {content : String}
    (hguess : .sent ∈ s.log ∨ ¬ Contains s.marker content) :
    ProbeInv { s with network := s.network ++ [content] } := by
  obtain ⟨body, closings, hlog, hbody, hclosings⟩ := h.trace
  refine ⟨⟨body, closings, hlog, hbody.mono rfl rfl fun _ => List.mem_append_left _, hclosings⟩,
    ?_, ?_⟩
  · intro c hc hcontains
    rcases List.mem_append.1 hc with hc | hc
    · exact h.network c hc hcontains
    · rw [List.mem_singleton.1 hc] at hcontains
      exact hguess.resolve_right fun hnot => hnot hcontains
  · have hat := h.stage
    unfold AtStage at hat ⊢
    rcases hstage : s.stage with _ | _ | _ | _ | _ | outcome | outcome | outcome | outcome <;>
      simp only [hstage] at hat ⊢
    case stopping | closingReader | closingWriter | ended =>
      exact hat.imp id fun htells => htells.mono rfl rfl fun _ => id
    all_goals exact hat

/-- The probe goes on to a stage at which it waits for something else. -/
theorem ProbeInv.setStage (h : ProbeInv s) {stage : ProbeStage} (hnone : s.stage.outcome = none)
    (hnone' : stage.outcome = none) (hat : AtStage { s with stage := stage }) :
    ProbeInv { s with stage := stage } :=
  ⟨⟨s.log, [], (List.append_nil _).symm, (h.traced hnone).mono rfl rfl fun _ => id,
    .running hnone'⟩, h.network, hat⟩

/-- The event of the probe goes out. -/
theorem ProbeInv.sent (h : ProbeInv s) (hstage : s.stage = .publishing) (hnot : .sent ∉ s.log) :
    ProbeInv { s with network := s.network ++ [s.content], log := s.log ++ [.sent] } := by
  have hnone : s.stage.outcome = none := by
    rw [hstage]
    rfl
  have hcreated : s.readTask ≠ .notCreated := by
    simpa only [AtStage, hstage] using h.stage
  obtain ⟨hlog, hunheard⟩ := (h.traced hnone).of_not_sent hcreated hnot
  refine ⟨⟨s.log ++ [.sent], [], (List.append_nil _).symm, ?_, .running hnone⟩, ?_, ?_⟩
  · rw [hlog]
    exact .sent hcreated hunheard
  · exact fun _ _ _ => List.mem_append_right _ (List.mem_singleton.2 rfl)
  · simpa only [AtStage, hstage] using hcreated

/-- The connections are up, and the task that reads is created. -/
theorem ProbeInv.subscribe (h : ProbeInv s) (hstage : s.stage = .connectingWriter) :
    ProbeInv { s with
      stage := .settling, readTask := .running, log := s.log ++ [.subscribed] } := by
  have hnone : s.stage.outcome = none := by
    rw [hstage]
    rfl
  have htask : s.readTask = .notCreated := by
    simpa only [AtStage, hstage] using h.stage
  have hlog := (h.traced hnone).of_notCreated htask
  refine ⟨⟨s.log ++ [.subscribed], [], (List.append_nil _).symm, ?_, .running rfl⟩, ?_, ?_⟩
  · rw [hlog]
    exact .subscribed (by simp) (by simp)
  · exact fun c hc hcontains => List.mem_append_left _ (h.network c hc hcontains)
  · simp [AtStage, hlog]

/-- The task that reads was cancelled before it saw the marker. -/
theorem Tells.stopped {outcome : ProbeEnd} (h : s.Tells outcome)
    (hrunning : s.readTask = .running) : (s.setRead .cancelled).Tells outcome where
  relay := h.relay
  ok r hr hok := by cases hrunning.symm.trans (h.ok r hr hok)
  unreachable r hr hstatus := by cases hrunning.symm.trans (h.unreachable r hr hstatus)
  noReadback r hr hstatus := ⟨by simp [Probe.setRead], (h.noReadback r hr hstatus).2⟩

/-- The task that was cancelled is over, and the reader is closed. -/
theorem ProbeInv.stopped (h : ProbeInv s) {outcome : ProbeEnd}
    (hstage : s.stage = .stopping outcome) (hrunning : s.readTask = .running)
    (htells : s.Tells outcome) :
    ProbeInv ((s.setRead .cancelled).close .reader (.closingReader outcome)) := by
  obtain ⟨body, closings, hlog, hbody, hclosings⟩ := h.trace
  rw [hstage] at hclosings
  cases hclosings with
  | running hnone => cases hnone
  | stopping =>
    rw [List.append_nil] at hlog
    refine ⟨⟨body, _, ?_, ?_, .reader outcome⟩, ?_, by simp [Probe.close, Probe.setRead], ?_⟩
    · simp only [Probe.close, Probe.setRead, hlog]
    · have hset : (s.setRead .cancelled).Traced body := hbody.setRead hrunning (by simp) (by simp)
      exact hset.mono rfl rfl fun _ => id
    · exact fun c hc hcontains => List.mem_append_left _ (h.network c hc hcontains)
    · exact (htells.stopped hrunning).mono rfl rfl fun _ => List.mem_append_left _

/-- A manager was closed: the writer is next, or the probe is over. -/
theorem ProbeInv.closed (h : ProbeInv s) (hstep : s.step .closed = some t) : ProbeInv t := by
  obtain ⟨body, closings, hlog, hbody, hclosings⟩ := h.trace
  have hat := h.stage
  simp only [Probe.step] at hstep
  split at hstep
  next outcome hstage =>
    obtain rfl := Option.some.inj hstep
    simp only [AtStage, hstage] at hat
    rw [hstage] at hclosings
    cases hclosings with
    | running hnone => cases hnone
    | reader =>
      refine ⟨⟨body, _, ?_, hbody.mono rfl rfl fun _ => id, .writer outcome⟩, ?_, hat.1, ?_⟩
      · rw [Probe.close, hlog, List.append_assoc]
        rfl
      · exact fun c hc hcontains => List.mem_append_left _ (h.network c hc hcontains)
      · exact hat.2.mono rfl rfl fun _ => List.mem_append_left _
  next outcome hstage =>
    obtain rfl := Option.some.inj hstep
    simp only [AtStage, hstage] at hat
    rw [hstage] at hclosings
    cases hclosings with
    | running hnone => cases hnone
    | writer =>
      exact ⟨⟨body, _, hlog, hbody.mono rfl rfl fun _ => id, .ended outcome⟩, h.network, hat.1,
        hat.2.mono rfl rfl fun _ => id⟩
  next => cases hstep

/-- A cancellation gives the probe its outcome, is swallowed, or breaks off what it closes. -/
theorem ProbeInv.cancel (h : ProbeInv s) (hstep : s.step .cancel = some t) : ProbeInv t := by
  obtain ⟨body, closings, hlog, hbody, hclosings⟩ := h.trace
  have hat := h.stage
  simp only [Probe.step] at hstep
  rcases hstage : s.stage with _ | _ | _ | _ | _ | outcome | outcome | outcome | outcome <;>
    simp only [hstage] at hstep
  case awaiting =>
    -- `wait_for` cancels the task that reads, if it still does
    obtain rfl := Option.some.inj hstep
    have hnone : s.stage.outcome = none := by
      rw [hstage]
      rfl
    split
    next hrunning =>
      exact (h.setRead ⟨hrunning, .inr (.inr hstage)⟩ (by simp) (by simp)).finish hnone
        tells_cancelled
    next => exact h.finish hnone tells_cancelled
  case stopping =>
    obtain rfl := Option.some.inj hstep
    exact h
  -- this is the one end at which the writer stays open
  case closingReader =>
    obtain rfl := Option.some.inj hstep
    simp only [AtStage, hstage] at hat
    rw [hstage] at hclosings
    cases hclosings with
    | running hnone => cases hnone
    | reader =>
      exact ⟨⟨body, _, hlog, hbody.mono rfl rfl fun _ => id, .broken⟩, h.network, hat.1,
        tells_cancelled⟩
  case closingWriter =>
    obtain rfl := Option.some.inj hstep
    simp only [AtStage, hstage] at hat
    rw [hstage] at hclosings
    cases hclosings with
    | running hnone => cases hnone
    | writer =>
      exact ⟨⟨body, _, hlog, hbody.mono rfl rfl fun _ => id, .ended .cancelled⟩, h.network, hat.1,
        tells_cancelled⟩
  case ended => cases hstep
  all_goals
    obtain rfl := Option.some.inj hstep
    refine h.finish ?_ tells_cancelled
    rw [hstage]
    rfl

/-- Every step keeps the invariant. -/
theorem probeInv_step {a : ProbeAction} (hinv : ProbeInv s) (h : s.step a = some t) :
    ProbeInv t := by
  have hat := hinv.stage
  cases a with
  | readerConnected =>
    obtain ⟨hstage, heq⟩ := Option.ite_none_right_eq_some.1 h
    obtain rfl := Option.some.inj heq
    refine hinv.setStage (by rw [hstage]; rfl) rfl ?_
    simpa only [AtStage, hstage] using hat
  | writerConnected reader writer =>
    obtain ⟨hstage, heq⟩ := Option.ite_none_right_eq_some.1 h
    split at heq
    next side =>
      obtain rfl := Option.some.inj heq
      refine hinv.finish (by rw [hstage]; rfl) (tells_unreachable ?_ _ _)
      simpa only [AtStage, hstage] using hat
    next =>
      obtain rfl := Option.some.inj heq
      exact hinv.subscribe hstage
  | connectTimedOut =>
    obtain ⟨hstage, heq⟩ := Option.ite_none_right_eq_some.1 h
    obtain rfl := Option.some.inj heq
    refine hinv.finish ?_ (tells_unreachable ?_ _ _)
    · rcases hstage with hstage | hstage <;> rw [hstage] <;> rfl
    · rcases hstage with hstage | hstage <;> simpa only [AtStage, hstage] using hat
  | raised repr =>
    obtain ⟨hstage, heq⟩ := Option.ite_none_right_eq_some.1 h
    obtain rfl := Option.some.inj heq
    refine hinv.finish ?_ (tells_error _ _)
    rcases hstage with hstage | hstage | hstage <;> rw [hstage] <;> rfl
  | settled =>
    obtain ⟨hstage, heq⟩ := Option.ite_none_right_eq_some.1 h
    obtain rfl := Option.some.inj heq
    refine hinv.setStage (by rw [hstage]; rfl) rfl ?_
    simp only [AtStage, hstage] at hat
    exact hat.1
  | sent =>
    obtain ⟨⟨hstage, hnot⟩, heq⟩ := Option.ite_none_right_eq_some.1 h
    obtain rfl := Option.some.inj heq
    exact hinv.sent hstage hnot
  | published =>
    obtain ⟨⟨hstage, hsent⟩, heq⟩ := Option.ite_none_right_eq_some.1 h
    obtain rfl := Option.some.inj heq
    refine hinv.setStage (by rw [hstage]; rfl) rfl ⟨?_, hsent⟩
    simpa only [AtStage, hstage] using hat
  | inject content =>
    obtain ⟨hguess, heq⟩ := Option.ite_none_right_eq_some.1 h
    obtain rfl := Option.some.inj heq
    exact hinv.inject hguess
  | deliver content =>
    obtain ⟨⟨hreading, hmem⟩, heq⟩ := Option.ite_none_right_eq_some.1 h
    obtain rfl := Option.some.inj heq
    exact hinv.hear hreading hmem
  | streamEnded =>
    obtain ⟨hreading, heq⟩ := Option.ite_none_right_eq_some.1 h
    obtain rfl := Option.some.inj heq
    exact hinv.setRead hreading (by simp) (by simp)
  | readRaised timeout repr =>
    obtain ⟨hreading, heq⟩ := Option.ite_none_right_eq_some.1 h
    obtain rfl := Option.some.inj heq
    exact hinv.setRead hreading (by simp) (by simp)
  | readOver clock =>
    obtain ⟨hstage, hmap⟩ := Option.ite_none_right_eq_some.1 h
    obtain ⟨outcome, houtcome, rfl⟩ := Option.map_eq_some_iff.1 hmap
    simp only [AtStage, hstage] at hat
    exact hinv.finish (by rw [hstage]; rfl) (tells_afterRead hat.2 houtcome)
  | readTimedOut =>
    obtain ⟨⟨hstage, hrunning⟩, heq⟩ := Option.ite_none_right_eq_some.1 h
    obtain rfl := Option.some.inj heq
    simp only [AtStage, hstage] at hat
    -- the task that reads is cancelled first
    have hset : ProbeInv (s.setRead .cancelled) :=
      hinv.setRead ⟨hrunning, .inr (.inr hstage)⟩ (by simp) (by simp)
    exact hset.finish (by rw [Probe.setRead, hstage]; rfl)
      (tells_noReadback (s := s.setRead .cancelled) (by simp [Probe.setRead]) hat.2 _ _)
  | readStopped =>
    simp only [step] at h
    split at h
    next outcome hstage =>
      obtain rfl := Option.some.inj h
      simp only [AtStage, hstage] at hat
      exact hinv.stopped hstage hat.1 hat.2
    next => cases h
  | closed => exact hinv.closed h
  | cancel => exact hinv.cancel h

theorem probeInv_begin : ProbeInv (begin relay marker clock) where
  trace := ⟨[], [], rfl, .nothing rfl, .running rfl⟩
  network := by rintro _ ⟨⟩
  stage := rfl

theorem probeInv (h : Reachable (begin relay marker clock) s) : ProbeInv s :=
  h.invariant probeInv_begin fun _ _ _ hinv _ hstep => probeInv_step hinv hstep

@[simp] theorem relay_finish (outcome : ProbeEnd) : (s.finish outcome).relay = s.relay := by
  unfold finish
  split <;> rfl

@[simp] theorem marker_finish (outcome : ProbeEnd) : (s.finish outcome).marker = s.marker := by
  unfold finish
  split <;> rfl

/-- The relay and the marker stay what they are. -/
theorem const_step {a : ProbeAction} (h : s.step a = some t) :
    t.relay = s.relay ∧ t.marker = s.marker := by
  cases a with
  | closed | cancel | readStopped =>
    simp only [step] at h
    split at h
    all_goals cases h
    all_goals first
      | exact ⟨rfl, rfl⟩
      | split <;> simp only [relay_finish, marker_finish, setRead, and_self]
      | simp only [relay_finish, marker_finish, and_self]
  | readOver clock =>
    obtain ⟨-, hmap⟩ := Option.ite_none_right_eq_some.1 h
    obtain ⟨outcome, -, rfl⟩ := Option.map_eq_some_iff.1 hmap
    simp
  | writerConnected reader writer =>
    obtain ⟨-, heq⟩ := Option.ite_none_right_eq_some.1 h
    split at heq <;> obtain rfl := Option.some.inj heq
    · simp
    · exact ⟨rfl, rfl⟩
  | deliver content =>
    obtain ⟨-, heq⟩ := Option.ite_none_right_eq_some.1 h
    obtain rfl := Option.some.inj heq
    unfold hear
    split <;> exact ⟨rfl, rfl⟩
  | _ =>
    obtain ⟨-, heq⟩ := Option.ite_none_right_eq_some.1 h
    obtain rfl := Option.some.inj heq
    first | exact ⟨rfl, rfl⟩ | simp only [relay_finish, marker_finish, and_self]

theorem const_of_reachable (h : Reachable (begin relay marker clock) s) :
    s.relay = relay ∧ s.marker = marker := by
  induction h with
  | init => exact ⟨rfl, rfl⟩
  | next _ _ hstep ih =>
    obtain ⟨hrelay, hmarker⟩ := const_step hstep
    exact ⟨hrelay.trans ih.1, hmarker.trans ih.2⟩

/-! ## What is reported -/

/-- What the result of a probe tells of the relay. -/
structure Told (s : Probe) (r : ProbeResult) : Prop where
  /-- The probe subscribed, then sent its event, and then an event with its marker came back. -/
  ok : r.status = .ok → ∃ content, Contains s.marker content ∧ content ∈ s.network ∧
    [.subscribed, .sent, .heard content] <+: s.log
  /-- Nothing was subscribed to and nothing was sent. -/
  unreachable : r.status = .unreachable → .subscribed ∉ s.log ∧ .sent ∉ s.log
  /-- The event was sent, and no event with the marker came back. -/
  noReadback : r.status = .noReadback →
    [.subscribed, .sent] <+: s.log ∧ ∀ content, .heard content ∉ s.log

/-- What an invariant says of the result. -/
theorem ProbeInv.told (h : ProbeInv s) {r : ProbeResult}
    (hr : s.stage.outcome = some (.returned r)) : r.relay = s.relay ∧ s.Told r := by
  -- every stage after the outcome keeps what it tells
  have htells : s.Tells (.returned r) := by
    have hat := h.stage
    unfold AtStage at hat
    rcases hstage : s.stage with _ | _ | _ | _ | _ | outcome | outcome | outcome | outcome <;>
      simp only [hstage] at hat hr
    case stopping | closingReader | closingWriter | ended =>
      obtain rfl := Option.some.inj hr
      exact hat.2
    all_goals cases hr
  obtain ⟨body, closings, hlog, hbody, hclosings⟩ := h.trace
  -- what was done before the end stands in the first part of the log
  have hmem : ∀ {mark : ProbeMark}, (∀ side, mark ≠ .closed side) → mark ∈ s.log →
      mark ∈ body := by
    intro mark hne hmark
    rw [hlog] at hmark
    rcases List.mem_append.1 hmark with hmark | hmark
    · exact hmark
    · obtain ⟨side, hside⟩ := hclosings.eq_closed hmark
      exact absurd hside (hne side)
  refine ⟨htells.relay r rfl, ?_, ?_, ?_⟩
  · intro hok
    have htask := htells.ok r rfl hok
    cases hbody with
    | nothing hnone => cases htask.symm.trans hnone
    | subscribed _ hnot | sent _ hnot => exact absurd htask hnot
    | heard content _ hcontains hcontent =>
      exact ⟨content, hcontains, hcontent, hlog ▸ List.prefix_append _ _⟩
  · intro hunreachable
    obtain rfl := hbody.of_notCreated (htells.unreachable r rfl hunreachable)
    constructor <;> intro hmark <;> cases hmem (by simp) hmark
  · intro hnoReadback
    obtain ⟨hnot, hsent⟩ := htells.noReadback r rfl hnoReadback
    have hsent' := hmem (by simp) hsent
    cases hbody with
    | nothing | subscribed => simp at hsent'
    | heard content htask => exact absurd htask hnot
    | sent =>
      refine ⟨hlog ▸ List.prefix_append _ _, fun content hheard => ?_⟩
      have hheard' := hmem (by simp) hheard
      simp at hheard'

/-- A probe of a relay that carries its event. -/
def sampleActions : List ProbeAction :=
  [.readerConnected, .writerConnected ⟨true, true⟩ ⟨true, true⟩, .settled, .sent,
    .deliver "clink-relay-probe:5f", .published, .readOver 1, .closed, .closed]

/-- The state in which it is over. -/
def sampleEnd : Probe :=
  ⟨"wss://r.example", "5f", 0,
    .ended (.returned ⟨"wss://r.example", .ok, some 1000, ""⟩), .returned true,
    ["clink-relay-probe:5f"],
    [.subscribed, .sent, .heard "clink-relay-probe:5f", .closed .reader, .closed .writer]⟩

theorem reachable_sampleEnd : Reachable (begin "wss://r.example" "5f" 0) sampleEnd :=
  Transition.reachable_of_exec
    (show Transition.exec step _ sampleActions = some sampleEnd by decide +kernel)

/-- A probe that is over, whatever its end, has stopped reading and has closed the reader and then
the writer, each once and after everything else; unless it was cancelled while it closed the
reader. -/
theorem probe_closes (h : Reachable (begin relay marker clock) s) {outcome : ProbeEnd}
    (hended : s.stage = .ended outcome) :
    s.readTask ≠ .running ∧ ∃ body, (∀ side, .closed side ∉ body) ∧
      (s.log = body ++ [.closed .reader, .closed .writer] ∨
        outcome = .cancelled ∧ s.log = body ++ [.closed .reader]) := by
  have hinv := probeInv h
  have hat := hinv.stage
  simp only [AtStage, hended] at hat
  obtain ⟨body, closings, hlog, hbody, hclosings⟩ := hinv.trace
  refine ⟨hat.1, body, hbody.not_closed, ?_⟩
  rw [hended] at hclosings
  cases hclosings with
  | running hnone => cases hnone
  | ended => exact .inl hlog
  | broken => exact .inr ⟨rfl, hlog⟩

/-- The probe of the sample closes both managers. -/
theorem probe_closes_sample :
    sampleEnd.readTask ≠ .running ∧ ∃ body, (∀ side, .closed side ∉ body) ∧
      (sampleEnd.log = body ++ [.closed .reader, .closed .writer] ∨
        (.returned ⟨"wss://r.example", .ok, some 1000, ""⟩ : ProbeEnd) = .cancelled ∧
          sampleEnd.log = body ++ [.closed .reader]) :=
  probe_closes reachable_sampleEnd rfl

end Probe

end ElectrumClink
