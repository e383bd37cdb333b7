import ElectrumClink.Listener.Cadence
import ElectrumClink.Listener.Faults
import Mathlib.Tactic.Linarith

/-!
# The watchdog in time

While nobody changes the settings of the watchdog or cancels it, and what it awaits is over in time,
its passes come round: from any moment on a whole prune, a whole attachment and, if pings are on, a
whole self-ping are over after a time that the intervals and the durations bound.

So no relay stays whose connection is broken (`broken_relay_dropped`) or silent
(`silent_relay_dropped`), and a URL to listen on that no relay carries is tried
(`missing_relay_tried`).
-/

namespace ElectrumClink

/-- How long a wakeup and the passes take at most. -/
structure Pace where
  latency : Time
  prune : Time
  ensure : Time
  ping : Time
  latency_nonneg : 0 ≤ latency
  prune_nonneg : 0 ≤ prune
  ensure_nonneg : 0 ≤ ensure
  ping_nonneg : 0 ≤ ping

namespace RelayWatchdog

/-- How long what the loop awaits takes at most. -/
def lasts (pace : Pace) (s : RelayWatchdog) : Time :=
  match s.stage with
  | .sleeping _ => s.watchdogIntervalSec + pace.latency
  | .pruning => pace.prune
  | .ensuring => pace.ensure
  | .pinging => pace.ping
  | .cancelled => 0

/-- A step keeps the pace: what the loop awaits is over in time, and nobody interferes. -/
def KeepsPace (pace : Pace) (s : RelayWatchdog) : RelayWatchdogAction → Prop
  | .advance t => t ≤ s.since + s.lasts pace
  | .setSettings _ | .cancel => False
  | _ => True

instance (pace : Pace) (s : RelayWatchdog) :
    (a : RelayWatchdogAction) → Decidable (s.KeepsPace pace a)
  | .advance t => inferInstanceAs (Decidable (t ≤ s.since + s.lasts pace))
  | .setSettings _ | .cancel => inferInstanceAs (Decidable False)
  | .wake | .pruned _ | .ensured _ _ | .ensureRaises | .pinged _ _ _ _ _ | .subscribe _ =>
    inferInstanceAs (Decidable True)

variable {normalizeUrl : String → String} {pace : Pace} {s s₀ t : RelayWatchdog}
  {a : RelayWatchdogAction} {settings : ListenerSettings} {watchdog : Watchdog} {now : Time}

/-! ## In time -/

/-- What a run that keeps the pace keeps. -/
structure PaceInv (pace : Pace) (settings : ListenerSettings) (s : RelayWatchdog) : Prop where
  settings : s.settings = settings
  running : s.stage ≠ .cancelled
  since_le : s.since ≤ s.now
  inTime : s.now ≤ s.since + s.lasts pace

theorem lasts_nonneg (s : RelayWatchdog) : 0 ≤ s.lasts pace := by
  have hinterval : (0 : Time) ≤ s.watchdogIntervalSec := by
    exact_mod_cast zero_le_one.trans (le_max_left 1 s.settings.watchdogIntervalSec)
  unfold lasts
  split
  · exact add_nonneg hinterval pace.latency_nonneg
  · exact pace.prune_nonneg
  · exact pace.ensure_nonneg
  · exact pace.ping_nonneg
  · exact le_rfl

/-- What has just begun is in time. -/
theorem PaceInv.of_since (hsettings : s.settings = settings) (hrunning : s.stage ≠ .cancelled)
    (hsince : s.since = s.now) : PaceInv pace settings s :=
  ⟨hsettings, hrunning, hsince.le, by rw [hsince]; exact le_add_of_nonneg_right s.lasts_nonneg⟩

theorem PaceInv.afterRepair (hsettings : s.settings = settings) :
    PaceInv pace settings s.afterRepair := by
  obtain ⟨-, -, heq⟩ | ⟨-, heq⟩ := s.afterRepair_cases
  · rw [heq]
    exact .of_since hsettings (by rintro ⟨⟩) rfl
  · rw [heq]
    exact .of_since hsettings (by rintro ⟨⟩) rfl

theorem paceInv_step (h : PaceInv pace settings s) (hpace : s.KeepsPace pace a)
    (hstep : s.step normalizeUrl a = some t) : PaceInv pace settings t := by
  cases step_effect hstep with
  | advance now hle => exact ⟨h.settings, h.running, h.since_le.trans hle, hpace⟩
  | setSettings settings => exact hpace.elim
  | wake wakeAt hstage hdue => exact .of_since h.settings (by rintro ⟨⟩) rfl
  | pruned connection hstage => exact .of_since h.settings (by rintro ⟨⟩) rfl
  | ensured listenRelayUrls outcomes hstage => exact .afterRepair h.settings
  | ensureRaises hstage => exact .afterRepair h.settings
  | pinged ping echoed now listenRelayUrls outcomes hstage =>
    exact .of_since h.settings (by rintro ⟨⟩) rfl
  | subscribe subscriptions => exact ⟨h.settings, h.running, h.since_le, h.inTime⟩
  | cancel hstage => exact hpace.elim

theorem paceInv_start : PaceInv pace settings (start now settings watchdog) :=
  .of_since rfl (by rintro ⟨⟩) rfl

/-! ## The repairs come round -/

/-- A pass by which the loop repairs. -/
inductive Repair
  | prune
  | ensure

/-- The pass is this repair. -/
def Repair.IsPass : Repair → Watchdog.Pass → Bool
  | .prune, .pruneDeadRelays _ => true
  | .ensure, .ensureListenerRelays _ _ => true
  | _, _ => false

/-- The step does not keep this repair from being over. -/
def Repair.Allows : Repair → RelayWatchdogAction → Prop
  | .ensure, .ensureRaises => False
  | _, _ => True

instance : (kind : Repair) → (a : RelayWatchdogAction) → Decidable (kind.Allows a)
  | .ensure, .ensureRaises => inferInstanceAs (Decidable False)
  | .prune, _ => inferInstanceAs (Decidable True)
  | .ensure, .advance _ | .ensure, .setSettings _ | .ensure, .wake | .ensure, .pruned _
  | .ensure, .ensured _ _ | .ensure, .pinged _ _ _ _ _ | .ensure, .subscribe _
  | .ensure, .cancel => inferInstanceAs (Decidable True)

/-- A pass of a kind began since a state, and is over. -/
def PassedSince (s₀ s : RelayWatchdog) (kind : Watchdog.Pass → Bool) : Prop :=
  ∃ x ∈ s.log.drop s₀.log.length, s₀.now ≤ x.began ∧ kind x.pass = true

/-- By when, counted from any moment, the loop began what it awaits, if since then this repair has
not begun and come to its end. -/
def Repair.within (pace : Pace) (intervalSec : ℤ) : Repair → RelayWatchdogStage → Time
  | .prune, .ensuring => pace.prune
  | .prune, .pinging => pace.prune + pace.ensure
  | .prune, .sleeping _ => pace.prune + pace.ensure + pace.ping
  | .prune, .pruning => pace.prune + pace.ensure + pace.ping + (intervalSec + pace.latency)
  | .ensure, .pinging => pace.ensure
  | .ensure, .sleeping _ => pace.ensure + pace.ping
  | .ensure, .pruning => pace.ensure + pace.ping + (intervalSec + pace.latency)
  | .ensure, .ensuring =>
    pace.ensure + pace.ping + (intervalSec + pace.latency) + pace.prune
  | _, .cancelled => 0

theorem PassedSince.mono {kind : Watchdog.Pass → Bool} (h : s₀.PassedSince s kind)
    (hearlier : s.log <+: t.log) : s₀.PassedSince t kind := by
  obtain ⟨x, hx, hpass⟩ := h
  exact ⟨x, (hearlier.drop _).subset hx, hpass⟩

/-- The pass that is over is the one. -/
theorem PassedSince.of_log {kind : Watchdog.Pass → Bool} {x : PassRecord}
    (hearlier : s₀.log <+: s.log) (hlog : t.log = s.log ++ [x]) (hbegan : s₀.now ≤ x.began)
    (hpass : kind x.pass = true) : s₀.PassedSince t kind := by
  refine ⟨x, ?_, hbegan, hpass⟩
  rw [hlog, List.drop_append_of_le_length hearlier.length_le]
  exact List.mem_append_right _ (List.mem_singleton_self x)

/-- After a repair, the loop is where it is in time. -/
theorem since_afterRepair {kind : Repair}
    (h : s.now ≤ s₀.now + kind.within pace s.watchdogIntervalSec .pinging) :
    s.afterRepair.since ≤
      s₀.now + kind.within pace s.afterRepair.watchdogIntervalSec s.afterRepair.stage := by
  obtain ⟨-, -, heq⟩ | ⟨-, heq⟩ := s.afterRepair_cases
  · rw [heq]
    exact h
  · rw [heq]
    show s.now ≤ s₀.now + kind.within pace s.watchdogIntervalSec (.sleeping _)
    have hping := pace.ping_nonneg
    cases kind <;> simp only [Repair.within] at h ⊢ <;> linarith

/-- One step of the round. -/
theorem repair_step {kind : Repair} (hpace : PaceInv pace settings s)
    (hearlier : s₀.log <+: s.log)
    (hsince : s.since ≤ s₀.now + kind.within pace s.watchdogIntervalSec s.stage)
    (hkeeps : s.KeepsPace pace a) (hallows : kind.Allows a)
    (hstep : s.step normalizeUrl a = some t) :
    s₀.PassedSince t kind.IsPass ∨
      t.since ≤ s₀.now + kind.within pace t.watchdogIntervalSec t.stage := by
  have hnow := hpace.inTime
  have hping := pace.ping_nonneg
  cases step_effect hstep with
  | advance now hle => exact .inr hsince
  | setSettings settings => exact hkeeps.elim
  | wake wakeAt hstage hdue =>
    right
    show s.now ≤ s₀.now + kind.within pace s.watchdogIntervalSec .pruning
    rw [hstage] at hsince
    simp only [lasts, hstage] at hnow
    cases kind <;> simp only [Repair.within] at hsince ⊢ <;> linarith
  | pruned connection hstage =>
    rw [hstage] at hsince
    simp only [lasts, hstage] at hnow
    -- a prune that began before the state does not count, but was over in time
    by_cases hfresh : kind.IsPass (.pruneDeadRelays connection) = true ∧ s₀.now ≤ s.since
    · exact .inl (.of_log hearlier rfl hfresh.2 hfresh.1)
    · right
      show s.now ≤ s₀.now + kind.within pace s.watchdogIntervalSec .ensuring
      cases kind with
      | prune =>
        have hstale : s.since < s₀.now := not_le.1 fun hle => hfresh ⟨rfl, hle⟩
        simp only [Repair.within]
        linarith
      | ensure =>
        simp only [Repair.within] at hsince ⊢
        linarith
  | ensured listenRelayUrls outcomes hstage =>
    rw [hstage] at hsince
    simp only [lasts, hstage] at hnow
    set u := s.perform normalizeUrl s.since (.ensureListenerRelays listenRelayUrls outcomes)
    -- nor does such an attachment
    by_cases hfresh : kind.IsPass (.ensureListenerRelays listenRelayUrls outcomes) = true ∧
        s₀.now ≤ s.since
    · exact .inl (.of_log hearlier (log_afterRepair u) hfresh.2 hfresh.1)
    · refine .inr (since_afterRepair (s := u) ?_)
      show s.now ≤ s₀.now + kind.within pace s.watchdogIntervalSec .pinging
      cases kind with
      | prune =>
        simp only [Repair.within] at hsince ⊢
        linarith
      | ensure =>
        have hstale : s.since < s₀.now := not_le.1 fun hle => hfresh ⟨rfl, hle⟩
        simp only [Repair.within]
        linarith
  | ensureRaises hstage =>
    rw [hstage] at hsince
    simp only [lasts, hstage] at hnow
    cases kind with
    | prune =>
      refine .inr (since_afterRepair ?_)
      simp only [Repair.within] at hsince ⊢
      linarith
    | ensure => exact hallows.elim
  | pinged ping echoed now listenRelayUrls outcomes hstage =>
    right
    show s.now ≤ s₀.now + kind.within pace s.watchdogIntervalSec (.sleeping _)
    rw [hstage] at hsince
    simp only [lasts, hstage] at hnow
    cases kind <;> simp only [Repair.within] at hsince ⊢ <;> linarith
  | subscribe subscriptions => exact .inr hsince
  | cancel hstage => exact hkeeps.elim

/-- How long a round of the loop takes at most. -/
def round (pace : Pace) (settings : ListenerSettings) : Time :=
  (max 1 settings.watchdogIntervalSec : ℤ) + pace.latency + pace.prune + pace.ensure + pace.ping

/-- How long a repair takes at most. -/
def Repair.lasts (pace : Pace) : Repair → Time
  | .prune => pace.prune
  | .ensure => pace.ensure

theorem intervalSec_nonneg (s : RelayWatchdog) : (0 : Time) ≤ s.watchdogIntervalSec := by
  exact_mod_cast zero_le_one.trans (le_max_left 1 s.settings.watchdogIntervalSec)

theorem within_nonneg (kind : Repair) (s : RelayWatchdog) :
    0 ≤ kind.within pace s.watchdogIntervalSec s.stage := by
  have hinterval := s.intervalSec_nonneg
  have hlatency := pace.latency_nonneg
  have hprune := pace.prune_nonneg
  have hensure := pace.ensure_nonneg
  have hping := pace.ping_nonneg
  unfold Repair.within
  split <;> linarith

/-- The round and the repair leave time for what the loop awaits. -/
theorem within_add_lasts (pace : Pace) (kind : Repair) (s : RelayWatchdog)
    (hrunning : s.stage ≠ .cancelled) :
    kind.within pace s.watchdogIntervalSec s.stage + s.lasts pace ≤
      round pace s.settings + kind.lasts pace := by
  have hinterval := s.intervalSec_nonneg
  have hlatency := pace.latency_nonneg
  have hprune := pace.prune_nonneg
  have hensure := pace.ensure_nonneg
  have hping := pace.ping_nonneg
  have hround : round pace s.settings = s.watchdogIntervalSec + pace.latency + pace.prune +
    pace.ensure + pace.ping := rfl
  rw [hround, lasts]
  cases hstage : s.stage with
  | cancelled => exact absurd hstage hrunning
  | _ => cases kind <;> simp only [Repair.within, Repair.lasts] <;> linarith

/-- What a run that allows a repair keeps since a state. -/
structure RepairInv (pace : Pace) (settings : ListenerSettings) (kind : Repair)
    (s₀ s : RelayWatchdog) : Prop where
  inPace : PaceInv pace settings s
  log : s₀.log <+: s.log
  round : s₀.PassedSince s kind.IsPass ∨
    s.since ≤ s₀.now + kind.within pace s.watchdogIntervalSec s.stage

theorem repairInv {kind : Repair} (hpace : PaceInv pace settings s₀)
    (h : Reachable normalizeUrl (fun s a => s.KeepsPace pace a ∧ kind.Allows a) s₀ s) :
    RepairInv pace settings kind s₀ s := by
  refine h.invariant ⟨hpace, List.prefix_refl _, .inr ?_⟩ ?_
  · exact hpace.since_le.trans (le_add_of_nonneg_right (within_nonneg kind s₀))
  · rintro u a v hu ⟨hkeeps, hallows⟩ hstep
    have hlog := log_prefix_step hstep
    refine ⟨paceInv_step hu.inPace hkeeps hstep, hu.log.trans hlog, ?_⟩
    rcases hu.round with hpassed | hsince
    · exact .inl (hpassed.mono hlog)
    · exact repair_step hu.inPace hu.log hsince hkeeps hallows hstep

/-- From any moment on, each repair comes round. -/
theorem repair_comes_round {kind : Repair} (hpace : PaceInv pace settings s₀)
    (h : Reachable normalizeUrl (fun s a => s.KeepsPace pace a ∧ kind.Allows a) s₀ s)
    (hlate : s₀.now + (round pace settings + kind.lasts pace) < s.now) :
    s₀.PassedSince s kind.IsPass := by
  obtain ⟨hs, -, hround⟩ := repairInv hpace h
  -- the loop would have begun what it awaits longer ago than that may take
  refine hround.resolve_right fun hsince => ?_
  have hwithin := within_add_lasts pace kind s hs.running
  rw [hs.settings] at hwithin
  linarith [hs.inTime]

/-! ## The pings come round -/

/-- How long a ping takes beyond the interval of the pings, at most. -/
def overrun (pace : Pace) (s : RelayWatchdog) : Time :=
  max 0 (pace.ping - s.listenerPingIntervalSec)

/-- By how much the loop can be behind a ping that is due when it begins what it awaits. -/
def behind (pace : Pace) (s : RelayWatchdog) : Time :=
  match s.stage with
  | .sleeping _ => s.overrun pace
  | .pruning => s.overrun pace + (s.watchdogIntervalSec + pace.latency)
  | .ensuring => s.overrun pace + (s.watchdogIntervalSec + pace.latency) + pace.prune
  | .pinging | .cancelled => 0

/-- What a run that keeps the pace keeps while the pings are on. -/
structure PingInv (pace : Pace) (s : RelayWatchdog) : Prop where
  enabled : 0 < s.listenerPingIntervalSec
  next_le : s.nextPing ≤ s.now + s.listenerPingIntervalSec
  pinging : s.stage = .pinging → s.nextPing = s.since + s.listenerPingIntervalSec
  since_le : s.since ≤ s.nextPing + s.behind pace

theorem overrun_nonneg (pace : Pace) (s : RelayWatchdog) : 0 ≤ s.overrun pace := le_max_left _ _

theorem PingInv.afterRepair (h : PingInv pace s) : PingInv pace s.afterRepair := by
  have hon : (0 : Time) < s.listenerPingIntervalSec := by exact_mod_cast h.enabled
  obtain ⟨-, -, heq⟩ | ⟨hnot, heq⟩ := s.afterRepair_cases
  · rw [heq]
    refine ⟨h.enabled, le_rfl, fun _ => rfl, ?_⟩
    show s.now ≤ s.now + s.listenerPingIntervalSec + 0
    linarith
  · rw [heq]
    refine ⟨h.enabled, h.next_le, by rintro ⟨⟩, ?_⟩
    show s.now ≤ s.nextPing + s.overrun pace
    -- the loop sleeps because no ping is due
    have hearly : s.now < s.nextPing := hnot.resolve_left h.enabled.ne'
    linarith [s.overrun_nonneg pace]

theorem pingInv_step (h : PingInv pace s) (hpace : PaceInv pace settings s)
    (hkeeps : s.KeepsPace pace a) (hstep : s.step normalizeUrl a = some t) : PingInv pace t := by
  have hnow := hpace.inTime
  have hsince := h.since_le
  cases step_effect hstep with
  | advance now hle =>
    exact ⟨h.enabled, h.next_le.trans (add_le_add hle le_rfl), h.pinging, h.since_le⟩
  | setSettings settings => exact hkeeps.elim
  | wake wakeAt hstage hdue =>
    refine ⟨h.enabled, h.next_le, by rintro ⟨⟩, ?_⟩
    show s.now ≤ s.nextPing + (s.overrun pace + (s.watchdogIntervalSec + pace.latency))
    simp only [lasts, behind, hstage] at hnow hsince
    linarith
  | pruned connection hstage =>
    refine ⟨h.enabled, h.next_le, by rintro ⟨⟩, ?_⟩
    show s.now ≤ s.nextPing +
      (s.overrun pace + (s.watchdogIntervalSec + pace.latency) + pace.prune)
    simp only [lasts, behind, hstage] at hnow hsince
    linarith
  | ensured listenRelayUrls outcomes hstage =>
    exact PingInv.afterRepair ⟨h.enabled, h.next_le, h.pinging, h.since_le⟩
  | ensureRaises hstage => exact h.afterRepair
  | pinged ping echoed now listenRelayUrls outcomes hstage =>
    refine ⟨h.enabled, h.next_le, by rintro ⟨⟩, ?_⟩
    show s.now ≤ s.nextPing + s.overrun pace
    -- the next ping was due an interval after this one began
    have hover : pace.ping - s.listenerPingIntervalSec ≤ s.overrun pace := le_max_right _ _
    have hnext := h.pinging hstage
    simp only [lasts, hstage] at hnow
    linarith
  | subscribe subscriptions => exact ⟨h.enabled, h.next_le, h.pinging, h.since_le⟩
  | cancel hstage => exact hkeeps.elim

theorem pingInv_start (hon : 0 < settings.listenerPingIntervalSec) :
    PingInv pace (start now settings watchdog) := by
  have hpositive : 0 < (start now settings watchdog).listenerPingIntervalSec :=
    lt_of_lt_of_le hon (le_max_right 0 _)
  have hcast : (0 : Time) < (start now settings watchdog).listenerPingIntervalSec := by
    exact_mod_cast hpositive
  refine ⟨hpositive, le_rfl, by rintro ⟨⟩, ?_⟩
  show now ≤ now + (start now settings watchdog).listenerPingIntervalSec +
    (start now settings watchdog).overrun pace
  linarith [(start now settings watchdog).overrun_nonneg pace]

/-- Where the loop is, as long as no ping that began since a state is over: it awaits such a ping,
or the next one is not due for more than the interval. -/
def PingDue (pace : Pace) (s₀ s : RelayWatchdog) : Prop :=
  (s.stage = .pinging ∧ s₀.now ≤ s.since ∧
    s.since ≤ s₀.now + s.listenerPingIntervalSec + (s.overrun pace +
      (s.watchdogIntervalSec + pace.latency) + pace.prune + pace.ensure)) ∨
  (s.nextPing ≤ s₀.now + s.listenerPingIntervalSec ∧
    (s.stage = .pinging → s.since < s₀.now))

theorem PingDue.afterRepair (h : PingDue pace s₀ s) (hinv : PingInv pace s)
    (hpace : PaceInv pace settings s) (hlater : s₀.now ≤ s.now) (hstage : s.stage = .ensuring) :
    PingDue pace s₀ s.afterRepair := by
  obtain ⟨hpinging, -⟩ | ⟨hnext, -⟩ := h
  · cases hstage.symm.trans hpinging
  obtain ⟨-, -, heq⟩ | ⟨-, heq⟩ := s.afterRepair_cases
  · have hnow := hpace.inTime
    have hsince := hinv.since_le
    simp only [lasts, behind, hstage] at hnow hsince
    rw [heq]
    refine .inl ⟨rfl, hlater, ?_⟩
    show s.now ≤ s₀.now + s.listenerPingIntervalSec + (s.overrun pace +
      (s.watchdogIntervalSec + pace.latency) + pace.prune + pace.ensure)
    linarith
  · rw [heq]
    exact .inr ⟨hnext, by rintro ⟨⟩⟩

/-- One step of the round. -/
theorem pingDue_step (h : PingDue pace s₀ s) (hinv : PingInv pace s)
    (hpace : PaceInv pace settings s) (hearlier : s₀.log <+: s.log) (hlater : s₀.now ≤ s.now)
    (hkeeps : s.KeepsPace pace a) (hstep : s.step normalizeUrl a = some t) :
    s₀.PassedSince t IsPing ∨ PingDue pace s₀ t := by
  cases step_effect hstep with
  | advance now hle => exact .inr h
  | setSettings settings => exact hkeeps.elim
  | wake wakeAt hstage hdue =>
    obtain ⟨hpinging, -⟩ | ⟨hnext, -⟩ := h
    · cases hstage.symm.trans hpinging
    · exact .inr (.inr ⟨hnext, by rintro ⟨⟩⟩)
  | pruned connection hstage =>
    obtain ⟨hpinging, -⟩ | ⟨hnext, -⟩ := h
    · cases hstage.symm.trans hpinging
    · exact .inr (.inr ⟨hnext, by rintro ⟨⟩⟩)
  | ensured listenRelayUrls outcomes hstage =>
    set u := s.perform normalizeUrl s.since (.ensureListenerRelays listenRelayUrls outcomes)
    have hu : PingInv pace u := ⟨hinv.enabled, hinv.next_le, hinv.pinging, hinv.since_le⟩
    have hin : PaceInv pace settings u :=
      ⟨hpace.settings, hpace.running, hpace.since_le, hpace.inTime⟩
    exact .inr (PingDue.afterRepair (s := u) h hu hin hlater hstage)
  | ensureRaises hstage => exact .inr (h.afterRepair hinv hpace hlater hstage)
  | pinged ping echoed now listenRelayUrls outcomes hstage =>
    obtain ⟨-, hfresh, -⟩ | ⟨hnext, -⟩ := h
    · exact .inl (.of_log hearlier rfl hfresh rfl)
    · exact .inr (.inr ⟨hnext, by rintro ⟨⟩⟩)
  | subscribe subscriptions => exact .inr h
  | cancel hstage => exact hkeeps.elim

/-- What a run that keeps the pace keeps since a state, while the pings are on. -/
structure ListeningInv (pace : Pace) (settings : ListenerSettings) (s₀ s : RelayWatchdog) :
    Prop where
  inPace : PaceInv pace settings s
  ping : PingInv pace s
  log : s₀.log <+: s.log
  later : s₀.now ≤ s.now
  round : s₀.PassedSince s IsPing ∨ PingDue pace s₀ s

theorem now_le_of_step (hstep : s.step normalizeUrl a = some t) : s.now ≤ t.now := by
  have hafter : ∀ u : RelayWatchdog, u.now ≤ u.afterRepair.now := by
    intro u
    obtain ⟨-, -, heq⟩ | ⟨-, heq⟩ := u.afterRepair_cases
    · rw [heq]
    · rw [heq]
      exact le_rfl
  cases step_effect hstep with
  | advance now hle => exact hle
  | ensured listenRelayUrls outcomes hstage =>
    exact hafter (s.perform normalizeUrl s.since _)
  | ensureRaises hstage => exact hafter s
  | _ => exact le_rfl

theorem listeningInv (hpace : PaceInv pace settings s₀) (hping : PingInv pace s₀)
    (h : Reachable normalizeUrl (KeepsPace pace) s₀ s) : ListeningInv pace settings s₀ s := by
  refine h.invariant ⟨hpace, hping, List.prefix_refl _, le_rfl, .inr ?_⟩ ?_
  · by_cases hfresh : s₀.stage = .pinging ∧ s₀.now ≤ s₀.since
    · have hover := s₀.overrun_nonneg pace
      have hinterval := s₀.intervalSec_nonneg
      have hon : (0 : Time) < s₀.listenerPingIntervalSec := by exact_mod_cast hping.enabled
      refine .inl ⟨hfresh.1, hfresh.2, ?_⟩
      linarith [hpace.since_le, pace.latency_nonneg, pace.prune_nonneg, pace.ensure_nonneg]
    · exact .inr ⟨hping.next_le, fun hstage => not_le.1 fun hle => hfresh ⟨hstage, hle⟩⟩
  · intro u a v hu hkeeps hstep
    have hlog := log_prefix_step hstep
    refine ⟨paceInv_step hu.inPace hkeeps hstep, pingInv_step hu.ping hu.inPace hkeeps hstep,
      hu.log.trans hlog, hu.later.trans (now_le_of_step hstep), ?_⟩
    rcases hu.round with hpassed | hdue
    · exact .inl (hpassed.mono hlog)
    · exact pingDue_step hdue hu.ping hu.inPace hu.log hu.later hkeeps hstep

/-- From any moment on, a ping comes round. -/
theorem ping_comes_round (hpace : PaceInv pace settings s₀) (hping : PingInv pace s₀)
    (h : Reachable normalizeUrl (KeepsPace pace) s₀ s)
    (hlate : s₀.now + (max (settings.listenerPingIntervalSec : Time) pace.ping +
      round pace settings) < s.now) : s₀.PassedSince s IsPing := by
  obtain ⟨hs, hinv, -, -, hround⟩ := listeningInv hpace hping h
  refine hround.resolve_right fun hdue => ?_
  have hnow := hs.inTime
  have hsince := hinv.since_le
  have hinterval := s.intervalSec_nonneg
  have hon : (0 : Time) < s.listenerPingIntervalSec := by exact_mod_cast hinv.enabled
  have hpositive : s.listenerPingIntervalSec = settings.listenerPingIntervalSec := by
    have hset : 0 < s.settings.listenerPingIntervalSec :=
      (lt_max_iff.1 hinv.enabled).resolve_left (lt_irrefl 0)
    rw [listenerPingIntervalSec, max_eq_right hset.le, hs.settings]
  have hlong : s.listenerPingIntervalSec + s.overrun pace =
      max (settings.listenerPingIntervalSec : Time) pace.ping := by
    rw [overrun, hpositive, ← max_add_add_left, add_zero, add_sub_cancel]
  have hlength : round pace settings = s.watchdogIntervalSec + pace.latency + pace.prune +
      pace.ensure + pace.ping := by
    rw [watchdogIntervalSec, hs.settings, round]
  have hlatency := pace.latency_nonneg
  have hprune := pace.prune_nonneg
  have hensure := pace.ensure_nonneg
  have hping := pace.ping_nonneg
  have hover := s.overrun_nonneg pace
  -- no ping has passed: either the one under way began too long ago, or the next is overdue
  obtain ⟨hstage, -, hbegan⟩ | ⟨hnext, hbegan⟩ := hdue
  · simp only [lasts, hstage] at hnow
    linarith
  · unfold lasts at hnow
    unfold behind at hsince
    cases hstage : s.stage with
    | cancelled => exact hs.running hstage
    | pinging =>
      have hold := hbegan hstage
      simp only [hstage] at hnow
      linarith
    | _ =>
      simp only [hstage] at hnow hsince
      linarith

/-! ## What the watchdog achieves -/

/-- Between two states of a run, the manager went through the passes of the log. -/
theorem watchdog_eq_run {firstPing : Time} (h₀ : CadenceInv normalizeUrl watchdog firstPing s₀)
    (h : CadenceInv normalizeUrl watchdog firstPing s) (hearlier : s₀.log <+: s.log) :
    s.watchdog = s₀.watchdog.run normalizeUrl
      ((s.log.drop s₀.log.length).map PassRecord.pass) := by
  obtain ⟨rest, hlog⟩ := hearlier
  rw [← hlog, List.drop_left, h.run, ← hlog, List.map_append, Watchdog.run_append, ← h₀.run]

/-- The pace of the sample. -/
def samplePace : Pace where
  latency := 1
  prune := 1
  ensure := 5
  ping := 30
  latency_nonneg := by decide
  prune_nonneg := by decide
  ensure_nonneg := by decide
  ping_nonneg := by decide

theorem reachable_sampleStart : Reachable Watchdog.sampleNormalizeUrl (KeepsPace samplePace)
    (start 0 sampleSettings (.start (.sample 100 60) (some Watchdog.sampleManager))) sampleStart :=
  .init

theorem holds_sampleStart : sampleStart.watchdog.Holds sampleRelay :=
  ⟨Watchdog.sampleManager, rfl, by decide +kernel⟩

theorem isPing_sampleRound {wakeAt : Time} {dead : Watchdog.Relay → Bool} {p : Watchdog.Pass}
    (ha : a ∈ sampleRound wakeAt dead) (hp : a.pass? = some p) : IsPing p = false := by
  simp only [sampleRound, List.mem_cons, List.not_mem_nil, or_false] at ha
  rcases ha with rfl | rfl | rfl | rfl <;> cases hp <;> rfl

/-- A run of the sample that meets a condition, up to a moment. -/
theorem exists_sample_run (P : RelayWatchdog → RelayWatchdogAction → Prop)
    [∀ s a, Decidable (P s a)] (as : List RelayWatchdogAction) (now : Time)
    (h : (Transition.exec (Transition.guarded (step Watchdog.sampleNormalizeUrl) P) sampleStart
      as).any (fun s => decide (s.now = now)) = true) :
    ∃ s, Reachable Watchdog.sampleNormalizeUrl P sampleStart s ∧ s.now = now ∧
      s.log.map PassRecord.pass = as.filterMap RelayWatchdogAction.pass? := by
  obtain ⟨s, hexec, hnow⟩ := (Option.any_eq_true _ _).1 h
  exact ⟨s, Transition.reachable_of_exec_guarded hexec, of_decide_eq_true hnow,
    log_of_exec (Transition.exec_of_guarded hexec)⟩

section Runs

variable {server : ClinkServer} {m₀ : Watchdog.Manager} {relay : Watchdog.Relay}
  (hidem : ∀ url, normalizeUrl (normalizeUrl url) = normalizeUrl url)
  (hbuilt : m₀.Built normalizeUrl) (hconnected : m₀.connected = true)
  (h₀ : Reachable normalizeUrl (KeepsPace pace) (start now settings (.start server (some m₀))) s₀)

include h₀ in
theorem paceInv : PaceInv pace settings s₀ :=
  h₀.invariant paceInv_start fun _ _ _ hu hkeeps hstep => paceInv_step hu hkeeps hstep

include h₀ in
theorem pingInv (hon : 0 < settings.listenerPingIntervalSec) : PingInv pace s₀ := by
  have hinv : PaceInv pace settings s₀ ∧ PingInv pace s₀ := by
    refine h₀.invariant (I := fun u => PaceInv pace settings u ∧ PingInv pace u)
      ⟨paceInv_start, pingInv_start hon⟩ ?_
    rintro u a v ⟨hu, hping⟩ hkeeps hstep
    exact ⟨paceInv_step hu hkeeps hstep, pingInv_step hping hu hkeeps hstep⟩
  exact hinv.2

include hconnected h₀ in
theorem connected_of_reachable : s₀.watchdog.Connected := by
  have hstart : (Watchdog.start server (some m₀)).Connected := by
    rintro _ ⟨⟩
    exact hconnected
  rw [(cadenceInv h₀).run]
  exact hstart.run _

include hidem hbuilt hconnected h₀ in
/-- A relay that the manager held, and that a later pass finds fault with, it holds no more. -/
theorem not_holds_of_blamed (h : Reachable normalizeUrl (KeepsPace pace) s₀ s)
    (hheld : s₀.watchdog.Holds relay)
    (hblamed : ∃ x ∈ s.log.drop s₀.log.length, x.pass.Blames relay) :
    ¬ s.watchdog.Holds relay := by
  obtain ⟨x, hx, hblames⟩ := hblamed
  have hs := cadenceInv (h₀.trans h)
  have hearlier : s₀.log <+: s.log :=
    h.invariant (I := fun u => s₀.log <+: u.log) (List.prefix_refl _)
      fun _ _ _ hu _ hstep => hu.trans (log_prefix_step hstep)
  have hclosed : relay ∈ s.watchdog.closed := by
    rw [watchdog_eq_run (cadenceInv h₀) hs hearlier]
    exact Watchdog.mem_closed_run (connected_of_reachable hconnected h₀) hheld
      (List.mem_map_of_mem hx) hblames
  rintro ⟨m, hm, hrelay⟩
  rw [hs.run] at hclosed hm
  exact ((Watchdog.passInv_run hidem hbuilt server (List.Subset.refl _)).closed m hm relay
    hclosed).2 hrelay

include hidem hbuilt hconnected h₀ in
/-- A relay that falls silent is dropped in time: when every self-ping that begins from then on
finds fault with it, the manager does not hold it any more after a round and an interval of the
pings, or the duration of one if that is longer. -/
theorem silent_relay_dropped (hon : 0 < settings.listenerPingIntervalSec)
    (h : Reachable normalizeUrl (KeepsPace pace) s₀ s) (hheld : s₀.watchdog.Holds relay)
    (hsilent : ∀ x ∈ s.log.drop s₀.log.length, s₀.now ≤ x.began → IsPing x.pass = true →
      x.pass.Blames relay)
    (hlate : s₀.now + (max (settings.listenerPingIntervalSec : Time) pace.ping +
      round pace settings) < s.now) : ¬ s.watchdog.Holds relay := by
  obtain ⟨x, hx, hbegan, hping⟩ := ping_comes_round (paceInv h₀) (pingInv h₀ hon) h hlate
  exact not_holds_of_blamed hidem hbuilt hconnected h₀ h hheld
    ⟨x, hx, hsilent x hx hbegan hping⟩

/-- The relay that does not answer the ping of the sample is dropped. -/
theorem silent_relay_dropped_sample :
    ∃ s, Reachable Watchdog.sampleNormalizeUrl (KeepsPace samplePace) sampleStart s ∧
      s.now = 270 ∧ ¬ s.watchdog.Holds sampleRelay := by
  obtain ⟨s, hs, hnow, hlog⟩ := exists_sample_run (KeepsPace samplePace) sampleActions 270
    (by decide +kernel)
  have hon : 0 < sampleSettings.listenerPingIntervalSec := by decide
  have hlate : sampleStart.now + (max (sampleSettings.listenerPingIntervalSec : Time)
      samplePace.ping + round samplePace sampleSettings) < s.now := by
    rw [hnow]
    decide +kernel
  refine ⟨s, hs, hnow, silent_relay_dropped Watchdog.sampleNormalizeUrl_idem
    Watchdog.built_sampleManager rfl reachable_sampleStart hon hs holds_sampleStart ?_ hlate⟩
  rintro x hx - hping
  have hmem : x.pass ∈ sampleActions.filterMap RelayWatchdogAction.pass? :=
    hlog ▸ List.mem_map_of_mem (List.mem_of_mem_drop hx)
  obtain ⟨a, ha, hpass⟩ := List.mem_filterMap.1 hmem
  have hnot : ∀ wakeAt dead, a ∉ sampleRound wakeAt dead := fun wakeAt dead hround =>
    Bool.false_ne_true ((isPing_sampleRound hround hpass).symm.trans hping)
  simp only [sampleActions, List.mem_append, List.mem_cons, List.not_mem_nil, hnot, or_false,
    false_or] at ha
  rcases ha with rfl | rfl
  · cases hpass
  · rw [← Option.some.inj hpass]
    refine ⟨rfl, fun other hother => ?_⟩
    by_contra hne
    simp only [if_neg hne, if_pos] at hother
    exact absurd hother (by decide)

include hidem hbuilt hconnected h₀ in
/-- A relay whose connection breaks is dropped in time: when it is seen to be broken by every prune
that begins from then on, the manager does not hold it any more after a round and a prune. -/
theorem broken_relay_dropped (h : Reachable normalizeUrl (KeepsPace pace) s₀ s)
    (hheld : s₀.watchdog.Holds relay)
    (hbroken : ∀ x ∈ s.log.drop s₀.log.length, s₀.now ≤ x.began → ∀ connection,
      x.pass = .pruneDeadRelays connection →
        Watchdog.relayConnectionDead (connection relay) = true)
    (hlate : s₀.now + (round pace settings + pace.prune) < s.now) :
    ¬ s.watchdog.Holds relay := by
  have hround : Reachable normalizeUrl (fun u a => u.KeepsPace pace a ∧ Repair.prune.Allows a) s₀
    s := h.mono fun _ _ hkeeps => ⟨hkeeps, trivial⟩
  obtain ⟨x, hx, hbegan, hprune⟩ := repair_comes_round (paceInv h₀) hround hlate
  refine not_holds_of_blamed hidem hbuilt hconnected h₀ h hheld ⟨x, hx, ?_⟩
  cases hpass : x.pass with
  | pruneDeadRelays connection => exact hbroken x hx hbegan connection hpass
  | _ => rw [hpass] at hprune; cases hprune

/-- The relay whose connection breaks in the sample is dropped. -/
theorem broken_relay_dropped_sample :
    ∃ s, Reachable Watchdog.sampleNormalizeUrl (KeepsPace samplePace) sampleStart s ∧
      s.now = 99 ∧ ¬ s.watchdog.Holds sampleRelay := by
  obtain ⟨s, hs, hnow, hlog⟩ := exists_sample_run (KeepsPace samplePace)
    (sampleRound 60 (fun relay => relay == sampleRelay) ++ [.advance 99]) 99
    (by decide +kernel)
  have hlate : sampleStart.now + (round samplePace sampleSettings + samplePace.prune) < s.now := by
    rw [hnow]
    decide +kernel
  refine ⟨s, hs, hnow, broken_relay_dropped Watchdog.sampleNormalizeUrl_idem
    Watchdog.built_sampleManager rfl reachable_sampleStart hs holds_sampleStart ?_ hlate⟩
  rintro x hx - connection hconnection
  have hmem := hlog ▸ List.mem_map_of_mem (f := PassRecord.pass) (List.mem_of_mem_drop hx)
  rw [hconnection] at hmem
  obtain ⟨a, ha, hpass⟩ := List.mem_filterMap.1 hmem
  simp only [sampleRound, List.mem_append, List.mem_cons, List.not_mem_nil, or_false] at ha
  rcases ha with (rfl | rfl | rfl | rfl) | rfl <;> cases hpass
  rfl

include hidem hconnected h₀ in
/-- A URL to listen on that no relay of the manager carries is tried in time: when every attachment
that begins from then on is to listen on it, and none raises before it changes anything, an update
has tried it after a round and an attachment. -/
theorem missing_relay_tried {url : String}
    (h : Reachable normalizeUrl (fun u a => u.KeepsPace pace a ∧ Repair.ensure.Allows a) s₀ s)
    (hmissing : ¬ s₀.watchdog.SitsOn url)
    (hlisten : ∀ x ∈ s.log.drop s₀.log.length, s₀.now ≤ x.began → ∀ listenRelayUrls outcomes,
      x.pass = .ensureListenerRelays listenRelayUrls outcomes →
        Watchdog.Desired normalizeUrl listenRelayUrls url)
    (hlate : s₀.now + (round pace settings + pace.ensure) < s.now) :
    s.watchdog.TriedSince s₀.watchdog.updates.length url := by
  have hkeeps : Reachable normalizeUrl (KeepsPace pace) s₀ s := h.mono fun _ _ hP => hP.1
  obtain ⟨x, hx, hbegan, hensure⟩ := repair_comes_round (paceInv h₀) h hlate
  have hmanager : s₀.watchdog.manager.isSome = true := by
    rw [(cadenceInv h₀).run]
    exact Watchdog.isSome_manager_run rfl _
  rw [watchdog_eq_run (cadenceInv h₀) (cadenceInv (h₀.trans hkeeps))
    (repairInv (paceInv h₀) h).log]
  cases hpass : x.pass with
  | ensureListenerRelays listenRelayUrls outcomes =>
    have hmem : .ensureListenerRelays listenRelayUrls outcomes ∈
        (s.log.drop s₀.log.length).map PassRecord.pass :=
      List.mem_map.2 ⟨x, hx, hpass⟩
    exact Watchdog.tried_run hidem (connected_of_reachable hconnected h₀) hmanager hmissing hmem
      (hlisten x hx hbegan listenRelayUrls outcomes hpass)
  | _ => rw [hpass] at hensure; cases hensure

/-- The third URL of the sample is tried. -/
theorem missing_relay_tried_sample :
    ∃ s : RelayWatchdog, s.now = 103 ∧ s.watchdog.TriedSince 0 "wss://c.example" := by
  obtain ⟨s, hs, hnow, hlog⟩ := exists_sample_run
    (fun u a => u.KeepsPace samplePace a ∧ Repair.ensure.Allows a)
    [.advance 60, .wake, .pruned fun _ => ⟨true, some false, some false⟩,
      .ensured ["wss://A.example/", "wss://c.example"] ⟨fun _ => true, fun _ => true⟩,
      .advance 103] 103 (by decide +kernel)
  have hlate : sampleStart.now + (round samplePace sampleSettings + samplePace.ensure) < s.now := by
    rw [hnow]
    decide +kernel
  have hmissing : ¬ sampleStart.watchdog.SitsOn "wss://c.example" := by
    rintro ⟨relay, ⟨_, ⟨⟩, hrelay⟩, hurl⟩
    have hurls := List.mem_map_of_mem (f := Watchdog.Relay.url) hrelay
    rw [hurl] at hurls
    exact absurd hurls (by decide +kernel)
  refine ⟨s, hnow, missing_relay_tried Watchdog.sampleNormalizeUrl_idem rfl reachable_sampleStart
    hs hmissing ?_ hlate⟩
  rintro x hx - listenRelayUrls outcomes hensure
  have hmem := hlog ▸ List.mem_map_of_mem (f := PassRecord.pass) (List.mem_of_mem_drop hx)
  rw [hensure] at hmem
  obtain ⟨a, ha, hpass⟩ := List.mem_filterMap.1 hmem
  simp only [List.mem_cons, List.not_mem_nil, or_false] at ha
  rcases ha with rfl | rfl | rfl | rfl | rfl <;> cases hpass
  exact ⟨"wss://c.example", by decide, by decide⟩

end Runs

end RelayWatchdog

end ElectrumClink
