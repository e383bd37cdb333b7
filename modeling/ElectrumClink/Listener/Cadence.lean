import ElectrumClink.Data.Transition
import ElectrumClink.Listener.Model
import ElectrumClink.Listener.Repair

/-!
# The rounds of the watchdog

`_relay_watchdog` sleeps, prunes the relays with broken connections, attaches the missing ones, and
every now and then pings the listener. `RelayWatchdog.step` performs what it does between two awaits
on the clock of the loop, over the passes of `Watchdog`.

Whatever is changed and raised meanwhile, a run performs its passes in this order, and its pings are
their interval apart (`pings_spaced`). While its settings are not changed and what it awaits is over
in time, no relay stays that is broken or silent: `broken_relay_dropped` and `silent_relay_dropped`
say how long it takes at most.
-/

namespace ElectrumClink

/-- Where `_relay_watchdog` is. -/
inductive RelayWatchdogStage
  | sleeping (wakeAt : Time)
  /-- It awaits `prune_dead_relays`. -/
  | pruning
  /-- It awaits `ensure_listener_relays`. -/
  | ensuring
  /-- It awaits `ping_listener`. -/
  | pinging
  | cancelled
deriving DecidableEq

/-- A pass that is over, with the times between which it ran. -/
structure PassRecord where
  began : Time
  ended : Time
  pass : Watchdog.Pass

/-- A self-ping of the listener, when it begins. -/
structure PingRound where
  began : Time
  /-- `ping_interval`, as it was read. -/
  interval : ℤ
deriving DecidableEq

/-- When the next ping is due. -/
def PingRound.due (p : PingRound) : Time := p.began + p.interval

/-- A server whose `_relay_watchdog` runs. -/
structure RelayWatchdog where
  /-- `time.monotonic()`, the clock of the loop. -/
  now : Time
  settings : ListenerSettings
  nextPing : Time
  stage : RelayWatchdogStage
  watchdog : Watchdog
  /-- When it began what it awaits; no step reads this, nor the next two. -/
  since : Time
  /-- The passes that are over. -/
  log : List PassRecord
  pings : List PingRound

/-- What can happen next. -/
inductive RelayWatchdogAction
  | advance (t : Time)
  | setSettings (settings : ListenerSettings)
  /-- The sleep is over. -/
  | wake
  /-- `prune_dead_relays` returns; it catches what a `close` raises. -/
  | pruned (connection : Watchdog.Relay → Watchdog.Connection)
  /-- `ensure_listener_relays` is over; `subscribe` may have raised in it. -/
  | ensured (listenRelayUrls : List String) (outcomes : Watchdog.Outcomes)
  /-- `ensure_listener_relays` raises before it changes anything. -/
  | ensureRaises
  /-- `ping_listener` is over. Where its `ensure_listener_relays` raises before it changes anything,
  that is as over no relays. -/
  | pinged (ping : Watchdog.Relay → EventId) (echoed : EventId → Bool) (now : Time)
      (listenRelayUrls : List String) (outcomes : Watchdog.Outcomes)
  /-- Subscriptions are opened or closed. -/
  | subscribe (subscriptions : Dict String Watchdog.Subscription)
  | cancel

/-- The pass that is over. -/
def RelayWatchdogAction.pass? : RelayWatchdogAction → Option Watchdog.Pass
  | .pruned connection => some (.pruneDeadRelays connection)
  | .ensured listenRelayUrls outcomes => some (.ensureListenerRelays listenRelayUrls outcomes)
  | .pinged ping echoed now listenRelayUrls outcomes =>
    some (.pingListener ping echoed now listenRelayUrls outcomes)
  | .subscribe subscriptions => some (.subscriptions subscriptions)
  | .advance _ | .setSettings _ | .wake | .ensureRaises | .cancel => none

namespace RelayWatchdog

/-- `watchdog_interval_sec`. -/
def watchdogIntervalSec (s : RelayWatchdog) : ℤ := max 1 s.settings.watchdogIntervalSec

/-- `listener_ping_interval_sec`. -/
def listenerPingIntervalSec (s : RelayWatchdog) : ℤ := max 0 s.settings.listenerPingIntervalSec

/-- It sleeps. -/
def sleep (s : RelayWatchdog) : RelayWatchdog :=
  { s with stage := .sleeping (s.now + s.watchdogIntervalSec), since := s.now }

/-- `_relay_watchdog`, up to its first await. -/
def start (now : Time) (settings : ListenerSettings) (watchdog : Watchdog) : RelayWatchdog :=
  let s : RelayWatchdog := ⟨now, settings, now, .cancelled, watchdog, now, [], []⟩
  { s with nextPing := now + s.listenerPingIntervalSec }.sleep

/-- A pass is over. -/
def perform (normalizeUrl : String → String) (s : RelayWatchdog) (began : Time)
    (pass : Watchdog.Pass) : RelayWatchdog :=
  { s with
    watchdog := s.watchdog.pass normalizeUrl pass
    log := s.log ++ [⟨began, s.now, pass⟩] }

/-- `_relay_watchdog`, from the end of a repair on. -/
def afterRepair (s : RelayWatchdog) : RelayWatchdog :=
  let pingInterval := s.listenerPingIntervalSec
  if pingInterval ≠ 0 ∧ s.nextPing ≤ s.now then
    { s with
      nextPing := s.now + pingInterval
      stage := .pinging
      since := s.now
      pings := s.pings ++ [⟨s.now, pingInterval⟩] }
  else s.sleep

/-- Perform an action, if it is enabled. -/
def step (normalizeUrl : String → String) (s : RelayWatchdog) :
    RelayWatchdogAction → Option RelayWatchdog
  | .advance t => if s.now ≤ t then some { s with now := t } else none
  | .setSettings settings => some { s with settings := settings }
  | .wake =>
    match s.stage with
    | .sleeping wakeAt =>
      if wakeAt ≤ s.now then some { s with stage := .pruning, since := s.now } else none
    | _ => none
  | .pruned connection =>
    if s.stage = .pruning then
      some { s.perform normalizeUrl s.since (.pruneDeadRelays connection) with
        stage := .ensuring, since := s.now }
    else none
  | .ensured listenRelayUrls outcomes =>
    if s.stage = .ensuring then
      some (s.perform normalizeUrl s.since
        (.ensureListenerRelays listenRelayUrls outcomes)).afterRepair
    else none
  | .ensureRaises => if s.stage = .ensuring then some s.afterRepair else none
  | .pinged ping echoed now listenRelayUrls outcomes =>
    if s.stage = .pinging then
      some (s.perform normalizeUrl s.since
        (.pingListener ping echoed now listenRelayUrls outcomes)).sleep
    else none
  | .subscribe subscriptions =>
    some (s.perform normalizeUrl s.now (.subscriptions subscriptions))
  | .cancel => if s.stage = .cancelled then none else some { s with stage := .cancelled }

/-- The states that a run of actions that meet `P` reaches. -/
abbrev Reachable (normalizeUrl : String → String) (P : RelayWatchdog → RelayWatchdogAction → Prop)
    (init : RelayWatchdog) : RelayWatchdog → Prop :=
  Transition.Reachable (step normalizeUrl) P init

/-! ## What a step does -/

variable {normalizeUrl : String → String} {s t : RelayWatchdog} {a : RelayWatchdogAction}

/-- After a repair it pings the listener when that is due, and sleeps otherwise. -/
theorem afterRepair_cases (s : RelayWatchdog) :
    (s.listenerPingIntervalSec ≠ 0 ∧ s.nextPing ≤ s.now ∧
      s.afterRepair = { s with
        nextPing := s.now + s.listenerPingIntervalSec
        stage := .pinging
        since := s.now
        pings := s.pings ++ [⟨s.now, s.listenerPingIntervalSec⟩] }) ∨
    ((s.listenerPingIntervalSec = 0 ∨ s.now < s.nextPing) ∧ s.afterRepair = s.sleep) := by
  unfold afterRepair
  dsimp only
  split
  next h => exact .inl ⟨h.1, h.2, rfl⟩
  next h =>
    refine .inr ⟨?_, rfl⟩
    rcases not_and_or.1 h with hoff | hearly
    · exact .inl (not_not.1 hoff)
    · exact .inr (not_le.1 hearly)

/-- What a step does: something beside the loop, or the end of what the loop awaits. -/
inductive Effect (normalizeUrl : String → String) (s : RelayWatchdog) :
    RelayWatchdogAction → RelayWatchdog → Prop
  | advance (now : Time) (hle : s.now ≤ now) :
    Effect normalizeUrl s (.advance now) { s with now := now }
  | setSettings (settings : ListenerSettings) :
    Effect normalizeUrl s (.setSettings settings) { s with settings := settings }
  | wake (wakeAt : Time) (hstage : s.stage = .sleeping wakeAt) (hdue : wakeAt ≤ s.now) :
    Effect normalizeUrl s .wake { s with stage := .pruning, since := s.now }
  | pruned (connection : Watchdog.Relay → Watchdog.Connection) (hstage : s.stage = .pruning) :
    Effect normalizeUrl s (.pruned connection)
      { s.perform normalizeUrl s.since (.pruneDeadRelays connection) with
        stage := .ensuring, since := s.now }
  | ensured (listenRelayUrls : List String) (outcomes : Watchdog.Outcomes)
      (hstage : s.stage = .ensuring) :
    Effect normalizeUrl s (.ensured listenRelayUrls outcomes)
      (s.perform normalizeUrl s.since
        (.ensureListenerRelays listenRelayUrls outcomes)).afterRepair
  | ensureRaises (hstage : s.stage = .ensuring) :
    Effect normalizeUrl s .ensureRaises s.afterRepair
  | pinged (ping : Watchdog.Relay → EventId) (echoed : EventId → Bool) (now : Time)
      (listenRelayUrls : List String) (outcomes : Watchdog.Outcomes) (hstage : s.stage = .pinging) :
    Effect normalizeUrl s (.pinged ping echoed now listenRelayUrls outcomes)
      (s.perform normalizeUrl s.since
        (.pingListener ping echoed now listenRelayUrls outcomes)).sleep
  | subscribe (subscriptions : Dict String Watchdog.Subscription) :
    Effect normalizeUrl s (.subscribe subscriptions)
      (s.perform normalizeUrl s.now (.subscriptions subscriptions))
  | cancel (hstage : s.stage ≠ .cancelled) :
    Effect normalizeUrl s .cancel { s with stage := .cancelled }

theorem step_effect (h : s.step normalizeUrl a = some t) : Effect normalizeUrl s a t := by
  cases a with
  | advance now =>
    obtain ⟨hle, ⟨⟩⟩ := Option.ite_none_right_eq_some.1 h
    exact .advance now hle
  | setSettings settings =>
    cases h
    exact .setSettings settings
  | wake =>
    simp only [step] at h
    split at h
    next wakeAt hstage =>
      obtain ⟨hdue, ⟨⟩⟩ := Option.ite_none_right_eq_some.1 h
      exact .wake wakeAt hstage hdue
    next => cases h
  | pruned connection =>
    obtain ⟨hstage, ⟨⟩⟩ := Option.ite_none_right_eq_some.1 h
    exact .pruned connection hstage
  | ensured listenRelayUrls outcomes =>
    obtain ⟨hstage, ⟨⟩⟩ := Option.ite_none_right_eq_some.1 h
    exact .ensured listenRelayUrls outcomes hstage
  | ensureRaises =>
    obtain ⟨hstage, ⟨⟩⟩ := Option.ite_none_right_eq_some.1 h
    exact .ensureRaises hstage
  | pinged ping echoed now listenRelayUrls outcomes =>
    obtain ⟨hstage, ⟨⟩⟩ := Option.ite_none_right_eq_some.1 h
    exact .pinged ping echoed now listenRelayUrls outcomes hstage
  | subscribe subscriptions =>
    cases h
    exact .subscribe subscriptions
  | cancel =>
    obtain ⟨hstage, ⟨⟩⟩ := Option.ite_none_left_eq_some.1 h
    exact .cancel hstage

theorem log_afterRepair (s : RelayWatchdog) : s.afterRepair.log = s.log := by
  obtain ⟨-, -, heq⟩ | ⟨-, heq⟩ := s.afterRepair_cases
  · rw [heq]
  · rw [heq]
    rfl

/-- A step adds the pass that it performs to the log, if any. -/
theorem log_of_step (h : s.step normalizeUrl a = some t) :
    ∃ new, t.log = s.log ++ new ∧ new.map PassRecord.pass = a.pass?.toList := by
  cases step_effect h with
  | pruned connection hstage => exact ⟨_, rfl, rfl⟩
  | ensured listenRelayUrls outcomes hstage => exact ⟨_, log_afterRepair _, rfl⟩
  | ensureRaises hstage =>
    exact ⟨[], by rw [log_afterRepair, List.append_nil], rfl⟩
  | pinged ping echoed now listenRelayUrls outcomes hstage => exact ⟨_, rfl, rfl⟩
  | subscribe subscriptions => exact ⟨_, rfl, rfl⟩
  | _ => exact ⟨[], (List.append_nil _).symm, rfl⟩

theorem log_prefix_step (h : s.step normalizeUrl a = some t) : s.log <+: t.log := by
  obtain ⟨new, hlog, -⟩ := log_of_step h
  exact ⟨new, hlog.symm⟩

/-- The log of a run has the passes of its actions. -/
theorem log_of_exec {as : List RelayWatchdogAction}
    (h : Transition.exec (step normalizeUrl) s as = some t) :
    t.log.map PassRecord.pass =
      s.log.map PassRecord.pass ++ as.filterMap RelayWatchdogAction.pass? := by
  induction as generalizing s with
  | nil =>
    obtain rfl := Option.some.inj h
    exact (List.append_nil _).symm
  | cons a as ih =>
    obtain ⟨u, hu, hrest⟩ := Option.bind_eq_some_iff.1 h
    obtain ⟨new, hlog, hnew⟩ := log_of_step hu
    rw [ih hrest, hlog, List.map_append, hnew, List.append_assoc]
    cases hpass : a.pass? with
    | none => rw [List.filterMap_cons_none hpass]; rfl
    | some p => rw [List.filterMap_cons_some hpass]; rfl

/-! ## The order of its pings -/

/-- The pass pings the listener. -/
def IsPing : Watchdog.Pass → Bool
  | .pingListener _ _ _ _ _ => true
  | _ => false

/-- When the pings that are over began. -/
def pingsOver (s : RelayWatchdog) : List Time :=
  (s.log.filter fun x => IsPing x.pass).map PassRecord.began

/-- What every step keeps, from a start over `watchdog`. -/
structure CadenceInv (normalizeUrl : String → String) (watchdog : Watchdog) (firstPing : Time)
    (s : RelayWatchdog) : Prop where
  /-- The passes are performed in the order of the log. -/
  run : s.watchdog = watchdog.run normalizeUrl (s.log.map PassRecord.pass)
  spaced : s.pings.IsChain fun p q => p.due ≤ q.began
  first : ∀ p ∈ s.pings, firstPing ≤ p.began ∧ 0 < p.interval
  next : s.nextPing = (s.pings.getLast?.map PingRound.due).getD firstPing
  /-- Only the last ping may not be over, and then it is awaited or cancelled. -/
  tally : ∃ rest, s.pings.map PingRound.began = s.pingsOver ++ rest ∧ rest.length ≤ 1 ∧
    (s.stage = .pinging → rest = [s.since]) ∧
    (s.stage ≠ .pinging → s.stage ≠ .cancelled → rest = [])

variable {watchdog : Watchdog} {firstPing : Time}

theorem pingsOver_perform (began : Time) (pass : Watchdog.Pass) :
    (s.perform normalizeUrl began pass).pingsOver =
      s.pingsOver ++ if IsPing pass then [began] else [] := by
  show ((s.log ++ [PassRecord.mk began s.now pass]).filter fun x => IsPing x.pass).map
    PassRecord.began = _
  rw [List.filter_append, List.map_append]
  congr 1
  rw [List.filter_singleton]
  cases IsPing pass <;> rfl

theorem CadenceInv.run_perform (h : CadenceInv normalizeUrl watchdog firstPing s) (began : Time)
    (pass : Watchdog.Pass) :
    (s.perform normalizeUrl began pass).watchdog =
      watchdog.run normalizeUrl ((s.perform normalizeUrl began pass).log.map PassRecord.pass) := by
  show s.watchdog.pass normalizeUrl pass = watchdog.run normalizeUrl
    ((s.log ++ [PassRecord.mk began s.now pass]).map PassRecord.pass)
  rw [h.run, List.map_append, Watchdog.run, Watchdog.run, List.foldl_append]
  rfl

/-- A pass that is no ping is over. -/
theorem CadenceInv.perform (h : CadenceInv normalizeUrl watchdog firstPing s) {began : Time}
    {pass : Watchdog.Pass} (hping : IsPing pass = false) :
    CadenceInv normalizeUrl watchdog firstPing (s.perform normalizeUrl began pass) where
  run := h.run_perform began pass
  spaced := h.spaced
  first := h.first
  next := h.next
  tally := by
    obtain ⟨rest, hpings, hrest⟩ := h.tally
    refine ⟨rest, ?_, hrest⟩
    rw [pingsOver_perform, hping, if_neg Bool.false_ne_true, List.append_nil]
    exact hpings

/-- Where no ping is awaited, what is awaited next is no ping. -/
theorem CadenceInv.setStage (h : CadenceInv normalizeUrl watchdog firstPing s)
    (hpings : s.pings.map PingRound.began = s.pingsOver) {stage : RelayWatchdogStage}
    (hstage : stage ≠ .pinging) (since : Time) :
    CadenceInv normalizeUrl watchdog firstPing { s with stage := stage, since := since } where
  run := h.run
  spaced := h.spaced
  first := h.first
  next := h.next
  tally := ⟨[], by rw [List.append_nil]; exact hpings, Nat.zero_le 1,
    fun heq => absurd heq hstage, fun _ _ => rfl⟩

/-- All pings are over, while none is awaited or was cancelled. -/
theorem CadenceInv.pings_eq (h : CadenceInv normalizeUrl watchdog firstPing s)
    (hpinging : s.stage ≠ .pinging) (hcancelled : s.stage ≠ .cancelled) :
    s.pings.map PingRound.began = s.pingsOver := by
  obtain ⟨rest, hpings, -, -, hrest⟩ := h.tally
  rw [hpings, hrest hpinging hcancelled, List.append_nil]

theorem CadenceInv.afterRepair (h : CadenceInv normalizeUrl watchdog firstPing s)
    (hstage : s.stage = .ensuring) : CadenceInv normalizeUrl watchdog firstPing s.afterRepair := by
  have hpings := h.pings_eq (by rw [hstage]; decide) (by rw [hstage]; decide)
  obtain ⟨hon, hdue, heq⟩ | ⟨-, heq⟩ := s.afterRepair_cases
  · have hpositive : 0 < s.listenerPingIntervalSec :=
      lt_of_le_of_ne (le_max_left 0 _) (Ne.symm hon)
    rw [heq]
    refine ⟨h.run, ?_, ?_, ?_, [s.now], ?_, le_rfl, fun _ => rfl, fun hnot => absurd rfl hnot⟩
    · refine h.spaced.append (List.isChain_singleton _) ?_
      intro p hp q hq
      obtain rfl := Option.some.inj hq
      rw [h.next, hp] at hdue
      exact hdue
    · intro p hp
      rcases List.mem_append.1 hp with hold | hnew
      · exact h.first p hold
      · obtain rfl := List.mem_singleton.1 hnew
        refine ⟨le_trans ?_ hdue, hpositive⟩
        rw [h.next]
        rcases hlast : s.pings.getLast? with _ | q
        · exact le_rfl
        · obtain ⟨hfirst, hinterval⟩ := h.first q (List.mem_of_getLast? hlast)
          exact hfirst.trans (le_add_of_nonneg_right (by exact_mod_cast hinterval.le))
    · rw [List.getLast?_append]
      rfl
    · rw [List.map_append, hpings]
      rfl
  · rw [heq]
    exact h.setStage hpings (by rintro ⟨⟩) s.now

/-- A ping is over. -/
theorem CadenceInv.pinged (h : CadenceInv normalizeUrl watchdog firstPing s)
    (hstage : s.stage = .pinging) {pass : Watchdog.Pass} (hping : IsPing pass = true) :
    CadenceInv normalizeUrl watchdog firstPing
      (s.perform normalizeUrl s.since pass).sleep := by
  obtain ⟨rest, hpings, -, hrest, -⟩ := h.tally
  refine ⟨h.run_perform s.since pass, h.spaced, h.first, h.next, [], ?_, Nat.zero_le 1,
    by rintro ⟨⟩, fun _ _ => rfl⟩
  show s.pings.map PingRound.began = (s.perform normalizeUrl s.since pass).pingsOver ++ []
  rw [pingsOver_perform, if_pos hping, List.append_nil, hpings, hrest hstage]

theorem cadenceInv_step (h : CadenceInv normalizeUrl watchdog firstPing s)
    (hstep : s.step normalizeUrl a = some t) :
    CadenceInv normalizeUrl watchdog firstPing t := by
  cases step_effect hstep with
  | advance now hle => exact ⟨h.run, h.spaced, h.first, h.next, h.tally⟩
  | setSettings settings => exact ⟨h.run, h.spaced, h.first, h.next, h.tally⟩
  | wake wakeAt hstage hdue =>
    exact h.setStage (h.pings_eq (by rw [hstage]; rintro ⟨⟩) (by rw [hstage]; rintro ⟨⟩))
      (by rintro ⟨⟩) s.now
  | pruned connection hstage =>
    have hperform : CadenceInv normalizeUrl watchdog firstPing
      (s.perform normalizeUrl s.since (.pruneDeadRelays connection)) := h.perform rfl
    refine hperform.setStage (hperform.pings_eq ?_ ?_) (by rintro ⟨⟩) s.now
    · exact fun heq => by cases hstage.symm.trans heq
    · exact fun heq => by cases hstage.symm.trans heq
  | ensured listenRelayUrls outcomes hstage => exact (h.perform rfl).afterRepair hstage
  | ensureRaises hstage => exact h.afterRepair hstage
  | pinged ping echoed now listenRelayUrls outcomes hstage => exact h.pinged hstage rfl
  | subscribe subscriptions => exact h.perform rfl
  | cancel hstage =>
    obtain ⟨rest, hpings, hone, -⟩ := h.tally
    exact ⟨h.run, h.spaced, h.first, h.next, rest, hpings, hone, by rintro ⟨⟩,
      fun _ hnot => absurd rfl hnot⟩

variable {now : Time} {settings : ListenerSettings}
  {P : RelayWatchdog → RelayWatchdogAction → Prop}

theorem cadenceInv_start : CadenceInv normalizeUrl watchdog
    (now + (max 0 settings.listenerPingIntervalSec : ℤ)) (start now settings watchdog) where
  run := rfl
  spaced := List.isChain_nil
  first p hp := by cases hp
  next := rfl
  tally := ⟨[], rfl, Nat.zero_le 1, by rintro ⟨⟩, fun _ _ => rfl⟩

theorem cadenceInv (h : Reachable normalizeUrl P (start now settings watchdog) s) :
    CadenceInv normalizeUrl watchdog (now + (max 0 settings.listenerPingIntervalSec : ℤ)) s :=
  h.invariant cadenceInv_start fun _ _ _ hinv _ hstep => cadenceInv_step hinv hstep

/-- In every run, whatever the settings are changed to and whatever raises: the passes act on the
manager one after the other; a self-ping begins when the interval read with the one before is over,
and none while the interval is zero; and all but the last are over. -/
theorem pings_spaced (h : Reachable normalizeUrl P (start now settings watchdog) s) :
    s.watchdog = watchdog.run normalizeUrl (s.log.map PassRecord.pass) ∧
    s.pings.IsChain (fun p q => p.due ≤ q.began) ∧
    (∀ p ∈ s.pings, now + (max 0 settings.listenerPingIntervalSec : ℤ) ≤ p.began ∧
      0 < p.interval) ∧
    ∃ last, s.pings.map PingRound.began = s.pingsOver ++ last ∧ last.length ≤ 1 := by
  have hinv := cadenceInv h
  obtain ⟨last, hpings, hone, -⟩ := hinv.tally
  exact ⟨hinv.run, hinv.spaced, hinv.first, last, hpings, hone⟩

/-- Rounds of a minute, with a ping in every other. -/
def sampleSettings : ListenerSettings := ⟨20, 60, 120⟩

/-- A round over two relays that connect: prune, attach. -/
def sampleRound (wakeAt : Time) (dead : Watchdog.Relay → Bool) : List RelayWatchdogAction :=
  [.advance wakeAt, .wake, .pruned fun relay => ⟨!dead relay, some false, some false⟩,
    .ensured ["wss://A.example/", "wss://b.example"] ⟨fun _ => true, fun _ => true⟩]

/-- The second of the sample's relays. -/
def sampleRelay : Watchdog.Relay := ⟨1, "wss://b.example"⟩

/-- A ping that all relays but `sampleRelay` answer. -/
def samplePing : RelayWatchdogAction :=
  .pinged (fun relay => if relay = sampleRelay then "e1" else "e0") (fun id => id == "e0") 150
    ["wss://A.example/", "wss://b.example"] ⟨fun _ => true, fun _ => true⟩

/-- Four rounds; the second and the last ping. -/
def sampleActions : List RelayWatchdogAction :=
  sampleRound 60 (fun _ => false) ++ sampleRound 120 (fun _ => false) ++
    [.advance 150, samplePing] ++ sampleRound 210 (fun _ => false) ++
    sampleRound 270 fun _ => false

/-- A server whose loop has just started, over two relays. -/
def sampleStart : RelayWatchdog :=
  start 0 sampleSettings (.start (.sample 100 60) (some Watchdog.sampleManager))

/-- The pings of the sample. -/
theorem pings_spaced_sample :
    ∃ s : RelayWatchdog, s.pings = [⟨120, 120⟩, ⟨270, 120⟩] ∧
      s.pings.IsChain (fun p q => p.due ≤ q.began) := by
  have hrun : (Transition.exec (step Watchdog.sampleNormalizeUrl) sampleStart sampleActions).any
      (fun s => decide (s.pings = [⟨120, 120⟩, ⟨270, 120⟩])) = true := by decide +kernel
  obtain ⟨s, hs, hpings⟩ := Transition.exists_reachable_of_exec hrun
  exact ⟨s, of_decide_eq_true hpings, (pings_spaced hs).2.1⟩

end RelayWatchdog

end ElectrumClink
