import ElectrumClink.Listener.Loop

/-!
# The settings that a restarted listener runs with

A change of a listener setting restarts the listener, so that it takes effect. But `refresh_manager`
builds a new manager only when the relays to listen on have changed: a new `ws_heartbeat_sec`, which
is baked into the manager, does not get there (`changed_heartbeat_is_ignored`). And a change that
comes while the manager connects finds no taskgroup to restart.

`refreshed_listener_is_current` is about runs in which neither happens.
-/

namespace ElectrumClink

namespace ListenerProcess

variable {tables : CharTables} {hasCancelling : Bool} {s s' : ListenerProcess}
  {a : ListenerAction} {m : HeartbeatManager}

/-- The manager was built for the relays to listen on and with the heartbeat that is set. -/
structure BuiltNow (tables : CharTables) (s : ListenerProcess) (m : HeartbeatManager) : Prop where
  relays : m.builtFor.toFinset = (s.listenRelayUrls tables).toFinset
  heartbeat : m.heartbeatSec = s.wsHeartbeatSec

/-- The server has a manager that was built for what is set now. -/
def Current (tables : CharTables) (s : ListenerProcess) : Prop :=
  ∃ m, s.manager = some m ∧ s.BuiltNow tables m

theorem BuiltNow.of_eq (h : s.BuiltNow tables m) (hnow : s'.now = s.now)
    (hserver : s'.server = s.server) (hsettings : s'.settings = s.settings) :
    s'.BuiltNow tables m := by
  refine ⟨?_, ?_⟩
  · rw [h.relays, listenRelayUrls, listenRelayUrls, hnow, hserver]
  · rw [h.heartbeat, wsHeartbeatSec, wsHeartbeatSec, hsettings]

theorem Current.of_eq (h : s.Current tables) (hmanager : s'.manager = s.manager)
    (hnow : s'.now = s.now) (hserver : s'.server = s.server)
    (hsettings : s'.settings = s.settings) : s'.Current tables := by
  obtain ⟨m, hm, hbuilt⟩ := h
  exact ⟨m, hmanager.trans hm, hbuilt.of_eq hnow hserver hsettings⟩

/-- `refresh_manager` keeps no manager that was built with another heartbeat; and while it awaits
`connect`, neither the relays to listen on nor the heartbeat change. -/
structure Settled (tables : CharTables) (hasCancelling : Bool) (s : ListenerProcess)
    (a : ListenerAction) : Prop where
  keeps : ∀ pickRaised buildRaises m, a = .pinned pickRaised buildRaises → s.manager = some m →
    ¬ s.Drifted tables → m.relays ≠ [] → m.heartbeatSec = s.wsHeartbeatSec
  connecting : s.pc = .connecting → ∀ s', step tables hasCancelling s a = some s' →
    s'.pc = .connecting →
      (s'.listenRelayUrls tables).toFinset = (s.listenRelayUrls tables).toFinset ∧
        s'.wsHeartbeatSec = s.wsHeartbeatSec

/-- The manager has the relays that are on record; it is current while it connects and when the
refresh has just succeeded. -/
structure SettingsInv (tables : CharTables) (s : ListenerProcess) : Prop where
  built : ∀ m, s.manager = some m → m.builtFor.toFinset = s.managerRelays.toFinset
  connecting : s.pc = .connecting → s.Current tables
  passed : s.passed = true → s.Current tables ∧ (s.pc = .serving ∨ s.Ended)

/-! ## The refresh -/

/-- Nothing is connected or claimed to have succeeded. -/
theorem SettingsInv.of_idle
    (hbuilt : ∀ m, s.manager = some m → m.builtFor.toFinset = s.managerRelays.toFinset)
    (hpc : s.pc ≠ .connecting) (hpassed : s.passed = false) : SettingsInv tables s := by
  refine ⟨hbuilt, fun h => absurd h hpc, fun h => ?_⟩
  rw [hpassed] at h
  cases h

/-- The manager on record is the one whose relays are. -/
theorem builtFor_of_manager (hm : s.manager = some m)
    (hbuilt : m.builtFor.toFinset = s.managerRelays.toFinset) :
    ∀ m', s.manager = some m' → m'.builtFor.toFinset = s.managerRelays.toFinset := by
  intro m' hm'
  obtain rfl := Option.some.inj (hm.symm.trans hm')
  exact hbuilt

/-- A refresh may end with a current manager. -/
theorem settingsInv_finishRefresh (hm : s.manager = some m)
    (hbuilt : m.builtFor.toFinset = s.managerRelays.toFinset) (hpassed : s.passed = false)
    (hnow : s.BuiltNow tables m) : SettingsInv tables (s.finishRefresh m) := by
  have hbuilt' := builtFor_of_manager hm hbuilt
  have hcurrent : s.Current tables := ⟨m, hm, hnow⟩
  unfold finishRefresh
  split
  next => exact .of_idle hbuilt' (by rintro ⟨⟩) hpassed
  next =>
    refine ⟨hbuilt', ?_, fun _ => ⟨hcurrent.of_eq rfl rfl rfl rfl, .inl rfl⟩⟩
    rintro ⟨⟩

/-- A current manager may be connected. -/
theorem settingsInv_connectManager (hm : s.manager = some m)
    (hbuilt : m.builtFor.toFinset = s.managerRelays.toFinset) (hpassed : s.passed = false)
    (hnow : s.BuiltNow tables m) : SettingsInv tables (s.connectManager m) := by
  have hcurrent : s.Current tables := ⟨m, hm, hnow⟩
  unfold connectManager
  split
  next => exact settingsInv_finishRefresh hm hbuilt hpassed hnow
  next =>
    refine ⟨builtFor_of_manager hm hbuilt, fun _ => hcurrent.of_eq rfl rfl rfl rfl, fun h => ?_⟩
    have h' : s.passed = true := h
    rw [hpassed] at h'
    cases h'

/-- A manager that is kept must be current, unless it has no relays left. -/
theorem settingsInv_checkManager (hm : s.manager = some m)
    (hbuilt : m.builtFor.toFinset = s.managerRelays.toFinset) (hpassed : s.passed = false)
    (hnow : m.relays ≠ [] → s.BuiltNow tables m) : SettingsInv tables (s.checkManager m) := by
  unfold checkManager
  split
  next => exact .of_idle (builtFor_of_manager hm hbuilt) (by rintro ⟨⟩) hpassed
  next hrelays => exact settingsInv_connectManager hm hbuilt hpassed (hnow hrelays)

/-- A manager that was just built is current. -/
theorem builtNow_buildManager (s : ListenerProcess) :
    (s.buildManager tables).BuiltNow tables (s.getRelayManager tables) :=
  ⟨rfl, rfl⟩

theorem settingsInv_refreshNew (hbuilt : s.manager = none) (hpassed : s.passed = false)
    (buildRaises : Bool) : SettingsInv tables (s.refreshNew tables buildRaises) := by
  unfold refreshNew
  split
  next =>
    refine .of_idle (fun m hm => ?_) (by rintro ⟨⟩) hpassed
    have hm' : s.manager = some m := hm
    rw [hbuilt] at hm'
    cases hm'
  next => exact settingsInv_checkManager rfl rfl hpassed fun _ => builtNow_buildManager s

/-- A refresh that keeps no manager of another heartbeat. -/
theorem settingsInv_refreshManager (hinv : SettingsInv tables s) (hpassed : s.passed = false)
    (hkeeps : ∀ m, s.manager = some m → ¬ s.Drifted tables → m.relays ≠ [] →
      m.heartbeatSec = s.wsHeartbeatSec) (buildRaises : Bool) :
    SettingsInv tables (s.refreshManager tables buildRaises) := by
  unfold refreshManager
  split
  next hnone => exact settingsInv_refreshNew hnone hpassed buildRaises
  next m hm =>
    split
    next => exact .of_idle hinv.built (by rintro ⟨⟩) hpassed
    next hdrift =>
      -- the manager is kept: its relays are the ones to listen on, and its heartbeat by assumption
      refine settingsInv_checkManager hm (hinv.built m hm) hpassed fun hrelays => ?_
      exact ⟨(hinv.built m hm).trans (not_not.1 hdrift), hkeeps m hm hdrift hrelays⟩

/-! ## The steps -/

/-- While `run` is not in its taskgroup, no refresh counts as just passed. -/
theorem SettingsInv.passed_eq_false (hinv : SettingsInv tables s) {pc : RunPc} (hpc : s.pc = pc)
    (hserving : pc ≠ .serving) (hrunning : ∀ how, pc ≠ .ended how) : s.passed = false := by
  rcases hpassed : s.passed with _ | _
  · rfl
  · rcases (hinv.passed hpassed).2 with h | ⟨how, h⟩
    · exact absurd (hpc.symm.trans h) hserving
    · exact absurd (hpc.symm.trans h) (hrunning how)

/-- What reads none of `now`, `server`, `settings` and the manager. -/
theorem SettingsInv.unchanged (hinv : SettingsInv tables s) (hmanager : s'.manager = s.manager)
    (hrelays : s'.managerRelays = s.managerRelays) (hnow : s'.now = s.now)
    (hserver : s'.server = s.server) (hsettings : s'.settings = s.settings) (hpc : s'.pc = s.pc)
    (hpassed : s'.passed = s.passed) : SettingsInv tables s' := by
  refine ⟨?_, fun h => ?_, fun h => ?_⟩
  · rw [hmanager, hrelays]
    exact hinv.built
  · exact (hinv.connecting (hpc.symm.trans h)).of_eq hmanager hnow hserver hsettings
  · obtain ⟨hcurrent, hwhere⟩ := hinv.passed (hpassed.symm.trans h)
    refine ⟨hcurrent.of_eq hmanager hnow hserver hsettings, ?_⟩
    rwa [Ended, hpc]

/-- A change beside `run` that leaves the manager. -/
theorem SettingsInv.beside (hinv : SettingsInv tables s) (hpc : s'.pc = s.pc)
    (hmanager : s'.manager = s.manager) (hrelays : s'.managerRelays = s.managerRelays)
    (hpassed : s'.passed = false)
    (hconnecting : s.pc = .connecting →
      (s'.listenRelayUrls tables).toFinset = (s.listenRelayUrls tables).toFinset ∧
        s'.wsHeartbeatSec = s.wsHeartbeatSec) : SettingsInv tables s' := by
  refine ⟨?_, fun h => ?_, fun h => ?_⟩
  · rw [hmanager, hrelays]
    exact hinv.built
  · rw [hpc] at h
    obtain ⟨m, hm, hnow⟩ := hinv.connecting h
    obtain ⟨hlisten, hheartbeat⟩ := hconnecting h
    exact ⟨m, hmanager.trans hm, hnow.relays.trans hlisten.symm,
      hnow.heartbeat.trans hheartbeat.symm⟩
  · rw [hpassed] at h
    cases h

/-- A manager that is connected was built for what is set now. -/
theorem SettingsInv.connected (hinv : SettingsInv tables s) (hpc : s.pc = .connecting)
    (hm : s.manager = some m) (relays : List String) (connected : Bool) :
    SettingsInv tables
      ({ s with manager := some { m with relays := relays, connected := connected } }.finishRefresh
        { m with relays := relays, connected := connected }) := by
  have hpassed := hinv.passed_eq_false hpc (by rintro ⟨⟩) (by rintro how ⟨⟩)
  -- nothing that the manager was built for has changed since the connection began
  obtain ⟨m', hm', hnow⟩ := hinv.connecting hpc
  obtain rfl := Option.some.inj (hm.symm.trans hm')
  exact settingsInv_finishRefresh rfl (hinv.built m hm) hpassed
    (BuiltNow.of_eq ⟨hnow.relays, hnow.heartbeat⟩ rfl rfl rfl)

/-- What the manager was built for does not change with the relays it has. -/
theorem SettingsInv.relaysChanged (hinv : SettingsInv tables s) (hm : s.manager = some m)
    (relays : List String) (connected : Bool) :
    SettingsInv tables
      { s with manager := some { m with relays := relays, connected := connected } } := by
  have hcurrent : s.Current tables → Current tables { s with
      manager := some { m with relays := relays, connected := connected } } := by
    rintro ⟨m', hm', hnow⟩
    obtain rfl := Option.some.inj (hm.symm.trans hm')
    exact ⟨_, rfl, BuiltNow.of_eq ⟨hnow.relays, hnow.heartbeat⟩ rfl rfl rfl⟩
  refine ⟨?_, fun hpc => hcurrent (hinv.connecting hpc), fun hpassed =>
    ⟨hcurrent (hinv.passed hpassed).1, (hinv.passed hpassed).2⟩⟩
  rintro _ ⟨⟩
  exact hinv.built m hm

/-- A settled step keeps the invariant. -/
theorem settings_step (hinv : SettingsInv tables s) (hsettled : Settled tables hasCancelling s a)
    (h : step tables hasCancelling s a = some s') : SettingsInv tables s' := by
  have hsame : s.pc = .connecting → s'.pc = s.pc →
      (s'.listenRelayUrls tables).toFinset = (s.listenRelayUrls tables).toFinset ∧
        s'.wsHeartbeatSec = s.wsHeartbeatSec :=
    fun hpc hpc' => hsettled.connecting hpc s' h (hpc'.trans hpc)
  rcases a with met | _ | ⟨pickRaised, buildRaises⟩ | ⟨raises, buildRaises⟩ | outcome | how | _ |
    _ | _ | t | setting | server | ⟨relays, connected⟩
  case check =>
    obtain ⟨hpc, pc, rfl, hend⟩ := step_check h
    refine .of_idle hinv.built ?_ (hinv.passed_eq_false hpc (by rintro ⟨⟩) (by rintro how ⟨⟩))
    rcases hend with rfl | rfl | ⟨-, rfl⟩ | ⟨-, rfl⟩ <;> rintro ⟨⟩
  case wake =>
    obtain ⟨hpc, taskgroup, rfl⟩ := step_wake h
    refine .of_idle hinv.built (by rintro ⟨⟩) ?_
    rcases hpc with hpc | hpc | hpc <;>
    exact hinv.passed_eq_false hpc (by rintro ⟨⟩) (by rintro how ⟨⟩)
  case pinned =>
    obtain ⟨hpc, hstep⟩ := Option.ite_none_right_eq_some.1 h
    obtain rfl := Option.some.inj hstep
    exact settingsInv_refreshManager hinv
      (hinv.passed_eq_false hpc (by rintro ⟨⟩) (by rintro how ⟨⟩))
      (fun m => hsettled.keeps pickRaised buildRaises m rfl) buildRaises
  case closed =>
    rcases raises with _ | _
    case true =>
      obtain ⟨hpc, rfl⟩ := step_closed_raises h
      refine .of_idle hinv.built (by rintro ⟨⟩) ?_
      rcases hpc with hpc | hpc | hpc <;>
      exact hinv.passed_eq_false hpc (by rintro ⟨⟩) (by rintro how ⟨⟩)
    rcases step_closed_returns h with ⟨hpc, rfl⟩ | ⟨hpc, rfl⟩ | ⟨hpc, rfl⟩
    all_goals
      have hpassed := hinv.passed_eq_false hpc (by rintro ⟨⟩) (by rintro how ⟨⟩)
    · exact settingsInv_refreshNew (s := { s with manager := none }) rfl hpassed buildRaises
    · split
      next => exact .of_idle hinv.built (by rintro ⟨⟩) hpassed
      next => exact settingsInv_connectManager rfl rfl hpassed (builtNow_buildManager s)
    · refine .of_idle (fun m hm => ?_) (by rintro ⟨⟩) hpassed
      cases hm
  case connectReturned =>
    obtain ⟨hpc, hstep⟩ := Option.ite_none_right_eq_some.1 h
    obtain ⟨m, hm, rfl⟩ := Option.map_eq_some_iff.1 hstep
    rcases outcome with _ | ⟨relays, connected⟩
    · exact .of_idle hinv.built (by rintro ⟨⟩)
        (hinv.passed_eq_false hpc (by rintro ⟨⟩) (by rintro how ⟨⟩))
    · exact hinv.connected hpc hm relays connected
  case groupExited =>
    obtain ⟨-, pc, taskgroup, rfl, hend⟩ := step_groupExited h
    refine .of_idle hinv.built ?_ rfl
    rcases hend with rfl | rfl | rfl | ⟨rfl, -⟩ <;> rintro ⟨⟩
  case cancelRun =>
    obtain rfl := Option.some.inj h
    exact hinv.unchanged rfl rfl rfl rfl rfl rfl rfl
  case deliverCancel =>
    obtain ⟨-, hstep⟩ := Option.ite_none_right_eq_some.1 h
    obtain rfl := Option.some.inj hstep
    -- `run` may be cancelled right after the refresh: the manager is still current
    refine ⟨hinv.built, ?_, fun hpassed => ?_⟩
    rotate_left
    · exact ⟨(hinv.passed hpassed).1.of_eq rfl rfl rfl rfl, .inr ⟨.cancelled, rfl⟩⟩
    rintro ⟨⟩
  case stop =>
    obtain rfl := Option.some.inj h
    exact hinv.unchanged rfl rfl rfl rfl rfl rfl rfl
  case advance =>
    obtain ⟨-, hstep⟩ := Option.ite_none_right_eq_some.1 h
    obtain rfl := Option.some.inj hstep
    exact hinv.beside rfl rfl rfl rfl fun hpc => hsame hpc rfl
  case setSetting =>
    obtain rfl := Option.some.inj h
    rcases setting with relay | sec | sec | sec
    -- a change while `run` connects is excluded; at other times nothing is claimed of the manager
    case relay => exact hinv.beside rfl rfl rfl rfl fun hpc => hsame hpc rfl
    case wsHeartbeatSec => exact hinv.beside rfl rfl rfl rfl fun hpc => hsame hpc rfl
    case watchdogIntervalSec => exact hinv.beside rfl rfl rfl rfl fun hpc => hsame hpc rfl
    case listenerPingIntervalSec => exact hinv.beside rfl rfl rfl rfl fun hpc => hsame hpc rfl
  case change =>
    obtain rfl := Option.some.inj h
    exact hinv.beside rfl rfl rfl rfl fun hpc => hsame hpc rfl
  case relaysChanged =>
    obtain ⟨m, hm, rfl⟩ := Option.map_eq_some_iff.1 h
    exact hinv.relaysChanged hm relays connected

/-- In a settled run, when `run` has just passed a successful `refresh_manager`, its manager was
built for the relays to listen on and with the heartbeat that is set. -/
theorem refreshed_listener_is_current {now : Time} {server : RelayServer}
    {settings : ListenerSettings}
    (hs : Reachable tables hasCancelling (Settled tables hasCancelling)
      (start now server settings) s) (hpassed : s.passed = true) : s.Current tables := by
  have hinv : SettingsInv tables s := by
    refine hs.invariant ?_ fun _ _ _ hinv hsettled hstep => settings_step hinv hsettled hstep
    refine .of_idle ?_ (by rintro ⟨⟩) rfl
    rintro m ⟨⟩
  exact (hinv.passed hpassed).1

/-- The three steps that bring the first listener of a server up. -/
theorem refreshed_listener_is_current_first :
    ∃ s, Transition.exec (step RelayServer.asciiTables.toCharTables true)
        (start 0 RelayServer.sample ⟨20, 30, 300⟩)
        [.check (.ok true), .pinned false false,
          .connectReturned (some (["wss://first.example"], true))] = some s ∧
      s.passed = true ∧ s.Current RelayServer.asciiTables.toCharTables := by
  have hexec : (Transition.exec (step RelayServer.asciiTables.toCharTables true)
      (start 0 RelayServer.sample ⟨20, 30, 300⟩)
      [.check (.ok true), .pinned false false,
        .connectReturned (some (["wss://first.example"], true))]).any (fun s => s.passed) =
      true := by decide +kernel
  obtain ⟨s, hs, hpassed⟩ := (Option.any_eq_true _ _).1 hexec
  refine ⟨s, hs, hpassed, ?_⟩
  obtain ⟨s₁, hstep₁, hs⟩ := Option.bind_eq_some_iff.1 hs
  obtain ⟨s₂, hstep₂, hs⟩ := Option.bind_eq_some_iff.1 hs
  obtain ⟨s₃, hstep₃, hs⟩ := Option.bind_eq_some_iff.1 hs
  obtain rfl := Option.some.inj hs
  -- there is no manager yet whose settings could differ
  have h₁ : s₁.pc = .pinning ∧ s₁.manager = none := by
    have hat : (step RelayServer.asciiTables.toCharTables true
        (start 0 RelayServer.sample ⟨20, 30, 300⟩) (.check (.ok true))).any
        (fun s => s.pc == .pinning && s.manager.isNone) = true := by decide +kernel
    rw [hstep₁] at hat
    simpa using hat
  refine refreshed_listener_is_current (.next (.next (.next .init ?_ hstep₁) ?_ hstep₂) ?_ hstep₃)
    hpassed
  · refine ⟨?_, ?_⟩
    · rintro _ _ _ ⟨⟩
    · rintro ⟨⟩
  · refine ⟨fun _ _ m _ hm => ?_, fun hpc => ?_⟩
    · rw [h₁.2] at hm
      cases hm
    · rw [h₁.1] at hpc
      cases hpc
  · refine ⟨?_, fun _ s' hstep hpc => ?_⟩
    · rintro _ _ _ ⟨⟩
    · -- the connection succeeded, so `run` is no longer connecting
      obtain ⟨-, hstep⟩ := Option.ite_none_right_eq_some.1 hstep
      obtain ⟨m, -, rfl⟩ := Option.map_eq_some_iff.1 hstep
      cases hpc

/-- The heartbeat is changed while the listener serves: it restarts, and `refresh_manager` keeps the
manager with the old one. -/
theorem changed_heartbeat_is_ignored :
    ∃ s, Transition.exec (step RelayServer.asciiTables.toCharTables true)
        (start 0 RelayServer.sample ⟨20, 30, 300⟩)
        [.check (.ok true), .pinned false false,
          .connectReturned (some (["wss://first.example"], true)), .setSetting (.wsHeartbeatSec 5),
          .groupExited .returned, .check (.ok true), .pinned false false] = some s ∧
      s.passed = true ∧ ¬ s.Current RelayServer.asciiTables.toCharTables := by
  have hexec : (Transition.exec (step RelayServer.asciiTables.toCharTables true)
      (start 0 RelayServer.sample ⟨20, 30, 300⟩)
      [.check (.ok true), .pinned false false,
        .connectReturned (some (["wss://first.example"], true)), .setSetting (.wsHeartbeatSec 5),
        .groupExited .returned, .check (.ok true), .pinned false false]).any (fun s =>
      s.passed && s.wsHeartbeatSec == 5 && s.manager.any (fun m => m.heartbeatSec == 20)) =
      true := by decide +kernel
  obtain ⟨s, hs, hat⟩ := (Option.any_eq_true _ _).1 hexec
  simp only [Bool.and_eq_true, beq_iff_eq] at hat
  obtain ⟨⟨hpassed, hset⟩, hmanager⟩ := hat
  refine ⟨s, hs, hpassed, ?_⟩
  rintro ⟨m, hm, hnow⟩
  have hm20 : m.heartbeatSec = 20 := by
    rw [hm] at hmanager
    exact beq_iff_eq.1 hmanager
  have h5 : m.heartbeatSec = 5 := hnow.heartbeat.trans hset
  rw [hm20] at h5
  cases h5

end ListenerProcess

end ElectrumClink
