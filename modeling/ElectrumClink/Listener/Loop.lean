import ElectrumClink.Listener.Model
import ElectrumClink.Offers.AllOrNothing

/-!
# When the listener loop ends

`run` is meant to end only when it is told to: by `do_stop`, or by the cancellation of its task. But
the checks of its prerequisites and `refresh_manager` stand outside the `try`, and the handler of an
exception itself awaits the end of the manager. An exception there ends the loop, and nobody
starts it again (`failed_connect_ends_run`).

`run_ends_only_when_told` shows that these are the only such places, and that otherwise every
outcome brings `run` nearer to its next iteration.
-/

namespace ElectrumClink

/-- How far `run` is from its next check of the prerequisites. -/
def RunPc.rank : RunPc → ℕ
  | .checking => 0
  | .sleeping | .unconnected | .resting => 1
  | .closingFailed => 2
  | .serving => 3
  | .connecting => 4
  | .closingEmpty => 5
  | .closingDrifted => 6
  | .pinning => 7
  | .ended _ => 8

/-- An outcome of what `run` awaits, or of its check. -/
def ListenerAction.IsOutcome : ListenerAction → Prop
  | .check _ | .wake | .pinned _ _ | .closed _ _ | .connectReturned _ | .groupExited _ => True
  | _ => False

namespace ListenerProcess

variable {tables : CharTables} {hasCancelling : Bool} {s s' : ListenerProcess}
  {a : ListenerAction}

/-- `run` has ended. -/
def Ended (s : ListenerProcess) : Prop := ∃ how, s.pc = .ended how

/-- `run` was told to end. -/
def Told (s : ListenerProcess) : Prop := s.doStop = true ∨ s.ownCancelled = true

/-- An outcome that no handler of `run` takes care of: an exception of the check, of
`get_relay_manager`, of `connect` or of `close`; before Python 3.11 also a `CancelledError` that
comes out of the taskgroup. -/
def Unguarded (hasCancelling : Bool) (s : ListenerProcess) : ListenerAction → Prop
  | .check (.error _) => True
  | .pinned _ buildRaises => s.manager = none ∧ buildRaises = true
  | .closed raises buildRaises => raises = true ∨ s.pc ≠ .closingFailed ∧ buildRaises = true
  | .connectReturned none => True
  | .groupExited .cancelled => hasCancelling = false
  | _ => False

/-! ## Ranks -/

/-- An end has the greatest rank. -/
theorem rank_le (pc : RunPc) : pc.rank ≤ 8 := by
  rcases pc with _ | _ | _ | _ | _ | _ | _ | _ | _ | _ | how
  case ended => exact le_rfl
  all_goals decide

theorem rank_finishRefresh (s : ListenerProcess) (m : HeartbeatManager) :
    (s.finishRefresh m).pc.rank ≤ 3 := by
  unfold finishRefresh
  split
  next => show 1 ≤ 3; omega
  next => exact le_rfl

theorem rank_connectManager (s : ListenerProcess) (m : HeartbeatManager) :
    (s.connectManager m).pc.rank ≤ 4 := by
  unfold connectManager
  split
  next => exact (rank_finishRefresh s m).trans (by omega)
  next => exact le_rfl

theorem rank_checkManager (s : ListenerProcess) (m : HeartbeatManager) :
    (s.checkManager m).pc.rank ≤ 5 := by
  unfold checkManager
  split
  next => exact le_rfl
  next => exact (rank_connectManager s m).trans (by omega)

theorem rank_refreshManager {buildRaises : Bool}
    (hbuild : ¬ (s.manager = none ∧ buildRaises = true)) :
    (s.refreshManager tables buildRaises).pc.rank ≤ 6 := by
  unfold refreshManager
  rcases hmanager : s.manager with _ | m
  · have hraises : buildRaises ≠ true := fun h => hbuild ⟨hmanager, h⟩
    dsimp only
    -- a server without a manager builds one, and cannot find its relays drifted
    unfold refreshNew
    rw [if_neg hraises]
    exact (rank_checkManager _ _).trans (by omega)
  · dsimp only
    split
    next => exact le_rfl
    next => exact (rank_checkManager s m).trans (by omega)

/-! ## What the outcomes do -/

/-- The check leads to the pinning, to a sleep, or to an end. -/
theorem step_check {met : Except Unit Bool}
    (h : step tables hasCancelling s (.check met) = some s') :
    s.pc = .checking ∧ ∃ pc, s' = { s with pc := pc } ∧
      (pc = .pinning ∨ pc = .sleeping ∨ s.doStop = true ∧ pc = .ended .returned ∨
        met = .error () ∧ pc = .ended .raised) := by
  obtain ⟨hpc, hstep⟩ := Option.ite_none_right_eq_some.1 h
  refine ⟨hpc, ?_⟩
  rcases met with ⟨⟩ | met
  · exact ⟨_, (Option.some.inj hstep).symm, .inr (.inr (.inr ⟨rfl, rfl⟩))⟩
  · dsimp only at hstep
    split at hstep
    next => exact ⟨_, (Option.some.inj hstep).symm, .inl rfl⟩
    next =>
      -- `do_stop` is looked at only where there is nothing to listen on yet
      split at hstep
      next hstop => exact ⟨_, (Option.some.inj hstep).symm, .inr (.inr (.inl ⟨hstop, rfl⟩))⟩
      next => exact ⟨_, (Option.some.inj hstep).symm, .inr (.inl rfl)⟩

/-- After a sleep comes the next check. -/
theorem step_wake (h : step tables hasCancelling s .wake = some s') :
    (s.pc = .sleeping ∨ s.pc = .unconnected ∨ s.pc = .resting) ∧
      ∃ taskgroup, s' = { s with pc := .checking, taskgroup := taskgroup } := by
  rw [step] at h
  split at h
  next hpc => exact ⟨.inl hpc, s.taskgroup, (Option.some.inj h).symm⟩
  next hpc => exact ⟨.inr (.inl hpc), s.taskgroup, (Option.some.inj h).symm⟩
  next hpc => exact ⟨.inr (.inr hpc), false, (Option.some.inj h).symm⟩
  next => cases h

/-- Where the end of a manager raises, `run` ends. -/
theorem step_closed_raises {buildRaises : Bool}
    (h : step tables hasCancelling s (.closed true buildRaises) = some s') :
    (s.pc = .closingDrifted ∨ s.pc = .closingEmpty ∨ s.pc = .closingFailed) ∧
      s' = { s with pc := .ended .raised, taskgroup := false } := by
  rw [step, if_pos rfl] at h
  split at h
  next hpc => exact ⟨.inl hpc, (Option.some.inj h).symm⟩
  next hpc => exact ⟨.inr (.inl hpc), (Option.some.inj h).symm⟩
  next hpc => exact ⟨.inr (.inr hpc), (Option.some.inj h).symm⟩
  next => cases h

/-- After the end of a manager `refresh_manager` builds the next one, or `run` rests. -/
theorem step_closed_returns {buildRaises : Bool}
    (h : step tables hasCancelling s (.closed false buildRaises) = some s') :
    s.pc = .closingDrifted ∧ s' = { s with manager := none }.refreshNew tables buildRaises ∨
    s.pc = .closingEmpty ∧ s' = (if buildRaises then { s with pc := .ended .raised }
      else (s.buildManager tables).connectManager (s.getRelayManager tables)) ∨
    s.pc = .closingFailed ∧ s' = { s with manager := none, pc := .resting } := by
  rw [step, if_neg Bool.false_ne_true, afterClose] at h
  split at h
  next hpc => exact .inl ⟨hpc, (Option.some.inj h).symm⟩
  next hpc => exact .inr (.inl ⟨hpc, (Option.some.inj h).symm⟩)
  next hpc => exact .inr (.inr ⟨hpc, (Option.some.inj h).symm⟩)
  next => cases h

/-- After the taskgroup comes the next check, at once or after a rest, or the end of a cancelled
`run`. -/
theorem step_groupExited {how : GroupExit}
    (h : step tables hasCancelling s (.groupExited how) = some s') :
    s.pc = .serving ∧ ∃ pc taskgroup,
      s' = { s with pc := pc, taskgroup := taskgroup, passed := false } ∧
        (pc = .checking ∨ pc = .closingFailed ∨ pc = .resting ∨
          pc = .ended .cancelled ∧ how = .cancelled ∧
            (s.doStop || s.runTaskWasCancelled hasCancelling) = true) := by
  obtain ⟨hpc, hstep⟩ := Option.ite_none_right_eq_some.1 h
  obtain rfl := Option.some.inj hstep
  refine ⟨hpc, ?_⟩
  rcases how with _ | _ | _
  case returned => exact ⟨_, _, rfl, .inl rfl⟩
  case raised =>
    unfold afterGroup
    dsimp only
    split
    next => exact ⟨_, _, rfl, .inr (.inl rfl)⟩
    next => exact ⟨_, _, rfl, .inr (.inr (.inl rfl))⟩
  case cancelled =>
    unfold afterGroup
    dsimp only
    split
    next htold => exact ⟨_, _, rfl, .inr (.inr (.inr ⟨rfl, rfl, htold⟩))⟩
    next => exact ⟨_, _, rfl, .inl rfl⟩

/-! ## The outcomes -/

/-- A guarded outcome brings `run` nearer to its next check, starts an iteration, or ends `run` when
it was told to end. -/
theorem rank_step (ha : a.IsOutcome) (hguarded : ¬ Unguarded hasCancelling s a)
    (h : step tables hasCancelling s a = some s') :
    s'.pc.rank < s.pc.rank ∨ s.pc = .checking ∧ (s'.pc = .pinning ∨ s'.pc = .sleeping) ∨
      s.Told ∧ s'.Told ∧ s'.Ended := by
  rcases a with met | _ | ⟨pickRaised, buildRaises⟩ | ⟨raises, buildRaises⟩ | outcome | how | _ |
    _ | _ | t | setting | server | ⟨relays, connected⟩
  case check =>
    obtain ⟨hpc, pc, rfl, rfl | rfl | ⟨hstop, rfl⟩ | ⟨rfl, rfl⟩⟩ := step_check h
    · exact .inr (.inl ⟨hpc, .inl rfl⟩)
    · exact .inr (.inl ⟨hpc, .inr rfl⟩)
    · exact .inr (.inr ⟨.inl hstop, .inl hstop, .returned, rfl⟩)
    · exact absurd trivial hguarded
  case wake =>
    obtain ⟨hpc, taskgroup, rfl⟩ := step_wake h
    have hrank : s.pc.rank = 1 := by
      rcases hpc with hpc | hpc | hpc <;> rw [hpc] <;> rfl
    left
    rw [hrank]
    exact Nat.zero_lt_one
  case pinned =>
    left
    obtain ⟨hpc, hstep⟩ := Option.ite_none_right_eq_some.1 h
    obtain rfl := Option.some.inj hstep
    rw [hpc]
    exact Nat.lt_succ_of_le (rank_refreshManager hguarded)
  case closed =>
    left
    rcases raises with _ | _
    case true => exact absurd (.inl rfl) hguarded
    -- only a manager that `refresh_manager` closed is followed by a new one
    have hbuild : s.pc ≠ .closingFailed → buildRaises ≠ true := fun hpc hraises =>
      hguarded (.inr ⟨hpc, hraises⟩)
    rcases step_closed_returns h with ⟨hpc, rfl⟩ | ⟨hpc, rfl⟩ | ⟨hpc, rfl⟩
    · rw [hpc, refreshNew, if_neg (hbuild (by rw [hpc]; decide))]
      exact Nat.lt_succ_of_le (rank_checkManager _ _)
    · rw [hpc, if_neg (hbuild (by rw [hpc]; decide))]
      exact Nat.lt_succ_of_le (rank_connectManager _ _)
    · rw [hpc]
      exact Nat.one_lt_two
  case connectReturned =>
    left
    obtain ⟨hpc, hstep⟩ := Option.ite_none_right_eq_some.1 h
    obtain ⟨m, -, rfl⟩ := Option.map_eq_some_iff.1 hstep
    rw [hpc]
    rcases outcome with _ | ⟨relays, connected⟩
    · exact absurd trivial hguarded
    · exact Nat.lt_succ_of_le (rank_finishRefresh _ _)
  case groupExited =>
    obtain ⟨hpc, pc, taskgroup, rfl, rfl | rfl | rfl | ⟨rfl, rfl, htold⟩⟩ := step_groupExited h
    · left
      rw [hpc]
      exact Nat.zero_lt_succ 2
    · left
      rw [hpc]
      exact Nat.lt_succ_self 2
    · left
      rw [hpc]
      exact Nat.succ_lt_succ (Nat.zero_lt_succ 1)
    · -- with `cancelling`, a cancellation that is not of `run` itself does not end it
      have hcancelling : hasCancelling = true := Bool.not_eq_false _ ▸ hguarded
      rw [runTaskWasCancelled, if_pos hcancelling, Bool.or_eq_true_iff] at htold
      exact .inr (.inr ⟨htold, htold, .cancelled, rfl⟩)
  all_goals exact ha.elim

/-! ## The loop goes on -/

/-- The refresh leaves the manager and what `run` is told; it gets to `connect` only with a
manager. -/
structure Refreshed (s t : ListenerProcess) : Prop where
  doStop : t.doStop = s.doStop
  ownCancelled : t.ownCancelled = s.ownCancelled
  manager : t.pc = .connecting → t.manager.isSome = true

theorem refreshed_connectManager {m : HeartbeatManager} (hm : s.manager.isSome = true) :
    Refreshed s (s.connectManager m) := by
  unfold connectManager finishRefresh
  split
  next => split <;> exact ⟨rfl, rfl, fun _ => hm⟩
  next => exact ⟨rfl, rfl, fun _ => hm⟩

theorem refreshed_checkManager {m : HeartbeatManager} (hm : s.manager.isSome = true) :
    Refreshed s (s.checkManager m) := by
  unfold checkManager
  split
  next => exact ⟨rfl, rfl, fun _ => hm⟩
  next => exact refreshed_connectManager hm

theorem refreshed_refreshNew (s : ListenerProcess) (buildRaises : Bool) :
    Refreshed s (s.refreshNew tables buildRaises) := by
  unfold refreshNew
  split
  next => exact ⟨rfl, rfl, fun hpc => by cases hpc⟩
  next =>
    have h : Refreshed (s.buildManager tables)
        ((s.buildManager tables).checkManager (s.getRelayManager tables)) :=
      refreshed_checkManager rfl
    exact ⟨h.doStop, h.ownCancelled, h.manager⟩

theorem refreshed_refreshManager (s : ListenerProcess) (buildRaises : Bool) :
    Refreshed s (s.refreshManager tables buildRaises) := by
  unfold refreshManager
  rcases hmanager : s.manager with _ | m
  · exact refreshed_refreshNew s buildRaises
  · have hm : s.manager.isSome = true := by rw [hmanager]; rfl
    dsimp only
    split
    next => exact ⟨rfl, rfl, fun hpc => by cases hpc⟩
    next => exact refreshed_checkManager hm

/-- `run` has ended only when it was told to, and awaits `connect` only with a manager. -/
structure LoopInv (s : ListenerProcess) : Prop where
  told : s.Ended → s.Told
  connecting : s.pc = .connecting → s.manager.isSome = true

/-- A guarded outcome keeps the invariant. -/
theorem loopInv_outcome (ha : a.IsOutcome) (hguarded : ¬ Unguarded hasCancelling s a)
    (h : step tables hasCancelling s a = some s') : LoopInv s' := by
  -- an end has the greatest rank, so no outcome that brings `run` nearer to its check is one
  refine ⟨fun hended => ?_, fun hpc => ?_⟩
  · obtain ⟨how, hended⟩ := hended
    rcases rank_step ha hguarded h with hlt | ⟨-, hpc | hpc⟩ | ⟨-, htold, -⟩
    · rw [hended] at hlt
      exact absurd hlt (not_lt.2 (rank_le s.pc))
    · rw [hpc] at hended
      cases hended
    · rw [hpc] at hended
      cases hended
    · exact htold
  · rcases a with met | _ | ⟨pickRaised, buildRaises⟩ | ⟨raises, buildRaises⟩ | outcome | how | _ |
      _ | _ | t | setting | server | ⟨relays, connected⟩
    case check =>
      obtain ⟨-, pc, rfl, rfl | rfl | ⟨-, rfl⟩ | ⟨-, rfl⟩⟩ := step_check h <;> cases hpc
    case wake =>
      obtain ⟨-, taskgroup, rfl⟩ := step_wake h
      cases hpc
    case pinned =>
      obtain ⟨-, hstep⟩ := Option.ite_none_right_eq_some.1 h
      obtain rfl := Option.some.inj hstep
      exact (refreshed_refreshManager s buildRaises).manager hpc
    case closed =>
      rcases raises with _ | _
      case true => exact absurd (.inl rfl) hguarded
      rcases step_closed_returns h with ⟨-, rfl⟩ | ⟨-, rfl⟩ | ⟨-, rfl⟩
      · exact (refreshed_refreshNew _ buildRaises).manager hpc
      · split at hpc
        next => cases hpc
        next hraises =>
          rw [if_neg hraises]
          exact (refreshed_connectManager rfl).manager hpc
      · cases hpc
    case connectReturned =>
      obtain ⟨-, hstep⟩ := Option.ite_none_right_eq_some.1 h
      obtain ⟨m, -, rfl⟩ := Option.map_eq_some_iff.1 hstep
      rcases outcome with _ | ⟨relays, connected⟩
      · exact absurd trivial hguarded
      · dsimp only at hpc
        unfold finishRefresh at hpc
        split at hpc <;> cases hpc
    case groupExited =>
      obtain ⟨-, pc, taskgroup, rfl, rfl | rfl | rfl | ⟨rfl, -⟩⟩ := step_groupExited h <;> cases hpc
    all_goals exact ha.elim

/-- What happens beside `run` leaves it where it is, or delivers its cancellation. -/
theorem beside_step (ha : ¬ a.IsOutcome) (h : step tables hasCancelling s a = some s') :
    (s.Told → s'.Told) ∧
      (s'.pc = s.pc ∧ (s.manager.isSome = true → s'.manager.isSome = true) ∨
        s'.pc = .ended .cancelled ∧ s'.Told) := by
  rcases a with met | _ | ⟨pickRaised, buildRaises⟩ | ⟨raises, buildRaises⟩ | outcome | how | _ |
    _ | _ | t | setting | server | ⟨relays, connected⟩
  case cancelRun =>
    obtain rfl := Option.some.inj h
    exact ⟨fun _ => .inr rfl, .inl ⟨rfl, id⟩⟩
  case deliverCancel =>
    obtain ⟨⟨hcancelled, -⟩, hstep⟩ := Option.ite_none_right_eq_some.1 h
    obtain rfl := Option.some.inj hstep
    exact ⟨id, .inr ⟨rfl, .inr hcancelled⟩⟩
  case stop =>
    obtain rfl := Option.some.inj h
    exact ⟨fun _ => .inl rfl, .inl ⟨rfl, id⟩⟩
  case advance =>
    obtain ⟨-, hstep⟩ := Option.ite_none_right_eq_some.1 h
    obtain rfl := Option.some.inj hstep
    exact ⟨id, .inl ⟨rfl, id⟩⟩
  case setSetting =>
    obtain rfl := Option.some.inj h
    rcases setting with _ | _ | _ | _ <;> exact ⟨id, .inl ⟨rfl, id⟩⟩
  case change =>
    obtain rfl := Option.some.inj h
    exact ⟨id, .inl ⟨rfl, id⟩⟩
  case relaysChanged =>
    obtain ⟨m, -, rfl⟩ := Option.map_eq_some_iff.1 h
    exact ⟨id, .inl ⟨rfl, fun _ => rfl⟩⟩
  all_goals exact absurd trivial ha

theorem loopInv_step (hinv : LoopInv s) (hguarded : ¬ Unguarded hasCancelling s a)
    (h : step tables hasCancelling s a = some s') : LoopInv s' := by
  by_cases ha : a.IsOutcome
  · exact loopInv_outcome ha hguarded h
  -- what happens beside `run` moves it only when its cancellation arrives
  · obtain ⟨htold, ⟨hpc, hmanager⟩ | ⟨hpc, hnow⟩⟩ := beside_step ha h
    · refine ⟨fun hended => htold (hinv.told ?_), fun hconnecting => hmanager (hinv.connecting ?_)⟩
      · unfold Ended at hended ⊢
        rwa [hpc] at hended
      · rwa [hpc] at hconnecting
    · refine ⟨fun _ => hnow, fun hconnecting => ?_⟩
      rw [hpc] at hconnecting
      cases hconnecting

/-- Something that `run` awaits has a guarded outcome, and every guarded outcome starts an
iteration, brings `run` nearer to the next one, or ends it because it was told to end. -/
structure GoesOn (tables : CharTables) (hasCancelling : Bool) (s : ListenerProcess) : Prop where
  awaits : ∃ a s', a.IsOutcome ∧ ¬ Unguarded hasCancelling s a ∧
    step tables hasCancelling s a = some s'
  nearer : ∀ a s', a.IsOutcome → ¬ Unguarded hasCancelling s a →
    step tables hasCancelling s a = some s' →
      s'.pc.rank < s.pc.rank ∨ s.pc = .checking ∧ (s'.pc = .pinning ∨ s'.pc = .sleeping) ∨
        s.Told ∧ s'.Told ∧ s'.Ended

/-- While `run` has not ended, it goes on. -/
theorem LoopInv.goesOn (hinv : LoopInv s) (hrunning : ¬ s.Ended) :
    GoesOn tables hasCancelling s := by
  refine ⟨?_, fun a s' ha hguarded h => rank_step ha hguarded h⟩
  rcases hpc : s.pc with _ | _ | _ | _ | _ | _ | _ | _ | _ | _ | how
  case checking =>
    have hstep : step tables hasCancelling s (.check (.ok false)) =
        some (if s.doStop then { s with pc := .ended .returned }
          else { s with pc := .sleeping }) := by
      rw [step, if_pos hpc]
      show (if false = true ∧ _ then _ else _) = _
      rw [if_neg (fun h => Bool.false_ne_true h.1)]
      split <;> rfl
    exact ⟨.check (.ok false), _, trivial, id, hstep⟩
  case sleeping => exact ⟨.wake, _, trivial, id, by rw [step, hpc]⟩
  case pinning =>
    exact ⟨.pinned false false, _, trivial, fun h => Bool.false_ne_true h.2,
      by rw [step, if_pos hpc]⟩
  case closingDrifted =>
    refine ⟨.closed false false, _, trivial, ?_,
      by rw [step, if_neg Bool.false_ne_true, afterClose, hpc]⟩
    rintro (h | ⟨-, h⟩) <;> exact Bool.false_ne_true h
  case closingEmpty =>
    refine ⟨.closed false false, _, trivial, ?_,
      by rw [step, if_neg Bool.false_ne_true, afterClose, hpc]⟩
    rintro (h | ⟨-, h⟩) <;> exact Bool.false_ne_true h
  case connecting =>
    -- here the invariant is needed: there is a manager to connect
    obtain ⟨m, hm⟩ := Option.isSome_iff_exists.1 (hinv.connecting hpc)
    exact ⟨.connectReturned (some ([], false)), _, trivial, id, by rw [step, if_pos hpc, hm]; rfl⟩
  case unconnected => exact ⟨.wake, _, trivial, id, by rw [step, hpc]⟩
  case serving => exact ⟨.groupExited .returned, _, trivial, id, by rw [step, if_pos hpc]⟩
  case closingFailed =>
    refine ⟨.closed false false, _, trivial, ?_,
      by rw [step, if_neg Bool.false_ne_true, afterClose, hpc]⟩
    rintro (h | ⟨-, h⟩) <;> exact Bool.false_ne_true h
  case resting => exact ⟨.wake, _, trivial, id, by rw [step, hpc]⟩
  case ended => exact absurd ⟨how, hpc⟩ hrunning

/-- An outcome that nobody takes care of ends `run`. -/
theorem ended_of_unguarded (hunguarded : Unguarded hasCancelling s a)
    (h : step tables hasCancelling s a = some s') : s'.Ended := by
  rcases a with met | _ | ⟨pickRaised, buildRaises⟩ | ⟨raises, buildRaises⟩ | outcome | how | _ |
    _ | _ | t | setting | server | ⟨relays, connected⟩
  case check =>
    rcases met with e | met
    · obtain ⟨-, hstep⟩ := Option.ite_none_right_eq_some.1 h
      obtain rfl := Option.some.inj hstep
      exact ⟨.raised, rfl⟩
    · exact hunguarded.elim
  -- `get_relay_manager` raises inside `refresh_manager`, which stands outside the `try`
  case pinned =>
    obtain ⟨hnone, hraises⟩ := hunguarded
    obtain ⟨-, hstep⟩ := Option.ite_none_right_eq_some.1 h
    obtain rfl := Option.some.inj hstep
    refine ⟨.raised, ?_⟩
    unfold refreshManager refreshNew
    rw [hnone]
    dsimp only
    rw [if_pos hraises]
  case closed =>
    rcases raises with _ | _
    case true =>
      obtain ⟨-, rfl⟩ := step_closed_raises h
      exact ⟨.raised, rfl⟩
    obtain ⟨hpc, hraises⟩ := hunguarded.resolve_left Bool.false_ne_true
    rcases step_closed_returns h with ⟨-, rfl⟩ | ⟨-, rfl⟩ | ⟨hfailed, -⟩
    · rw [refreshNew, if_pos hraises]
      exact ⟨.raised, rfl⟩
    · rw [if_pos hraises]
      exact ⟨.raised, rfl⟩
    · exact absurd hfailed hpc
  case connectReturned =>
    rcases outcome with _ | outcome
    · obtain ⟨-, hstep⟩ := Option.ite_none_right_eq_some.1 h
      obtain ⟨m, -, rfl⟩ := Option.map_eq_some_iff.1 hstep
      exact ⟨.raised, rfl⟩
    · exact hunguarded.elim
  case groupExited =>
    rcases how with _ | _ | _
    case cancelled =>
      -- without `cancelling` every cancellation counts as one of `run`
      have hcancelling : hasCancelling = false := hunguarded
      obtain ⟨-, hstep⟩ := Option.ite_none_right_eq_some.1 h
      obtain rfl := Option.some.inj hstep
      refine ⟨.cancelled, ?_⟩
      unfold afterGroup runTaskWasCancelled
      dsimp only
      rw [hcancelling, if_neg Bool.false_ne_true, Bool.or_true, if_pos rfl]
    all_goals exact hunguarded.elim
  all_goals exact hunguarded.elim

/-- As long as every outcome is guarded, `run` ends only when it was told to, and otherwise goes on
to another iteration; an outcome that is not guarded ends it. -/
theorem run_ends_only_when_told (tables : CharTables) (hasCancelling : Bool) (now : Time)
    (server : RelayServer) (settings : ListenerSettings) :
    (∀ s, Reachable tables hasCancelling (fun s a => ¬ Unguarded hasCancelling s a)
        (start now server settings) s →
      (s.Ended → s.Told) ∧ (¬ s.Ended → GoesOn tables hasCancelling s)) ∧
    ∀ s a s', Reachable tables hasCancelling (fun _ _ => True) (start now server settings) s →
      step tables hasCancelling s a = some s' → Unguarded hasCancelling s a → s'.Ended := by
  refine ⟨fun s hs => ?_, fun s a s' _ hstep hunguarded => ended_of_unguarded hunguarded hstep⟩
  have hinv : LoopInv s := by
    refine hs.invariant ⟨?_, ?_⟩ fun _ _ _ hinv hguarded hstep => loopInv_step hinv hguarded hstep
    · rintro ⟨how, ⟨⟩⟩
    · rintro ⟨⟩
  exact ⟨hinv.told, hinv.goesOn⟩

/-- The first connection raises: `run` ends with the exception, although nobody told it to. -/
theorem failed_connect_ends_run :
    ∃ s, Transition.exec (step RelayServer.asciiTables.toCharTables true)
        (start 0 RelayServer.sample ⟨20, 30, 300⟩)
        [.check (.ok true), .pinned false false, .connectReturned none] = some s ∧
      s.Ended ∧ ¬ s.Told := by
  have hexec : (Transition.exec (step RelayServer.asciiTables.toCharTables true)
      (start 0 RelayServer.sample ⟨20, 30, 300⟩)
      [.check (.ok true), .pinned false false, .connectReturned none]).any (fun s =>
        s.pc == .ended .raised && !s.doStop && !s.ownCancelled) = true := by decide +kernel
  obtain ⟨s, hs, hat⟩ := (Option.any_eq_true _ _).1 hexec
  simp only [Bool.and_eq_true, beq_iff_eq, Bool.not_eq_true'] at hat
  obtain ⟨⟨hpc, hstop⟩, hcancelled⟩ := hat
  refine ⟨s, hs, ⟨.raised, hpc⟩, ?_⟩
  rintro (h | h)
  · rw [hstop] at h
    cases h
  · rw [hcancelled] at h
    cases h

end ListenerProcess

end ElectrumClink
