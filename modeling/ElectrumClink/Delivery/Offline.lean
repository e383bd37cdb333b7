import ElectrumClink.Delivery.Steps

/-!
# Receipts owed while offline

`_deliver_receipt` stamps its attempt before it looks whether there is a relay manager, and
`due_targets` throttles on that stamp. For a receipt that no publish was ever started for, every
stamp is that of an attempt that found no manager (`OfflineInv`), so
`first_tick_lists_unpublished_iff` can say which of them the first tick after a reconnect lists:
those whose last such attempt is at least a retry interval ago.
-/

namespace ElectrumClink.Courier

variable {s s' : Courier} {a : Action}

/-- What the stamps of an entry say about a receipt that no publish was started for. -/
structure OfflineInv (s : Courier) : Prop where
  known : KnownInv s
  started : ∀ r, 0 < s.publishing r → r ∈ s.log.started
  stamped : ∀ r e, s.receipts.lookup r = some e → r ∉ s.log.started →
    e.sendCount = 0 ∧ e.lastAttempt = (s.log.offline.get? r).getD 0

theorem publishing_started_step (hstarted : ∀ r, 0 < s.publishing r → r ∈ s.log.started)
    (h : s.step a = some s') (r : PaymentHash) (hr : 0 < s'.publishing r) :
    r ∈ s'.log.started := by
  cases step_effect h with
  | quiet op hop hreceipts hlog hpublishing =>
    rw [hlog]
    exact hstarted r (hr.trans_le (hpublishing r))
  | remembered rhash payerPubkey requestEventId expiresAt hfresh hreceipts hlog hpublishing =>
    rw [hlog]
    exact hstarted r (hpublishing ▸ hr)
  | offline rhash hrhash hreceipts hlog hpublishing =>
    rw [hlog]
    exact hstarted r (hr.trans_le (hpublishing r))
  | began rhash hrhash hbegins hreceipts hlog hpublishing =>
    rw [hlog]
    show r ∈ s.log.started ++ [rhash]
    have hle := hpublishing r
    by_cases hr' : r = rhash
    · exact List.mem_append_right _ (List.mem_singleton.2 hr')
    · rw [if_neg hr'] at hle
      exact List.mem_append_left _ (hstarted r (hr.trans_le hle))
  | succeeded rhash hrhash hreceipts hlog hpublishing =>
    rw [hlog]
    have heq := hpublishing r
    exact hstarted r (by omega)

theorem offlineInv_step (hinv : OfflineInv s) (h : s.step a = some s') : OfflineInv s' := by
  refine ⟨knownInv_step hinv.known h, publishing_started_step hinv.started h,
    fun r e' he' hnot => ?_⟩
  cases step_effect h with
  | quiet op hop hreceipts hlog hpublishing =>
    rw [hlog] at hnot ⊢
    rw [hreceipts] at he'
    rcases ReceiptRegistry.lookup_apply he' with ⟨_, _, _, rfl, -⟩ | ⟨-, e, he, hchange⟩
    · simp at hop
    · have hstamped := hinv.stamped r e he hnot
      rcases hchange with rfl | ⟨-, -, rfl⟩ | ⟨rfl, -⟩ | ⟨rfl, -⟩
      · exact hstamped
      · exact hstamped
      all_goals simp at hop
  | remembered rhash payerPubkey requestEventId expiresAt hfresh hreceipts hlog hpublishing =>
    rw [hlog] at hnot ⊢
    rw [hreceipts] at he'
    rcases ReceiptRegistry.lookup_of_remember he' with ⟨rfl, rfl⟩ | ⟨-, he⟩
    · -- a fresh hash was never attempted
      have hnone : s.log.offline.get? r = none :=
        Dict.get?_eq_none_iff.2 fun hmem => hfresh (hinv.known.offline _ hmem)
      exact ⟨rfl, by simp [hnone, ReceiptRegistry.awaiting]⟩
    · exact hinv.stamped r e' he hnot
  | offline rhash hrhash hreceipts hlog hpublishing =>
    rw [hlog] at hnot ⊢
    rw [hreceipts] at he'
    show e'.sendCount = 0 ∧
      e'.lastAttempt = ((s.log.offline.set rhash s.now).get? r).getD 0
    by_cases hr : r = rhash
    · subst hr
      rw [ReceiptRegistry.lookup_recordAttempt_self, Option.map_eq_some_iff] at he'
      obtain ⟨e, he, rfl⟩ := he'
      exact ⟨(hinv.stamped r e he hnot).1, by simp⟩
    · rw [ReceiptRegistry.lookup_recordAttempt_of_ne _ _ hr] at he'
      rw [Dict.get?_set_of_ne _ hr]
      exact hinv.stamped r e' he' hnot
  | began rhash hrhash hbegins hreceipts hlog hpublishing =>
    rw [hlog] at hnot ⊢
    rw [hreceipts] at he'
    have hnot : r ∉ s.log.started ++ [rhash] := hnot
    rw [List.mem_append, List.mem_singleton, not_or] at hnot
    rw [ReceiptRegistry.lookup_recordAttempt_of_ne _ _ hnot.2] at he'
    exact hinv.stamped r e' he' hnot.1
  | succeeded rhash hrhash hreceipts hlog hpublishing =>
    rw [hlog] at hnot ⊢
    rw [hreceipts] at he'
    -- a receipt that is sent was being published, and so had been started
    have hr : r ≠ rhash := by
      rintro rfl
      have heq := hpublishing r
      rw [if_pos rfl] at heq
      exact hnot (hinv.started r (by omega))
    rw [ReceiptRegistry.lookup_recordSend_of_ne _ _ hr] at he'
    exact hinv.stamped r e' he' hnot

/-- A receipt is owed and not given up, and no publish was ever started for it. -/
structure Unpublished (s : Courier) (rhash : PaymentHash) (e : ReceiptEntry) : Prop where
  stored : s.receipts.lookup rhash = some e
  due : e.due = true
  notAbandoned : s.now - e.dueSince < retryMaxSec
  notStarted : rhash ∉ s.log.started

/-- The tick that begins with the step to `s'` is going to deliver every unpublished receipt. -/
def ListsUnpublished (s s' : Courier) : Prop :=
  ∀ rhash e, s.Unpublished rhash e → ∃ first targets,
    s'.redelivery = .iterating first targets ∧ ReceiptRegistry.target rhash e ∈ targets

/-- The first tick after a reconnect lists every unpublished receipt exactly when none of them was
attempted without a manager in the last retry interval. (An attempt at clock reading 0 leaves no
stamp.) -/
theorem first_tick_lists_unpublished_iff {now : Time} {s s' : Courier}
    (hrun : Reachable (fun _ _ => True) (start now) s) (hfirst : s.redelivery = .starting)
    (htick : s.step .tickStart = some s') :
    ListsUnpublished s s' ↔
      ∀ rhash e, s.Unpublished rhash e → ∀ t, s.log.offline.get? rhash = some t →
        t = 0 ∨ retryIntervalSec ≤ s.now - t := by
  have hinv : OfflineInv s := by
    refine hrun.invariant ⟨knownInv_start now, ?_, ?_⟩ fun _ _ _ hinv _ h =>
      offlineInv_step hinv h
    · simp [start, publishing]
    · simp [start, ReceiptRegistry.empty, ReceiptRegistry.lookup]
  obtain rfl : s.beginTick true = s' := by
    simpa [step, tickBegins, hfirst] using htick
  -- receipt by receipt: it is listed exactly when its last stamp is old enough
  refine forall_congr' fun rhash => forall_congr' fun e => forall_congr' fun hun => ?_
  obtain ⟨hsends, hlast⟩ := hinv.stamped rhash e hun.stored hun.notStarted
  have hkeep : e.keep s.now = true := by
    simpa [ReceiptEntry.keep, hun.due] using hun.notAbandoned
  have hdue : e.isDueNow s.now = true ↔ ∀ t, s.log.offline.get? rhash = some t →
      t = 0 ∨ retryIntervalSec ≤ s.now - t := by
    rw [ReceiptEntry.isDueNow, hun.due, hsends, hlast]
    rcases s.log.offline.get? rhash with _ | t <;> simp [or_iff_not_imp_left]
  rw [← hdue]
  constructor
  · rintro ⟨first, targets, heq, hmem⟩
    obtain ⟨-, rfl⟩ := RedeliveryLoop.iterating.inj heq
    obtain ⟨k, e', he', -, hdue', htarget⟩ := (ReceiptRegistry.mem_dueTargets_iff _ _ _).1 hmem
    obtain rfl : rhash = k := congrArg ReceiptTarget.rhash htarget
    obtain rfl := Option.some.inj (hun.stored.symm.trans (Dict.get?_filter_eq_some.1 he').1)
    exact hdue'
  · intro hnow
    refine ⟨true, _, rfl, (ReceiptRegistry.mem_dueTargets_iff _ _ _).2 ⟨rhash, e, ?_, hkeep, hnow,
      rfl⟩⟩
    exact Dict.get?_filter_eq_some.2 ⟨hun.stored, hkeep⟩

/-- A payment at time 1 finds no manager; the connection comes up at time `t`. -/
def paidOffline (t : Time) : List Action :=
  [.advance 1, .remember "r" "p" "q" 100, .paid "r", .deliver 0, .advance t, .connect, .openGroup]

/-- A reconnect more than an hour after the attempt. -/
theorem first_tick_lists_unpublished_later :
    ∃ s s', Reachable (fun _ _ => True) (start 0) s ∧ s.step .tickStart = some s' ∧
      (∃ e, s.Unpublished "r" e) ∧ ListsUnpublished s s' := by
  have hrun : (Transition.exec step (start 0) (paidOffline 4000)).any (fun s =>
      decide (s.redelivery = .starting) &&
      (s.receipts.lookup "r").any (fun e =>
        e.due && decide (s.now - e.dueSince < retryMaxSec)) &&
      decide ("r" ∉ s.log.started) &&
      decide (∀ p ∈ s.log.offline.entries, retryIntervalSec ≤ s.now - p.2)) = true := by
    decide +kernel
  obtain ⟨s, hexec, hfacts⟩ := (Option.any_eq_true _ _).1 hrun
  simp only [Bool.and_eq_true, decide_eq_true_eq] at hfacts
  obtain ⟨⟨⟨hstarting, hentry⟩, hstarted⟩, hlong⟩ := hfacts
  obtain ⟨e, he, hdue⟩ := (Option.any_eq_true _ _).1 hentry
  simp only [Bool.and_eq_true, decide_eq_true_eq] at hdue
  have htick : s.step .tickStart = some (s.beginTick true) := by
    simp [step, tickBegins, hstarting]
  have hreach := Transition.reachable_of_exec hexec
  refine ⟨s, _, hreach, htick, ⟨e, he, hdue.1, hdue.2, hstarted⟩, ?_⟩
  exact (first_tick_lists_unpublished_iff hreach hstarting htick).2 fun rhash e _ t ht =>
    .inr (hlong (rhash, t) (Dict.get?_eq_some_iff.1 ht))

/-- A reconnect less than an hour after the attempt: the receipt has to wait for the next tick. -/
theorem first_tick_skips_recent_attempt :
    ∃ s s', Reachable (fun _ _ => True) (start 0) s ∧ s.redelivery = .starting ∧
      s.step .tickStart = some s' ∧ ¬ ListsUnpublished s s' := by
  have hrun : (Transition.exec step (start 0) (paidOffline 100)).any (fun s =>
      decide (s.redelivery = .starting) &&
      (s.receipts.lookup "r").any (fun e =>
        e.due && decide (s.now - e.dueSince < retryMaxSec)) &&
      decide ("r" ∉ s.log.started) &&
      decide ((s.beginTick true).redelivery = .iterating true [])) = true := by
    decide +kernel
  obtain ⟨s, hexec, hfacts⟩ := (Option.any_eq_true _ _).1 hrun
  simp only [Bool.and_eq_true, decide_eq_true_eq] at hfacts
  obtain ⟨⟨⟨hstarting, hentry⟩, hstarted⟩, hempty⟩ := hfacts
  obtain ⟨e, he, hdue⟩ := (Option.any_eq_true _ _).1 hentry
  simp only [Bool.and_eq_true, decide_eq_true_eq] at hdue
  refine ⟨s, s.beginTick true, Transition.reachable_of_exec hexec, hstarting, ?_, fun hlists => ?_⟩
  · simp [step, tickBegins, hstarting]
  · obtain ⟨first, targets, heq, hmem⟩ := hlists "r" e ⟨he, hdue.1, hdue.2, hstarted⟩
    rw [hempty] at heq
    obtain ⟨-, rfl⟩ := RedeliveryLoop.iterating.inj heq
    cases hmem

end ElectrumClink.Courier
