import ElectrumClink.Delivery.Steps

/-!
# Schedules that were interrupted

Half of a schedule are the stamps of the registry, the other half are tails, which a cancellation
of the taskgroup ends. The first tick of the next taskgroup is to take up what was interrupted.

It does so for the receipts that are due at that moment. `first_tick_resumes` states what has to
hold of a run so that no receipt is left behind: the tick comes when every interrupted receipt has
reached its next offset, the guards of the cancelled tails are gone, and the publishes that fail
during the tick can still be retried. `early_reconnect_strands_receipt` is a run in which the tick
comes too early.
-/

namespace ElectrumClink

/-- An entry in the middle of its re-broadcast schedule, or never sent and inside its fast-retry
window. -/
def ReceiptEntry.InSchedule (e : ReceiptEntry) (now : Time) : Prop :=
  (1 ≤ e.sendCount ∧ e.sendCount ≤ resendOffsetsSec.length) ∨
    (e.sendCount = 0 ∧ now - e.dueSince < fastRetryWindowSec)

/-- An entry in the middle of its schedule has reached its next offset; one that was never sent has
not been attempted in the last retry interval. -/
def ReceiptEntry.Ready (e : ReceiptEntry) (now : Time) : Prop :=
  if e.sendCount = 0 then e.lastAttempt = 0 ∨ retryIntervalSec ≤ now - e.lastAttempt
  else resendOffsetsSec.getD (min e.sendCount resendOffsetsSec.length - 1) 0 ≤
    now - e.firstSend.getD (e.lastSend.getD 0)

instance (e : ReceiptEntry) (now : Time) : Decidable (e.InSchedule now) :=
  inferInstanceAs (Decidable ((1 ≤ e.sendCount ∧ e.sendCount ≤ resendOffsetsSec.length) ∨
    (e.sendCount = 0 ∧ now - e.dueSince < fastRetryWindowSec)))

instance (e : ReceiptEntry) (now : Time) : Decidable (e.Ready now) :=
  inferInstanceAs (Decidable (if e.sendCount = 0 then
      e.lastAttempt = 0 ∨ retryIntervalSec ≤ now - e.lastAttempt
    else resendOffsetsSec.getD (min e.sendCount resendOffsetsSec.length - 1) 0 ≤
      now - e.firstSend.getD (e.lastSend.getD 0)))

theorem ReceiptEntry.isDueNow_iff_ready {e : ReceiptEntry} {now : Time} (hdue : e.due = true) :
    e.isDueNow now = true ↔ e.Ready now := by
  rw [isDueNow, Ready, hdue]
  by_cases hsends : e.sendCount = 0
  · simp [hsends, or_iff_not_imp_left]
  · simp [hsends, Nat.pos_of_ne_zero hsends]

theorem ReceiptEntry.InSchedule.earlier {e : ReceiptEntry} {now now' : Time}
    (h : e.InSchedule now') (hle : now ≤ now') : e.InSchedule now := by
  rcases h with h | ⟨hsends, hwindow⟩
  · exact .inl h
  · exact .inr ⟨hsends, (sub_le_sub_right hle _).trans_lt hwindow⟩

/-- A failed publish is retried as long as the window of the entry is open. -/
theorem ReceiptRegistry.exists_failRetryDelay {reg : ReceiptRegistry} {now : Time}
    {rhash : PaymentHash} {e : ReceiptEntry} (he : reg.lookup rhash = some e)
    (hdue : e.due = true) (hsched : e.InSchedule now)
    (hopen : 1 ≤ e.sendCount → now - e.firstSend.getD 0 < fastRetryWindowSec)
    (failStreak : ℕ) : ∃ delay, reg.failRetryDelay now rhash failStreak = some delay := by
  have hanchor : ¬ now - (if e.sendCount > 0 then e.firstSend.getD 0 else e.dueSince) ≥
      fastRetryWindowSec := by
    rw [ge_iff_le, not_le]
    split
    next hsends => exact hopen hsends
    next hsends =>
      rcases hsched with ⟨hsends', -⟩ | ⟨-, hwindow⟩
      · omega
      · exact hwindow
  simp only [failRetryDelay, he, hdue, Bool.not_true, Bool.false_eq_true, if_false]
  rw [if_neg hanchor]
  exact ⟨_, rfl⟩

namespace Courier

variable {s s' : Courier} {a : Action}

/-- A receipt that the schedule or a fast retry still has to send. -/
def Owes (s : Courier) (rhash : PaymentHash) : Prop :=
  ∃ e, s.receipts.lookup rhash = some e ∧ e.due = true ∧ e.InSchedule s.now

/-- A tail of the receipt is alive: it waits, sleeps or delivers. -/
def LiveTail (s : Courier) (rhash : PaymentHash) : Prop :=
  (∃ tail ∈ s.tails, tail.target.rhash = rhash) ∨
    ∃ d ∈ s.deliveries, (d.origin = .tail true ∨ d.origin = .tail false) ∧ d.target.rhash = rhash

/-- No scheduled receipt is left with only the next hourly tick to send it: each was published
during this tick or has a live tail. -/
def NoneStranded (s : Courier) : Prop :=
  ∀ rhash, s.Owes rhash → rhash ∈ s.log.sentInTick ∨ s.LiveTail rhash

/-- The loop is in the first tick of its taskgroup. -/
def InFirstTick (s : Courier) : Prop := ∃ targets, s.redelivery = .iterating true targets

/-- Every guard stands for a tail that has yet to wake up. -/
def Guarded (s : Courier) : Prop :=
  ∀ rhash ∈ s.receiptTails, ∃ tail ∈ s.tails, tail.target.rhash = rhash

/-- What a run has to meet for the first tick of a taskgroup to resume every schedule. When the tick
evaluates the registry, every scheduled receipt is ready or has a live tail, and no guard outlived
its tail. During the tick, a publish of a receipt in the middle of its schedule that was not sent in
this tick fails only inside the fast-retry window. When the tick is done, the deliveries that
notifications started and that are still under way are of receipts sent in this tick or with a live
tail. -/
def Resumable (s : Courier) : Action → Prop
  | .tickStart => s.redelivery = .starting →
    s.Guarded ∧ ∀ rhash e, s.receipts.lookup rhash = some e → e.due = true →
      e.InSchedule s.now → e.Ready s.now ∨ s.LiveTail rhash
  | .publishFail i _ => s.InFirstTick → ∀ d ∈ s.deliveries[i]?,
    d.target.rhash ∉ s.log.sentInTick → ∀ e ∈ s.receipts.lookup d.target.rhash,
      1 ≤ e.sendCount → s.now - e.firstSend.getD 0 < fastRetryWindowSec
  | .tickDone => s.InFirstTick → ∀ d ∈ s.deliveries, d.origin = .notification →
    d.target.rhash ∈ s.log.sentInTick ∨ s.LiveTail d.target.rhash
  | _ => True

instance (s : Courier) (rhash : PaymentHash) : Decidable (s.LiveTail rhash) :=
  inferInstanceAs (Decidable ((∃ tail ∈ s.tails, tail.target.rhash = rhash) ∨
    ∃ d ∈ s.deliveries, (d.origin = .tail true ∨ d.origin = .tail false) ∧
      d.target.rhash = rhash))

instance (s : Courier) : Decidable s.Guarded :=
  inferInstanceAs (Decidable (∀ rhash ∈ s.receiptTails, ∃ tail ∈ s.tails,
    tail.target.rhash = rhash))

instance (s : Courier) : Decidable s.InFirstTick :=
  match h : s.redelivery with
  | .iterating true targets => .isTrue ⟨targets, h⟩
  | .iterating false _ | .absent | .starting | .sleeping _ =>
    .isFalse fun ⟨_, heq⟩ => by simp [h] at heq

/-- The registry's part of the condition, over the entries instead of the lookups. -/
theorem forall_lookup_iff {reg : ReceiptRegistry} {p : PaymentHash → ReceiptEntry → Prop} :
    (∀ rhash e, reg.lookup rhash = some e → p rhash e) ↔ ∀ x ∈ reg.pending.entries, p x.1 x.2 :=
  ⟨fun h x hx => h x.1 x.2 (Dict.get?_eq_some_iff.2 hx),
    fun h rhash e he => h (rhash, e) (Dict.get?_eq_some_iff.1 he)⟩

instance (s : Courier) : (a : Action) → Decidable (s.Resumable a)
  | .tickStart =>
    decidable_of_iff (s.redelivery = .starting → s.Guarded ∧ ∀ x ∈ s.receipts.pending.entries,
      x.2.due = true → x.2.InSchedule s.now → x.2.Ready s.now ∨ s.LiveTail x.1)
      (imp_congr_right fun _ => and_congr_right fun _ =>
        (forall_lookup_iff (p := fun rhash e => e.due = true → e.InSchedule s.now →
          e.Ready s.now ∨ s.LiveTail rhash)).symm)
  | .publishFail i _ =>
    inferInstanceAs (Decidable (s.InFirstTick → ∀ d ∈ s.deliveries[i]?,
      d.target.rhash ∉ s.log.sentInTick → ∀ e ∈ s.receipts.lookup d.target.rhash,
        1 ≤ e.sendCount → s.now - e.firstSend.getD 0 < fastRetryWindowSec))
  | .tickDone =>
    inferInstanceAs (Decidable (s.InFirstTick → ∀ d ∈ s.deliveries, d.origin = .notification →
      d.target.rhash ∈ s.log.sentInTick ∨ s.LiveTail d.target.rhash))
  | .advance _ | .remember .. | .paid _ | .deliver _ | .publishOk .. | .tailStart _
  | .tailWake _ | .tickNext | .connect | .openGroup | .cancel | .exitGroup | .failGroup
  | .dropManager | .resetGroup => inferInstanceAs (Decidable True)

/-- A running loop has a taskgroup, and a running taskgroup has a manager. -/
structure GroupInv (s : Courier) : Prop where
  group : s.redelivery ≠ .absent → s.taskgroup = .running
  manager : s.taskgroup = .running → s.manager = true

/-- In the first tick of a taskgroup every scheduled receipt was published or is taken care of. -/
structure ResumeInv (s : Courier) : Prop extends GroupInv s where
  guarded : s.InFirstTick → s.Guarded
  pursued : s.InFirstTick → ∀ rhash, s.Owes rhash →
    rhash ∈ s.log.sentInTick ∨ s.Mentions rhash

/-! ## One step of the first tick -/

/-- Only a payment makes a receipt newly scheduled, unless it is sent. -/
theorem owes_step (h : s.step a = some s') {r : PaymentHash} (hr : s'.Owes r) :
    s.Owes r ∨ (a = .paid r ∧ r ∈ s.receipts.pending) ∨ r ∈ s'.log.sentInTick := by
  obtain ⟨e', he', hdue, hsched⟩ := hr
  have hsched := hsched.earlier (now_le_of_step h)
  -- a stamped attempt changes nothing of what makes a receipt scheduled
  have hattempt : ∀ rhash, s'.receipts = s.receipts.recordAttempt s.now rhash → s.Owes r := by
    intro rhash hreceipts
    rw [hreceipts] at he'
    by_cases hr : r = rhash
    · subst hr
      rw [ReceiptRegistry.lookup_recordAttempt_self, Option.map_eq_some_iff] at he'
      obtain ⟨e, he, rfl⟩ := he'
      exact ⟨e, he, hdue, hsched⟩
    · rw [ReceiptRegistry.lookup_recordAttempt_of_ne _ _ hr] at he'
      exact ⟨e', he', hdue, hsched⟩
  cases step_effect h with
  | quiet op hop hreceipts hlog hpublishing =>
    rw [hreceipts] at he'
    rcases ReceiptRegistry.lookup_apply he' with ⟨_, _, _, rfl, -⟩ | ⟨-, e, he, hchange⟩
    · simp at hop
    · rcases hchange with rfl | ⟨rfl, -⟩ | ⟨rfl, -⟩ | ⟨rfl, -⟩
      · exact .inl ⟨e', he, hdue, hsched⟩
      · exact .inr (.inl ⟨by simpa using hop, Dict.mem_of_get? he⟩)
      all_goals simp at hop
  | remembered rhash payerPubkey requestEventId expiresAt hfresh hreceipts hlog hpublishing =>
    rw [hreceipts] at he'
    rcases ReceiptRegistry.lookup_of_remember he' with ⟨-, rfl⟩ | ⟨-, he⟩
    · cases hdue
    · exact .inl ⟨e', he, hdue, hsched⟩
  | offline rhash hrhash hreceipts hlog hpublishing => exact .inl (hattempt rhash hreceipts)
  | began rhash hrhash hbegins hreceipts hlog hpublishing => exact .inl (hattempt rhash hreceipts)
  | succeeded rhash hrhash hreceipts hlog hpublishing =>
    by_cases hr : r = rhash
    · rw [hlog]
      exact .inr (.inr (List.mem_append_right _ (List.mem_singleton.2 hr)))
    · rw [hreceipts, ReceiptRegistry.lookup_recordSend_of_ne _ _ hr] at he'
      exact .inl ⟨e', he', hdue, hsched⟩

section Schedule

variable {target : ReceiptTarget} {delay : Time} {failStreak : ℕ} {orphan : Bool}

theorem tails_subset_scheduleReceiptRebroadcast :
    s.tails ⊆ (s.scheduleReceiptRebroadcast target delay failStreak orphan).tails := by
  unfold scheduleReceiptRebroadcast spawnTail
  split
  · exact List.Subset.refl _
  · split
    · exact List.Subset.refl _
    · exact List.subset_append_left _ _
    · split
      · exact List.subset_append_left _ _
      · exact List.Subset.refl _

theorem tails_subset_publishSucceeded : s.tails ⊆ (s.publishSucceeded target orphan).tails := by
  unfold publishSucceeded
  dsimp only
  split
  · exact List.Subset.refl _
  · refine List.Subset.trans ?_ tails_subset_scheduleReceiptRebroadcast
    exact List.Subset.refl _

theorem tails_subset_publishFailed :
    s.tails ⊆ (s.publishFailed target failStreak orphan).tails := by
  unfold publishFailed
  split
  · exact List.Subset.refl _
  · exact tails_subset_scheduleReceiptRebroadcast

/-- In a running taskgroup a receipt that is scheduled has a tail, and a new guard has one, too. -/
theorem guarded_scheduleReceiptRebroadcast (hgroup : s.taskgroup = .running)
    (hguarded : s.Guarded) :
    (s.scheduleReceiptRebroadcast target delay failStreak orphan).Guarded ∧
      ∃ tail ∈ (s.scheduleReceiptRebroadcast target delay failStreak orphan).tails,
        tail.target.rhash = target.rhash := by
  by_cases hmem : target.rhash ∈ s.receiptTails
  · have hsame : s.scheduleReceiptRebroadcast target delay failStreak orphan = s :=
      if_pos (.inr hmem)
    rw [hsame]
    exact ⟨hguarded, hguarded _ hmem⟩
  · -- a running taskgroup takes the tail
    have hspawned : s.scheduleReceiptRebroadcast target delay failStreak orphan = { s with
        receiptTails := s.receiptTails ++ [target.rhash]
        tails := s.tails ++ [⟨target, failStreak, .created delay, true⟩] } := by
      simp [scheduleReceiptRebroadcast, spawnTail, hgroup, hmem]
    rw [hspawned]
    have hnew : ∃ tail ∈ s.tails ++ [⟨target, failStreak, .created delay, true⟩],
        tail.target.rhash = target.rhash :=
      ⟨_, List.mem_append_right _ (List.mem_singleton_self _), rfl⟩
    refine ⟨fun rhash hr => ?_, hnew⟩
    rcases List.mem_append.1 hr with hr | hr
    · obtain ⟨tail, htail, heq⟩ := hguarded rhash hr
      exact ⟨tail, List.mem_append_left _ htail, heq⟩
    · rw [List.mem_singleton.1 hr]
      exact hnew

end Schedule

/-- A delivery that begins with a manager is waited for. -/
theorem mentions_deliverReceipt_of_manager {origin : Origin} {target : ReceiptTarget}
    {failStreak : ℕ} {r : PaymentHash} (hr : s.Mentions r ∨ target.rhash = r)
    (hmanager : s.manager = true) : (s.deliverReceipt origin target failStreak).Mentions r := by
  have heq : (s.deliverReceipt origin target failStreak).deliveries =
      s.deliveries ++ [⟨origin, target, failStreak, true⟩] := by
    simp [deliverReceipt, hmanager]
  rcases hr with hr | hr
  · refine hr.mono ?_ ?_ ?_
    · rw [heq]
      exact List.subset_append_left _ _
    · simp [deliverReceipt, hmanager]
    · simp [deliverReceipt, hmanager]
  · refine .inl ⟨⟨origin, target, failStreak, true⟩, ?_, hr⟩
    rw [heq]
    exact List.mem_append_right _ (List.mem_singleton_self _)

/-- Within a tick nothing is taken back from the receipts sent in it. -/
theorem sentInTick_step (hnot : a ≠ .tickStart) (h : s.step a = some s') :
    s.log.sentInTick ⊆ s'.log.sentInTick := by
  cases control_step h with
  | kept hkept => exact hkept.sentInTick
  | tickStart => exact absurd rfl hnot
  | tickNext hloop hkept => exact hkept.sentInTick
  | _ => exact List.Subset.refl _

theorem mem_eraseIdx_of_ne {α : Type*} {l : List α} {i : ℕ} {x y : α} (hx : l[i]? = some x)
    (hy : y ∈ l) (hne : y ≠ x) : y ∈ l.eraseIdx i := by
  obtain ⟨hi, rfl⟩ := List.getElem?_eq_some_iff.1 hx
  have hmem := (List.getElem_cons_eraseIdx_perm hi).mem_iff.2 hy
  exact (List.mem_cons.1 hmem).resolve_left hne

/-- Replacing a tail by one for the same receipt keeps the receipts of the tails. -/
theorem map_rhash_set {tails : List Tail} {i : ℕ} {old new : Tail} (hold : tails[i]? = some old)
    (hsame : new.target.rhash = old.target.rhash) :
    (tails.set i new).map (fun tail => tail.target.rhash) =
      tails.map fun tail => tail.target.rhash := by
  obtain ⟨hi, rfl⟩ := List.getElem?_eq_some_iff.1 hold
  refine List.ext_getElem? fun j => ?_
  rw [List.map_set, List.getElem?_set]
  split
  next hij => simp [← hij, hi, hsame]
  next => rfl

theorem exists_tail_set {tails : List Tail} {i : ℕ} {old new : Tail} (hold : tails[i]? = some old)
    (hsame : new.target.rhash = old.target.rhash) {r : PaymentHash} :
    (∃ tail ∈ tails.set i new, tail.target.rhash = r) ↔ ∃ tail ∈ tails, tail.target.rhash = r := by
  rw [← List.mem_map, map_rhash_set hold hsame, List.mem_map]

theorem Guarded.deliverReceipt {origin : Origin} {target : ReceiptTarget} {failStreak : ℕ}
    (hguarded : s.Guarded) : (s.deliverReceipt origin target failStreak).Guarded := by
  obtain ⟨receipts, deliveries, log, heq, -⟩ := s.deliverReceipt_eq origin target failStreak
  rw [heq]
  exact hguarded

/-- While the taskgroup runs, guards and tails go together, unless a cancellation comes between
them. -/
theorem guarded_step (hgroup : s.taskgroup = .running) (hguarded : s.Guarded)
    (hnot : a ≠ .cancel) (h : s.step a = some s') : s'.Guarded := by
  cases step_outcome h with
  | paid =>
    obtain ⟨queued, heq, -⟩ := s.notifyPaid_eq _
    rw [heq]
    exact hguarded
  | deliver =>
    refine Guarded.deliverReceipt ?_
    exact hguarded
  | publishOk =>
    unfold publishSucceeded
    dsimp only
    split
    · exact hguarded
    · refine (guarded_scheduleReceiptRebroadcast ?_ ?_).1
      · exact hgroup
      · exact hguarded
  | publishFail =>
    unfold publishFailed
    split
    · exact hguarded
    · refine (guarded_scheduleReceiptRebroadcast ?_ ?_).1
      · exact hgroup
      · exact hguarded
  | tailStart htail =>
    intro rhash hr
    refine (exists_tail_set htail ?_).2 (hguarded rhash hr)
    rfl
  | @tailWake i tail htail hbegun =>
    -- the tail gives up its guard with its place; every other guard has a tail of its own
    have hcleared : (clearGuard { s with tails := s.tails.eraseIdx i }
        tail.target.rhash).Guarded := by
      intro rhash hr
      obtain ⟨hr, hne⟩ := List.mem_filter.1 hr
      obtain ⟨other, hother, rfl⟩ := hguarded rhash hr
      refine ⟨other, mem_eraseIdx_of_ne htail hother ?_, rfl⟩
      rintro rfl
      simp at hne
    rw [rebroadcastReceipt_eq]
    split
    · exact hcleared.deliverReceipt
    · exact hcleared
  | tickNext =>
    refine Guarded.deliverReceipt ?_
    exact hguarded
  | cancel => exact absurd rfl hnot
  | _ => exact hguarded

theorem groupInv_step (hinv : GroupInv s) (h : s.step a = some s') : GroupInv s' := by
  obtain ⟨hgroup, hmanager⟩ := hinv
  cases control_step h with
  | kept hkept =>
    refine ⟨?_, ?_⟩
    · rw [hkept.redelivery, hkept.taskgroup]
      exact hgroup
    · rw [hkept.taskgroup, hkept.manager]
      exact hmanager
  | advance => exact ⟨hgroup, hmanager⟩
  | @tickStart first hbegins =>
    refine ⟨fun _ => hgroup ?_, hmanager⟩
    intro habsent
    simp [tickBegins, habsent] at hbegins
  | tickNext hloop hkept =>
    have hrunning : s.taskgroup = .running := hgroup (by simp [hloop])
    refine ⟨fun _ => hkept.taskgroup.trans hrunning, fun _ => ?_⟩
    exact hkept.manager.trans (hmanager hrunning)
  | tickDone hloop => exact ⟨fun _ => hgroup (by simp [hloop]), hmanager⟩
  | connect => exact ⟨hgroup, fun _ => rfl⟩
  | openGroup _ hup => exact ⟨fun _ => rfl, fun _ => hup⟩
  | cancel => exact ⟨fun h => absurd rfl h, hmanager⟩
  -- a group whose tasks are gone has no loop to lose
  | exitGroup hdone => exact ⟨fun h => absurd hdone.1 h, fun h => by cases h⟩
  | failGroup hdone => exact ⟨fun h => absurd hdone.1 h, fun h => by cases h⟩
  | dropManager hjoined => exact ⟨hgroup, fun h => by cases hjoined.symm.trans h⟩
  | resetGroup hjoined =>
    refine ⟨fun h => ?_, fun h => by cases h⟩
    cases hjoined.symm.trans (hgroup h)

section Kept

variable {i : ℕ} {r : PaymentHash}

/-- A delivery that ends concerns its own receipt only. -/
theorem Mentions.of_other_delivery {d : Delivering} (hr : s.Mentions r)
    (hd : s.deliveries[i]? = some d) (hne : d.target.rhash ≠ r) :
    ({ s with deliveries := s.deliveries.eraseIdx i } : Courier).Mentions r := by
  rcases hr with ⟨d', hd', rfl⟩ | htail | hloop
  · exact .inl ⟨d', mem_eraseIdx_of_ne hd hd' (by rintro rfl; exact hne rfl), rfl⟩
  · exact .inr (.inl htail)
  · exact .inr (.inr hloop)

/-- So does a tail that wakes up. -/
theorem Mentions.of_other_tail {tail : Tail} (hr : s.Mentions r) (htail : s.tails[i]? = some tail)
    (hne : tail.target.rhash ≠ r) :
    (clearGuard { s with tails := s.tails.eraseIdx i } tail.target.rhash).Mentions r := by
  rcases hr with hd | ⟨other, hother, rfl⟩ | hloop
  · exact .inl hd
  · exact .inr (.inl ⟨other, mem_eraseIdx_of_ne htail hother (by rintro rfl; exact hne rfl), rfl⟩)
  · exact .inr (.inr hloop)

variable {origin : Origin} {target : ReceiptTarget} {failStreak : ℕ} {orphan : Bool}

/-- A publish that succeeds sends its own receipt and leaves the others taken care of. -/
theorem kept_publishSucceeded (hr : s.Mentions r)
    (hd : s.deliveries[i]? = some ⟨origin, target, failStreak, true⟩)
    (h : s' = { s with deliveries := s.deliveries.eraseIdx i }.publishSucceeded target orphan) :
    r ∈ s'.log.sentInTick ∨ s'.Mentions r := by
  obtain ⟨_, _, heq⟩ := publishSucceeded_eq
    { s with deliveries := s.deliveries.eraseIdx i } target orphan
  by_cases hne : target.rhash = r
  · rw [h, heq]
    exact .inl (List.mem_append_right _ (List.mem_singleton.2 hne.symm))
  · rw [h]
    refine .inr ((hr.of_other_delivery hd hne).mono ?_ tails_subset_publishSucceeded ?_)
    · rw [heq]
      exact List.Subset.refl _
    · rw [heq]

/-- A publish that fails while the window is open leaves a tail behind. -/
theorem kept_publishFailed (hgroup : s.taskgroup = .running) (hguarded : s.Guarded)
    (howes : s.Owes r) (hr : s.Mentions r)
    (hd : s.deliveries[i]? = some ⟨origin, target, failStreak, true⟩)
    (hopen : target.rhash ∉ s.log.sentInTick → ∀ e ∈ s.receipts.lookup target.rhash,
      1 ≤ e.sendCount → s.now - e.firstSend.getD 0 < fastRetryWindowSec)
    (h : s' = { s with deliveries := s.deliveries.eraseIdx i }.publishFailed target failStreak
      orphan) :
    r ∈ s'.log.sentInTick ∨ s'.Mentions r := by
  obtain ⟨_, _, heq⟩ := publishFailed_eq
    { s with deliveries := s.deliveries.eraseIdx i } target failStreak orphan
  by_cases hne : target.rhash = r
  · subst hne
    by_cases hsent : target.rhash ∈ s.log.sentInTick
    · rw [h, heq]
      exact .inl hsent
    · obtain ⟨e, he, hdue, hsched⟩ := howes
      obtain ⟨delay, hdelay⟩ := ReceiptRegistry.exists_failRetryDelay he hdue hsched
        (hopen hsent e he) (failStreak + 1)
      have hscheduled : s' = scheduleReceiptRebroadcast
          { s with deliveries := s.deliveries.eraseIdx i } target delay (failStreak + 1)
            orphan := by
        rw [h]
        simp only [publishFailed, hdelay]
      rw [hscheduled]
      refine .inr (.inr (.inl (guarded_scheduleReceiptRebroadcast ?_ ?_).2))
      · exact hgroup
      · exact hguarded
  · rw [h]
    refine .inr ((hr.of_other_delivery hd hne).mono ?_ tails_subset_publishFailed ?_)
    · rw [heq]
      exact List.Subset.refl _
    · rw [heq]

/-- During the first tick a receipt that is taken care of stays so until it is sent. -/
theorem mentions_kept (hinv : ResumeInv s) (hP : Resumable s a) (hfirst : s.InFirstTick)
    (h : s.step a = some s') (hstill : s'.InFirstTick) (howes : s.Owes r) (hr : s.Mentions r) :
    r ∈ s'.log.sentInTick ∨ s'.Mentions r := by
  obtain ⟨targets₀, hloop₀⟩ := hfirst
  have hgroup : s.taskgroup = .running := hinv.group (by simp [hloop₀])
  have hmanager : s.manager = true := hinv.manager hgroup
  cases step_outcome h with
  | paid =>
    obtain ⟨queued, heq, -⟩ := s.notifyPaid_eq _
    rw [heq]
    exact .inr (hr.mono (List.subset_append_left _ _) (List.Subset.refl _) rfl)
  | @deliver i origin target failStreak hd =>
    refine .inr (mentions_deliverReceipt_of_manager ?_ ?_)
    · by_cases hne : target.rhash = r
      · exact .inr hne
      · exact .inl (hr.of_other_delivery hd hne)
    · exact hmanager
  | publishOk hd => exact kept_publishSucceeded hr hd rfl
  | publishFail hd =>
    exact kept_publishFailed hgroup (hinv.guarded ⟨targets₀, hloop₀⟩) howes hr hd
      (hP ⟨targets₀, hloop₀⟩ _ hd) rfl
  | tailStart htail =>
    rcases hr with hd | htail' | hloop
    · exact .inr (.inl hd)
    · refine .inr (.inr (.inl ((exists_tail_set htail ?_).2 htail')))
      rfl
    · exact .inr (.inr (.inr hloop))
  | @tailWake i tail htail hbegun =>
    rw [rebroadcastReceipt_eq]
    by_cases hne : tail.target.rhash = r
    · -- the receipt is still owed, so the tail delivers it
      obtain ⟨e, he, hdue, -⟩ := howes
      have howed : s.receipts.isOwed tail.target.rhash = true := by
        rw [hne]
        exact (ReceiptRegistry.isOwed_iff _ _).2 ⟨e, he, hdue⟩
      rw [if_pos howed]
      refine .inr (mentions_deliverReceipt_of_manager (.inr hne) ?_)
      exact hmanager
    · have hcleared := hr.of_other_tail htail hne
      split
      · refine .inr (mentions_deliverReceipt_of_manager (.inl hcleared) ?_)
        exact hmanager
      · exact .inr hcleared
  -- a tick does not begin inside a tick
  | tickStart hbegins => simp [tickBegins, hloop₀] at hbegins
  | @tickNext first target targets hloop hwaits =>
    refine .inr (mentions_deliverReceipt_of_manager ?_ ?_)
    · rcases hr with hd | htail | ⟨_, _, heq, t, ht, rfl⟩
      · exact .inl (.inl hd)
      · exact .inl (.inr (.inl htail))
      · obtain ⟨-, rfl⟩ := RedeliveryLoop.iterating.inj (hloop.symm.trans heq)
        rcases List.mem_cons.1 ht with rfl | ht
        · exact .inr rfl
        · exact .inl (.inr (.inr ⟨first, targets, rfl, t, ht, rfl⟩))
    · exact hmanager
  | tickDone =>
    obtain ⟨_, heq⟩ := hstill
    cases heq
  | openGroup hnone => cases hgroup.symm.trans hnone
  | cancel =>
    obtain ⟨_, heq⟩ := hstill
    cases heq
  | _ => exact .inr hr

end Kept

/-- The first tick of a taskgroup goes on, or begins. -/
theorem inFirstTick_step (h : s.step a = some s') (hstill : s'.InFirstTick) :
    s.InFirstTick ∨ a = .tickStart ∧ s.redelivery = .starting := by
  obtain ⟨targets', hloop'⟩ := hstill
  cases control_step h with
  | kept hkept => exact .inl ⟨targets', hkept.redelivery.symm.trans hloop'⟩
  | @tickStart first hbegins =>
    obtain ⟨rfl, -⟩ := RedeliveryLoop.iterating.inj hloop'
    refine .inr ⟨rfl, ?_⟩
    unfold tickBegins at hbegins
    split at hbegins
    next hstarting => exact hstarting
    next => split at hbegins <;> simp at hbegins
    next => cases hbegins
  | tickNext hloop hkept =>
    -- the loop goes on with the rest of its targets
    obtain ⟨rfl, -⟩ := RedeliveryLoop.iterating.inj (hkept.redelivery.symm.trans hloop')
    exact .inl ⟨_, hloop⟩
  | tickDone => cases hloop'
  | openGroup => cases hloop'
  | cancel => cases hloop'
  | _ => exact .inl ⟨targets', hloop'⟩

theorem LiveTail.mentions {r : PaymentHash} (h : s.LiveTail r) : s.Mentions r := by
  rcases h with htail | ⟨d, hd, -, hr⟩
  · exact .inr (.inl htail)
  · exact .inl ⟨d, hd, hr⟩

/-- A receipt that is ready when the tick begins is among its targets. -/
theorem mentions_beginTick {r : PaymentHash} {e : ReceiptEntry} {first : Bool}
    (he : (s.beginTick first).receipts.lookup r = some e) (hdue : e.due = true)
    (hready : e.Ready s.now) : (s.beginTick first).Mentions r := by
  refine .inr (.inr ⟨first, _, rfl, ReceiptRegistry.target r e, ?_, rfl⟩)
  exact (ReceiptRegistry.mem_dueTargets_iff _ _ _).2 ⟨r, e, he, (Dict.get?_filter_eq_some.1 he).2,
    (ReceiptEntry.isDueNow_iff_ready hdue).2 hready, rfl⟩

theorem resumeInv_step (hinv : ResumeInv s) (hP : Resumable s a) (h : s.step a = some s') :
    ResumeInv s' := by
  refine ⟨groupInv_step hinv.toGroupInv h, fun hstill => ?_, fun hstill r howes' => ?_⟩
  · have hnot : a ≠ .cancel := by
      rintro rfl
      obtain ⟨_, hloop⟩ := hstill
      cases step_outcome h
      cases hloop
    rcases inFirstTick_step h hstill with hfirst | ⟨rfl, hstarting⟩
    · obtain ⟨targets, hloop⟩ := hfirst
      exact guarded_step (hinv.group (by simp [hloop])) (hinv.guarded ⟨targets, hloop⟩) hnot h
    · exact guarded_step (hinv.group (by simp [hstarting])) (hP hstarting).1 hnot h
  · rcases inFirstTick_step h hstill with hfirst | ⟨rfl, hstarting⟩
    · have hnot : a ≠ .tickStart := by
        rintro rfl
        obtain ⟨targets, hloop⟩ := hfirst
        simp [step, tickBegins, hloop] at h
      -- within the tick, what is owed was owed, or was just announced, or was just sent
      rcases owes_step h howes' with howes | ⟨rfl, hmem⟩ | hsent
      · rcases hinv.pursued hfirst r howes with hsent | hr
        · exact .inl (sentInTick_step hnot h hsent)
        · exact mentions_kept hinv hP hfirst h hstill howes hr
      · -- the notification queues a delivery
        obtain ⟨queued, heq, ⟨-, hnone⟩ | ⟨target, rfl, hr, -⟩⟩ := s.notifyPaid_eq r
        · exact absurd hmem hnone
        · obtain rfl := Option.some.inj h
          rw [heq]
          exact .inr (.inl ⟨_, List.mem_append_right _ (List.mem_singleton_self _), hr⟩)
      · exact .inl hsent
    · -- the first tick begins: what is ready is a target, and the rest has a tail or a delivery
      obtain rfl : s.beginTick true = s' := by
        simpa [step, tickBegins, hstarting] using h
      obtain ⟨e, he, hdue, hsched⟩ := howes'
      rcases (hP hstarting).2 r e (Dict.get?_filter_eq_some.1 he).1 hdue hsched with hready | hlive
      · exact .inr (mentions_beginTick he hdue hready)
      · rcases hlive.mentions with hd | htail | ⟨_, _, heq, -⟩
        · exact .inr (.inl hd)
        · exact .inr (.inr (.inl htail))
        · cases hstarting.symm.trans heq

/-- In every run that meets `Resumable`, no scheduled receipt is left behind when the first tick of
a taskgroup is done. -/
theorem first_tick_resumes {now : Time} {s s' : Courier}
    (hrun : Reachable Resumable (start now) s) (hfirst : s.InFirstTick)
    (hP : Resumable s .tickDone) (hdone : s.step .tickDone = some s') : s'.NoneStranded := by
  have hinv : ResumeInv s := by
    refine hrun.invariant ⟨⟨?_, ?_⟩, ?_, ?_⟩ fun _ _ _ hinv hP h => resumeInv_step hinv hP h
    · exact fun h => absurd rfl h
    · exact fun h => by cases h
    · rintro ⟨_, hloop⟩
      cases hloop
    · rintro ⟨_, hloop⟩
      cases hloop
  cases step_outcome hdone with
  | tickDone hloop hwaits =>
    intro r howes
    rcases hinv.pursued hfirst r howes with hsent | ⟨d, hd, rfl⟩ | htail | ⟨_, _, heq, t, ht, -⟩
    · exact .inl hsent
    · -- a delivery under way is of a notification or of a tail: the tick itself waits
      rcases horigin : d.origin with _ | grouped | _
      · exact hP hfirst d hd horigin
      · refine .inr (.inr ⟨d, hd, ?_, rfl⟩)
        cases grouped
        · exact .inr horigin
        · exact .inl horigin
      · exact absurd horigin (hwaits d hd)
    · exact .inr (.inl htail)
    · -- and its list of targets is empty
      obtain ⟨-, rfl⟩ := RedeliveryLoop.iterating.inj (hloop.symm.trans heq)
      cases ht

/-! ## An interrupted schedule -/

/-- A receipt is sent once at time 0; at time 2 the taskgroup is cancelled with the tail, and at
time `t` the first tick of the next taskgroup begins. -/
def interruptedSchedule (t : Time) : List Action :=
  [.remember "r" "p" "q" 100, .connect, .openGroup, .tickStart, .tickDone, .paid "r", .deliver 0,
    .publishOk 0 false, .tailStart 0, .advance 2, .cancel, .exitGroup, .advance t, .openGroup,
    .tickStart]

/-- After 20 seconds the receipt has reached its next offset, and the tick sends it. -/
theorem first_tick_resumes_after_offset :
    ∃ s s', Reachable Resumable (start 0) s ∧ s.Owes "r" ∧ s.step .tickDone = some s' ∧
      s'.NoneStranded := by
  have hrun : (Transition.exec (Transition.guarded step Resumable) (start 0)
      (interruptedSchedule 20 ++ [.tickNext, .publishOk 0 false])).any (fun s =>
        decide s.InFirstTick && decide (s.Resumable .tickDone) && (s.step .tickDone).isSome &&
        (s.receipts.lookup "r").any (fun e => e.due && decide (e.InSchedule s.now))) = true := by
    decide +kernel
  obtain ⟨s, hexec, hfacts⟩ := (Option.any_eq_true _ _).1 hrun
  simp only [Bool.and_eq_true, decide_eq_true_eq] at hfacts
  obtain ⟨⟨⟨hfirst, hP⟩, hdone⟩, hentry⟩ := hfacts
  obtain ⟨s', hdone⟩ := Option.isSome_iff_exists.1 hdone
  obtain ⟨e, he, hdue⟩ := (Option.any_eq_true _ _).1 hentry
  simp only [Bool.and_eq_true, decide_eq_true_eq] at hdue
  have hreach := Transition.reachable_of_exec_guarded hexec
  exact ⟨s, s', hreach, ⟨e, he, hdue⟩, hdone, first_tick_resumes hreach hfirst hP hdone⟩

/-- After 5 seconds the receipt has not reached its next offset: the tick skips it, and no tail is
left to send it. -/
theorem early_reconnect_strands_receipt :
    ∃ s s', Reachable (fun _ _ => True) (start 0) s ∧ s.InFirstTick ∧
      s.step .tickDone = some s' ∧ ¬ s'.NoneStranded := by
  have hrun : (Transition.exec step (start 0) (interruptedSchedule 5)).any (fun s =>
      decide s.InFirstTick && (s.step .tickDone).any (fun s' =>
        (s'.receipts.lookup "r").any (fun e => e.due && decide (e.InSchedule s'.now)) &&
        decide ("r" ∉ s'.log.sentInTick) && decide (¬ s'.LiveTail "r"))) = true := by
    decide +kernel
  obtain ⟨s, hexec, hfacts⟩ := (Option.any_eq_true _ _).1 hrun
  obtain ⟨hfirst, hfacts⟩ := Bool.and_eq_true_iff.1 hfacts
  obtain ⟨s', hdone, hfacts⟩ := (Option.any_eq_true _ _).1 hfacts
  simp only [Bool.and_eq_true, decide_eq_true_eq] at hfacts
  obtain ⟨⟨hentry, hsent⟩, htail⟩ := hfacts
  obtain ⟨e, he, hdue⟩ := (Option.any_eq_true _ _).1 hentry
  simp only [Bool.and_eq_true, decide_eq_true_eq] at hdue
  refine ⟨s, s', Transition.reachable_of_exec hexec, of_decide_eq_true hfirst, hdone,
    fun hnone => ?_⟩
  rcases hnone "r" ⟨e, he, hdue⟩ with h | h
  · exact hsent h
  · exact htail h

end Courier

end ElectrumClink
