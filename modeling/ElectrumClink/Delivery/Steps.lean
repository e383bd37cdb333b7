import ElectrumClink.Delivery.Model
import ElectrumClink.Receipts.Lifecycle
import Mathlib.Data.List.Perm.Basic

/-!
# What one step of the delivery does

`step_outcome` inverts the step function: it gives the state after each action and the guard that
was passed. `control_step` keeps of it what concerns the clock, the manager, the taskgroup and the
redelivery loop, which most steps leave alone. `step_effect` sums up what a step does to the
registry and to the log, whichever of the three callers of `_deliver_receipt` took it: nothing that
concerns a publish, or one attempt that found no manager, one publish started, or one publish that
succeeded.
-/

namespace ElectrumClink.Courier

/-! ## What the coroutines leave alone -/

section Schedule

variable (s : Courier) (target : ReceiptTarget) (delay : Time) (failStreak : ℕ) (orphan : Bool)

/-- Scheduling a tail touches the tails and their guards only. -/
theorem scheduleReceiptRebroadcast_eq :
    ∃ receiptTails tails,
      s.scheduleReceiptRebroadcast target delay failStreak orphan =
        { s with receiptTails := receiptTails, tails := tails } := by
  unfold scheduleReceiptRebroadcast spawnTail
  split
  · exact ⟨s.receiptTails, s.tails, rfl⟩
  · split
    · exact ⟨_, s.tails, rfl⟩
    · exact ⟨_, _, rfl⟩
    · split
      · exact ⟨_, _, rfl⟩
      · exact ⟨_, s.tails, rfl⟩

/-- A successful publish is counted and logged, and may schedule a tail. -/
theorem publishSucceeded_eq :
    ∃ receiptTails tails, s.publishSucceeded target orphan = { s with
      receipts := (s.receipts.recordSend s.now target.rhash).2
      receiptTails := receiptTails
      tails := tails
      log := { s.log with
        sent := s.log.sent ++ [target.rhash]
        sentInTick := s.log.sentInTick ++ [target.rhash] } } := by
  unfold publishSucceeded
  dsimp only
  split
  · exact ⟨s.receiptTails, s.tails, rfl⟩
  next delay _ =>
    obtain ⟨receiptTails, tails, h⟩ := scheduleReceiptRebroadcast_eq { s with
      receipts := (s.receipts.recordSend s.now target.rhash).2
      log := { s.log with
        sent := s.log.sent ++ [target.rhash]
        sentInTick := s.log.sentInTick ++ [target.rhash] } }
      { target with sends := target.sends + 1 } delay 0 orphan
    exact ⟨receiptTails, tails, h⟩

/-- A failed publish may schedule a tail. -/
theorem publishFailed_eq :
    ∃ receiptTails tails, s.publishFailed target failStreak orphan =
      { s with receiptTails := receiptTails, tails := tails } := by
  unfold publishFailed
  split
  · exact ⟨s.receiptTails, s.tails, rfl⟩
  · exact s.scheduleReceiptRebroadcast_eq _ _ _ _

end Schedule

/-- Starting a delivery touches neither tails nor guards. -/
theorem deliverReceipt_eq (s : Courier) (origin : Origin) (target : ReceiptTarget)
    (failStreak : ℕ) :
    ∃ receipts deliveries log, s.deliverReceipt origin target failStreak =
      { s with receipts := receipts, deliveries := deliveries, log := log } ∧
      log.sentInTick = s.log.sentInTick := by
  unfold deliverReceipt
  dsimp only
  split
  · exact ⟨_, _, _, rfl, rfl⟩
  · exact ⟨_, _, _, rfl, rfl⟩

/-- The guard of a hash is cleared. -/
def clearGuard (s : Courier) (rhash : PaymentHash) : Courier :=
  { s with receiptTails := s.receiptTails.filter fun r => r ≠ rhash }

/-- A tail that wakes up clears its guard, and delivers the receipt if it is still owed. -/
theorem rebroadcastReceipt_eq (s : Courier) (tail : Tail) :
    s.rebroadcastReceipt tail =
      if s.receipts.isOwed tail.target.rhash = true then
        (s.clearGuard tail.target.rhash).deliverReceipt (.tail tail.grouped) tail.target
          tail.failStreak
      else s.clearGuard tail.target.rhash := by
  cases howed : s.receipts.isOwed tail.target.rhash <;>
    simp [rebroadcastReceipt, clearGuard, howed]

/-- A notification marks the entry due and queues at most one delivery, which has not begun. -/
theorem notifyPaid_eq (s : Courier) (rhash : PaymentHash) :
    ∃ queued : List Delivering, s.notifyPaid rhash = { s with
        receipts := (s.receipts.markDue s.now rhash).2
        deliveries := s.deliveries ++ queued } ∧
      (queued = [] ∧ rhash ∉ s.receipts.pending ∨
        ∃ target, queued = [⟨.notification, target, 0, false⟩] ∧ target.rhash = rhash ∧
          rhash ∈ s.receipts.pending) := by
  unfold notifyPaid ReceiptRegistry.markDue
  rcases hentry : s.receipts.lookup rhash with _ | entry
  · exact ⟨[], by simp, .inl ⟨rfl, Dict.get?_eq_none_iff.1 hentry⟩⟩
  · exact ⟨_, rfl, .inr ⟨_, rfl, rfl, Dict.mem_of_get? hentry⟩⟩

/-! ## Inversion -/

/-- Every action with the guard it passes and the state it leads to. -/
inductive StepOutcome (s : Courier) : Action → Courier → Prop
  | advance {t : Time} (hle : s.now ≤ t) : StepOutcome s (.advance t) { s with now := t }
  | remember {rhash : PaymentHash} {payerPubkey : Pubkey} {requestEventId : EventId}
      {expiresAt : Time} (hfresh : rhash ∉ s.log.known) :
      StepOutcome s (.remember rhash payerPubkey requestEventId expiresAt) { s with
        receipts := (s.receipts.remember rhash payerPubkey requestEventId expiresAt).2
        log := { s.log with known := s.log.known ++ [rhash] } }
  | paid {rhash : PaymentHash} : StepOutcome s (.paid rhash) (s.notifyPaid rhash)
  | deliver {i : ℕ} {origin : Origin} {target : ReceiptTarget} {failStreak : ℕ}
      (hd : s.deliveries[i]? = some ⟨origin, target, failStreak, false⟩) :
      StepOutcome s (.deliver i)
        ({ s with deliveries := s.deliveries.eraseIdx i }.deliverReceipt origin target failStreak)
  | publishOk {i : ℕ} {orphan : Bool} {origin : Origin} {target : ReceiptTarget} {failStreak : ℕ}
      (hd : s.deliveries[i]? = some ⟨origin, target, failStreak, true⟩) :
      StepOutcome s (.publishOk i orphan)
        ({ s with deliveries := s.deliveries.eraseIdx i }.publishSucceeded target orphan)
  | publishFail {i : ℕ} {orphan : Bool} {origin : Origin} {target : ReceiptTarget}
      {failStreak : ℕ} (hd : s.deliveries[i]? = some ⟨origin, target, failStreak, true⟩) :
      StepOutcome s (.publishFail i orphan)
        ({ s with deliveries := s.deliveries.eraseIdx i }.publishFailed target failStreak orphan)
  | tailStart {i : ℕ} {target : ReceiptTarget} {failStreak : ℕ} {delay : Time} {grouped : Bool}
      (htail : s.tails[i]? = some ⟨target, failStreak, .created delay, grouped⟩) :
      StepOutcome s (.tailStart i) { s with
        tails := s.tails.set i ⟨target, failStreak, .sleeping (s.now + delay), grouped⟩ }
  | tailWake {i : ℕ} {tail : Tail} (htail : s.tails[i]? = some tail)
      (hbegun : tail.phase.begun = true) :
      StepOutcome s (.tailWake i)
        ({ s with tails := s.tails.eraseIdx i }.rebroadcastReceipt tail)
  | tickStart {first : Bool} (hbegins : s.tickBegins = some first) :
      StepOutcome s .tickStart (s.beginTick first)
  | tickNext {first : Bool} {target : ReceiptTarget} {targets : List ReceiptTarget}
      (hloop : s.redelivery = .iterating first (target :: targets)) (hwaits : s.loopWaits) :
      StepOutcome s .tickNext
        ({ s with redelivery := .iterating first targets }.deliverReceipt .tick target 0)
  | tickDone {first : Bool} (hloop : s.redelivery = .iterating first []) (hwaits : s.loopWaits) :
      StepOutcome s .tickDone { s with redelivery := .sleeping (s.now + retryIntervalSec) }
  | connect (hgroup : s.taskgroup = .none) : StepOutcome s .connect { s with manager := true }
  | openGroup (hgroup : s.taskgroup = .none) (hmanager : s.manager = true) :
      StepOutcome s .openGroup { s with taskgroup := .running, redelivery := .starting }
  | cancel (hgroup : s.taskgroup = .running) : StepOutcome s .cancel s.cancelTasks
  | exitGroup (hgroup : s.taskgroup = .running) (hdone : s.tasksDone) :
      StepOutcome s .exitGroup { s with taskgroup := .none }
  | failGroup (hgroup : s.taskgroup = .running) (hdone : s.tasksDone) :
      StepOutcome s .failGroup { s with taskgroup := .joined }
  | dropManager (hgroup : s.taskgroup = .joined) :
      StepOutcome s .dropManager { s with manager := false }
  | resetGroup (hgroup : s.taskgroup = .joined) :
      StepOutcome s .resetGroup { s with taskgroup := .none }

variable {s s' : Courier} {a : Action}

/-- A step is one of the outcomes. -/
theorem step_outcome (h : s.step a = some s') : StepOutcome s a s' := by
  cases a with
  | remember rhash payerPubkey requestEventId expiresAt =>
    simp only [step, Option.ite_none_left_eq_some, Option.some.injEq] at h
    obtain ⟨hfresh, rfl⟩ := h
    exact .remember hfresh
  | paid rhash =>
    obtain rfl := Option.some.inj h
    exact .paid
  | deliver i =>
    simp only [step] at h
    split at h
    next hd =>
      obtain rfl := Option.some.inj h
      exact .deliver hd
    next => cases h
  | publishOk i orphan =>
    simp only [step] at h
    split at h
    next hd =>
      obtain rfl := Option.some.inj h
      exact .publishOk hd
    next => cases h
  | publishFail i orphan =>
    simp only [step] at h
    split at h
    next hd =>
      obtain rfl := Option.some.inj h
      exact .publishFail hd
    next => cases h
  | tailStart i =>
    simp only [step] at h
    split at h
    next htail =>
      obtain rfl := Option.some.inj h
      exact .tailStart htail
    next => cases h
  | tailWake i =>
    simp only [step] at h
    split at h
    next htail =>
      simp only [Option.ite_none_right_eq_some, Option.some.injEq] at h
      obtain ⟨-, rfl⟩ := h
      exact .tailWake htail rfl
    next => cases h
  | tickStart =>
    obtain ⟨first, hbegins, rfl⟩ := Option.map_eq_some_iff.1 h
    exact .tickStart hbegins
  | tickNext =>
    simp only [step] at h
    split at h
    next hloop =>
      simp only [Option.ite_none_right_eq_some, Option.some.injEq] at h
      obtain ⟨hwaits, rfl⟩ := h
      exact .tickNext hloop hwaits
    next => cases h
  | tickDone =>
    simp only [step] at h
    split at h
    next hloop =>
      simp only [Option.ite_none_right_eq_some, Option.some.injEq] at h
      obtain ⟨hwaits, rfl⟩ := h
      exact .tickDone hloop hwaits
    next => cases h
  -- the other actions are one guard and one new state each
  | _ =>
    simp only [step, Option.ite_none_right_eq_some, Option.some.injEq] at h
    obtain ⟨hguard, rfl⟩ := h
    first
      | exact .advance hguard
      | exact .connect hguard
      | exact .openGroup hguard.1 hguard.2
      | exact .cancel hguard
      | exact .exitGroup hguard.1 hguard.2
      | exact .failGroup hguard.1 hguard.2
      | exact .dropManager hguard
      | exact .resetGroup hguard

/-! ## The effect on the control state -/

/-- Clock, manager, taskgroup and redelivery loop stay as they are, and so do the sends of the tick,
up to new ones. -/
structure ControlKept (s s' : Courier) : Prop where
  now : s'.now = s.now
  manager : s'.manager = s.manager
  taskgroup : s'.taskgroup = s.taskgroup
  redelivery : s'.redelivery = s.redelivery
  sentInTick : s.log.sentInTick ⊆ s'.log.sentInTick

theorem ControlKept.deliverReceipt (s : Courier) (origin : Origin) (target : ReceiptTarget)
    (failStreak : ℕ) : ControlKept s (s.deliverReceipt origin target failStreak) := by
  obtain ⟨receipts, deliveries, log, heq, hsent⟩ := s.deliverReceipt_eq origin target failStreak
  rw [heq]
  exact ⟨rfl, rfl, rfl, rfl, by rw [hsent]; exact List.Subset.refl _⟩

/-- What a step does to the control state. The steps of the tails and deliveries do nothing. -/
inductive ControlStep (s : Courier) : Action → Courier → Prop
  | kept {a : Action} {s' : Courier} (hkept : ControlKept s s') : ControlStep s a s'
  | advance {t : Time} (hle : s.now ≤ t) : ControlStep s (.advance t) { s with now := t }
  | tickStart {first : Bool} (hbegins : s.tickBegins = some first) :
      ControlStep s .tickStart (s.beginTick first)
  | tickNext {first : Bool} {target : ReceiptTarget} {targets : List ReceiptTarget} {s' : Courier}
      (hloop : s.redelivery = .iterating first (target :: targets))
      (hkept : ControlKept { s with redelivery := .iterating first targets } s') :
      ControlStep s .tickNext s'
  | tickDone {first : Bool} (hloop : s.redelivery = .iterating first []) :
      ControlStep s .tickDone { s with redelivery := .sleeping (s.now + retryIntervalSec) }
  | connect (hgroup : s.taskgroup = .none) : ControlStep s .connect { s with manager := true }
  | openGroup (hgroup : s.taskgroup = .none) (hmanager : s.manager = true) :
      ControlStep s .openGroup { s with taskgroup := .running, redelivery := .starting }
  | cancel (hgroup : s.taskgroup = .running) : ControlStep s .cancel s.cancelTasks
  | exitGroup (hdone : s.tasksDone) : ControlStep s .exitGroup { s with taskgroup := .none }
  | failGroup (hdone : s.tasksDone) : ControlStep s .failGroup { s with taskgroup := .joined }
  | dropManager (hgroup : s.taskgroup = .joined) :
      ControlStep s .dropManager { s with manager := false }
  | resetGroup (hgroup : s.taskgroup = .joined) :
      ControlStep s .resetGroup { s with taskgroup := .none }

theorem control_step (h : s.step a = some s') : ControlStep s a s' := by
  cases step_outcome h with
  | advance hle => exact .advance hle
  | remember => exact .kept ⟨rfl, rfl, rfl, rfl, List.Subset.refl _⟩
  | @paid rhash =>
    obtain ⟨queued, heq, -⟩ := s.notifyPaid_eq rhash
    rw [heq]
    exact .kept ⟨rfl, rfl, rfl, rfl, List.Subset.refl _⟩
  | @deliver i origin target failStreak hd =>
    obtain ⟨hnow, hmanager, hgroup, hloop, hsent⟩ := ControlKept.deliverReceipt
      { s with deliveries := s.deliveries.eraseIdx i } origin target failStreak
    exact .kept ⟨hnow, hmanager, hgroup, hloop, hsent⟩
  | publishOk =>
    obtain ⟨receiptTails, tails, heq⟩ := publishSucceeded_eq _ _ _
    rw [heq]
    exact .kept ⟨rfl, rfl, rfl, rfl, List.subset_append_left _ _⟩
  | publishFail =>
    obtain ⟨receiptTails, tails, heq⟩ := publishFailed_eq _ _ _ _
    rw [heq]
    exact .kept ⟨rfl, rfl, rfl, rfl, List.Subset.refl _⟩
  | tailStart => exact .kept ⟨rfl, rfl, rfl, rfl, List.Subset.refl _⟩
  | @tailWake i tail htail hbegun =>
    -- the tail sends again only while its receipt is still owed
    rw [rebroadcastReceipt_eq]
    split
    · obtain ⟨hnow, hmanager, hgroup, hloop, hsent⟩ := ControlKept.deliverReceipt
        (clearGuard { s with tails := s.tails.eraseIdx i } tail.target.rhash)
        (.tail tail.grouped) tail.target tail.failStreak
      exact .kept ⟨hnow, hmanager, hgroup, hloop, hsent⟩
    · exact .kept ⟨rfl, rfl, rfl, rfl, List.Subset.refl _⟩
  | tickStart hbegins => exact .tickStart hbegins
  | tickNext hloop => exact .tickNext hloop (ControlKept.deliverReceipt _ _ _ _)
  | tickDone hloop => exact .tickDone hloop
  | connect hgroup => exact .connect hgroup
  | openGroup hgroup hmanager => exact .openGroup hgroup hmanager
  | cancel hgroup => exact .cancel hgroup
  | exitGroup hgroup hdone => exact .exitGroup hdone
  | failGroup hgroup hdone => exact .failGroup hdone
  | dropManager hgroup => exact .dropManager hgroup
  | resetGroup hgroup => exact .resetGroup hgroup

/-- No step turns the clock back. -/
theorem now_le_of_step (h : s.step a = some s') : s.now ≤ s'.now := by
  cases control_step h with
  | kept hkept => exact hkept.now.ge
  | advance hle => exact hle
  | tickNext hloop hkept => exact hkept.now.ge
  | _ => exact le_rfl

/-! ## The effect on registry and log -/

/-- The publishes of a receipt that are under way. -/
def publishing (s : Courier) (rhash : PaymentHash) : ℕ :=
  s.deliveries.countP fun d => d.publishing && decide (d.target.rhash = rhash)

/-- The hashes that a delivery, a tail or the current tick is about. -/
def Mentions (s : Courier) (rhash : PaymentHash) : Prop :=
  (∃ d ∈ s.deliveries, d.target.rhash = rhash) ∨ (∃ tail ∈ s.tails, tail.target.rhash = rhash) ∨
    ∃ first targets, s.redelivery = .iterating first targets ∧
      ∃ target ∈ targets, target.rhash = rhash

/-- The receipt whose publish an action begins, if it is enabled. -/
def begins (s : Courier) (a : Action) : Option PaymentHash :=
  if !s.manager then none
  else
    match a with
    | .deliver i => (s.deliveries[i]?).map fun d => d.target.rhash
    | .tailWake i =>
      ((s.tails[i]?).map fun tail => tail.target.rhash).filter fun rhash => s.receipts.isOwed rhash
    | .tickNext =>
      match s.redelivery with
      | .iterating _ (target :: _) => some target.rhash
      | _ => none
    | _ => none

/-- What a step does to registry and log. `rhash` is the receipt it is about. -/
inductive StepEffect (s : Courier) (a : Action) (s' : Courier) : Prop
  /-- No publish begins or succeeds. -/
  | quiet (op : ReceiptRegistry.Op)
      (hop : op = .rebuild ∨ op = .sweep ∨ ∃ r, op = .markDue r ∧ a = .paid r)
      (hreceipts : s'.receipts = op.apply s.now s.receipts)
      (hlog : s'.log = { s.log with sentInTick := s'.log.sentInTick })
      (hpublishing : ∀ r, s'.publishing r ≤ s.publishing r)
  /-- An invoice is remembered under a fresh hash. -/
  | remembered (rhash : PaymentHash) (payerPubkey : Pubkey) (requestEventId : EventId)
      (expiresAt : Time) (hfresh : rhash ∉ s.log.known)
      (hreceipts : s'.receipts =
        (s.receipts.remember rhash payerPubkey requestEventId expiresAt).2)
      (hlog : s'.log = { s.log with known := s.log.known ++ [rhash] })
      (hpublishing : s'.publishing = s.publishing)
  /-- An attempt finds no manager. -/
  | offline (rhash : PaymentHash) (hmentioned : s.Mentions rhash)
      (hreceipts : s'.receipts = s.receipts.recordAttempt s.now rhash)
      (hlog : s'.log = { s.log with offline := s.log.offline.set rhash s.now })
      (hpublishing : ∀ r, s'.publishing r ≤ s.publishing r)
  /-- An attempt begins to publish. -/
  | began (rhash : PaymentHash) (hmentioned : s.Mentions rhash)
      (hbegins : s.begins a = some rhash)
      (hreceipts : s'.receipts = s.receipts.recordAttempt s.now rhash)
      (hlog : s'.log = { s.log with started := s.log.started ++ [rhash] })
      (hpublishing : ∀ r, s'.publishing r ≤ s.publishing r + if r = rhash then 1 else 0)
  /-- A publish succeeds. -/
  | succeeded (rhash : PaymentHash) (hmentioned : s.Mentions rhash)
      (hreceipts : s'.receipts = (s.receipts.recordSend s.now rhash).2)
      (hlog : s'.log = { s.log with
        sent := s.log.sent ++ [rhash]
        sentInTick := s.log.sentInTick ++ [rhash] })
      (hpublishing : ∀ r, s'.publishing r + (if r = rhash then 1 else 0) = s.publishing r)

section Effect

variable {i : ℕ} {origin : Origin} {target : ReceiptTarget} {failStreak : ℕ}

/-- Ending a delivery ends its publish, if it had one. -/
theorem publishing_eraseIdx {d : Delivering} (hd : s.deliveries[i]? = some d)
    (r : PaymentHash) :
    ({ s with deliveries := s.deliveries.eraseIdx i } : Courier).publishing r +
        (if d.publishing = true ∧ d.target.rhash = r then 1 else 0) = s.publishing r := by
  obtain ⟨hi, rfl⟩ := List.getElem?_eq_some_iff.1 hd
  rw [publishing, publishing, ← (List.getElem_cons_eraseIdx_perm hi).countP_eq, List.countP_cons]
  simp

/-- An attempt from a state that differs only in what was being waited for. -/
theorem deliverReceipt_effect {s₁ : Courier} (hnow : s₁.now = s.now)
    (hreceipts : s₁.receipts = s.receipts) (hlog : s₁.log = s.log)
    (hpublishing : ∀ r, s₁.publishing r ≤ s.publishing r) (hmentioned : s.Mentions target.rhash)
    (hbegins : s₁.manager = true → s.begins a = some target.rhash) :
    StepEffect s a (s₁.deliverReceipt origin target failStreak) := by
  -- with a manager the attempt goes on to publish, without one it ends here
  by_cases hmanager : s₁.manager = true
  · refine .began target.rhash hmentioned (hbegins hmanager) ?_ ?_ fun r => ?_
    · simp [deliverReceipt, hmanager, hnow, hreceipts]
    · simp [deliverReceipt, hmanager, hlog]
    · have hone : (s₁.deliverReceipt origin target failStreak).publishing r =
          s₁.publishing r + if r = target.rhash then 1 else 0 := by
        simp [deliverReceipt, hmanager, publishing, List.countP_append, eq_comm]
      have hle := hpublishing r
      omega
  · refine .offline target.rhash hmentioned ?_ ?_ fun r => ?_
    · simp [deliverReceipt, hmanager, hnow, hreceipts]
    · simp [deliverReceipt, hmanager, hlog, hnow]
    · simpa [deliverReceipt, hmanager, publishing] using hpublishing r

/-- A step that leaves the registry alone and begins no publish. -/
theorem StepEffect.of_same (hreceipts : s'.receipts = s.receipts) (hlog : s'.log = s.log)
    (hpublishing : ∀ r, s'.publishing r ≤ s.publishing r) : StepEffect s a s' :=
  .quiet .rebuild (.inl rfl) hreceipts (by rw [hlog]) hpublishing

end Effect

/-- Every step has one of the effects. -/
theorem step_effect (h : s.step a = some s') : StepEffect s a s' := by
  cases step_outcome h with
  | remember hfresh => exact .remembered _ _ _ _ hfresh rfl rfl rfl
  | @paid rhash =>
    obtain ⟨queued, heq, hqueued⟩ := s.notifyPaid_eq rhash
    rw [heq]
    refine .quiet (.markDue rhash) (.inr (.inr ⟨rhash, rfl, rfl⟩)) rfl rfl fun r => ?_
    -- the queued delivery has not begun to publish
    rcases hqueued with ⟨rfl, -⟩ | ⟨target, rfl, -⟩ <;> simp [publishing]
  | @deliver i origin target failStreak hd =>
    refine deliverReceipt_effect rfl rfl rfl (fun r => ?_)
      (.inl ⟨_, List.mem_of_getElem? hd, rfl⟩) fun hmanager => ?_
    · exact Nat.le.intro (publishing_eraseIdx hd r)
    · have hmanager : s.manager = true := hmanager
      simp [begins, hmanager, hd]
  | @publishOk i orphan origin target failStreak hd =>
    obtain ⟨receiptTails, tails, heq⟩ :=
      publishSucceeded_eq { s with deliveries := s.deliveries.eraseIdx i } target orphan
    rw [heq]
    refine .succeeded target.rhash (.inl ⟨_, List.mem_of_getElem? hd, rfl⟩) rfl rfl fun r => ?_
    simpa [publishing, eq_comm] using publishing_eraseIdx hd r
  | @publishFail i orphan origin target failStreak hd =>
    obtain ⟨receiptTails, tails, heq⟩ :=
      publishFailed_eq { s with deliveries := s.deliveries.eraseIdx i } target failStreak orphan
    rw [heq]
    exact .of_same rfl rfl fun r => Nat.le.intro (publishing_eraseIdx hd r)
  | @tailWake i tail htail hbegun =>
    rw [rebroadcastReceipt_eq]
    split
    next howed =>
      have howed : s.receipts.isOwed tail.target.rhash = true := howed
      refine deliverReceipt_effect rfl rfl rfl (fun r => le_rfl)
        (.inr (.inl ⟨_, List.mem_of_getElem? htail, rfl⟩)) fun hmanager => ?_
      have hmanager : s.manager = true := hmanager
      simp [begins, hmanager, htail, howed, Option.filter]
    next => exact .of_same rfl rfl fun r => le_rfl
  | tickStart hbegins => exact .quiet .sweep (.inr (.inl rfl)) rfl rfl fun r => le_rfl
  | @tickNext first target targets hloop hwaits =>
    refine deliverReceipt_effect rfl rfl rfl (fun r => le_rfl)
      (.inr (.inr ⟨first, _, hloop, target, List.mem_cons_self, rfl⟩)) fun hmanager => ?_
    have hmanager : s.manager = true := hmanager
    simp [begins, hmanager, hloop]
  | cancel =>
    exact .of_same rfl rfl fun r => List.filter_sublist.countP_le
  | _ => exact .of_same rfl rfl fun r => le_rfl

/-! ## The hashes the tasks are about -/

section Mentions

variable {r : PaymentHash} {target : ReceiptTarget}

theorem Mentions.mono {s₁ : Courier} (h : s₁.Mentions r)
    (hdeliveries : s₁.deliveries ⊆ s.deliveries) (htails : s₁.tails ⊆ s.tails)
    (hloop : s₁.redelivery = s.redelivery) : s.Mentions r := by
  rcases h with ⟨d, hd, hr⟩ | ⟨tail, htail, hr⟩ | ⟨first, targets, heq, hr⟩
  · exact .inl ⟨d, hdeliveries hd, hr⟩
  · exact .inr (.inl ⟨tail, htails htail, hr⟩)
  · exact .inr (.inr ⟨first, targets, hloop ▸ heq, hr⟩)

theorem mentions_scheduleReceiptRebroadcast {delay : Time} {failStreak : ℕ} {orphan : Bool}
    (h : (s.scheduleReceiptRebroadcast target delay failStreak orphan).Mentions r) :
    s.Mentions r ∨ target.rhash = r := by
  -- whatever becomes of the spawn, at most one tail is added, and it is of the target
  have hnew : ∀ tails grouped, tails = s.tails ++ [⟨target, failStreak, .created delay, grouped⟩] →
      ∀ receiptTails,
        ({ s with receiptTails := receiptTails, tails := tails } : Courier).Mentions r →
        s.Mentions r ∨ target.rhash = r := by
    rintro tails grouped rfl receiptTails (hd | ⟨tail, htail, hr⟩ | hloop)
    · exact .inl (.inl hd)
    · rcases List.mem_append.1 htail with htail | htail
      · exact .inl (.inr (.inl ⟨tail, htail, hr⟩))
      · obtain rfl := List.mem_singleton.1 htail
        exact .inr hr
    · exact .inl (.inr (.inr hloop))
  unfold scheduleReceiptRebroadcast spawnTail at h
  split at h
  · exact .inl h
  · split at h
    · exact .inl h
    · exact hnew _ _ rfl _ h
    · split at h
      · exact hnew _ _ rfl _ h
      · exact .inl h

theorem mentions_deliverReceipt {origin : Origin} {failStreak : ℕ}
    (h : (s.deliverReceipt origin target failStreak).Mentions r) :
    s.Mentions r ∨ target.rhash = r := by
  unfold deliverReceipt at h
  dsimp only at h
  split at h
  · exact .inl h
  · rcases h with ⟨d, hd, hr⟩ | htail | hloop
    · rcases List.mem_append.1 hd with hd | hd
      · exact .inl (.inl ⟨d, hd, hr⟩)
      · obtain rfl := List.mem_singleton.1 hd
        exact .inr hr
    · exact .inl (.inr (.inl htail))
    · exact .inl (.inr (.inr hloop))

theorem mentions_publishSucceeded {orphan : Bool}
    (h : (s.publishSucceeded target orphan).Mentions r) : s.Mentions r ∨ target.rhash = r := by
  unfold publishSucceeded at h
  dsimp only at h
  split at h
  · exact .inl h
  · rcases mentions_scheduleReceiptRebroadcast h with h | h
    · exact .inl h
    · exact .inr h

theorem mentions_publishFailed {failStreak : ℕ} {orphan : Bool}
    (h : (s.publishFailed target failStreak orphan).Mentions r) :
    s.Mentions r ∨ target.rhash = r := by
  unfold publishFailed at h
  split at h
  · exact .inl h
  · exact mentions_scheduleReceiptRebroadcast h

/-- A receipt is newly taken up by a notification of its payment, or by a tick that finds it due. -/
theorem mentions_step_cases (h : s.step a = some s') (hr : s'.Mentions r) :
    s.Mentions r ∨ (a = .paid r ∧ r ∈ s.receipts.pending) ∨
      (a = .tickStart ∧ ∃ e, s.receipts.lookup r = some e ∧ e.isDueNow s.now = true) := by
  cases step_outcome h with
  | @paid rhash =>
    obtain ⟨queued, heq, hqueued⟩ := s.notifyPaid_eq rhash
    rw [heq] at hr
    rcases hr with ⟨d, hd, hr⟩ | htail | hloop
    · rcases List.mem_append.1 hd with hd | hd
      · exact .inl (.inl ⟨d, hd, hr⟩)
      · rcases hqueued with ⟨rfl, -⟩ | ⟨target, rfl, hrhash, hmem⟩
        · cases hd
        · obtain rfl := List.mem_singleton.1 hd
          obtain rfl : rhash = r := hrhash.symm.trans hr
          exact .inr (.inl ⟨rfl, hmem⟩)
    · exact .inl (.inr (.inl htail))
    · exact .inl (.inr (.inr hloop))
  | @deliver i origin target failStreak hd =>
    rcases mentions_deliverReceipt hr with hr | rfl
    · exact .inl (hr.mono List.eraseIdx_subset (List.Subset.refl _) rfl)
    · exact .inl (.inl ⟨_, List.mem_of_getElem? hd, rfl⟩)
  | @publishOk i orphan origin target failStreak hd =>
    rcases mentions_publishSucceeded hr with hr | rfl
    · exact .inl (hr.mono List.eraseIdx_subset (List.Subset.refl _) rfl)
    · exact .inl (.inl ⟨_, List.mem_of_getElem? hd, rfl⟩)
  | @publishFail i orphan origin target failStreak hd =>
    rcases mentions_publishFailed hr with hr | rfl
    · exact .inl (hr.mono List.eraseIdx_subset (List.Subset.refl _) rfl)
    · exact .inl (.inl ⟨_, List.mem_of_getElem? hd, rfl⟩)
  | @tailStart i target failStreak delay grouped htail =>
    rcases hr with hd | ⟨tail, hmem, hr⟩ | hloop
    · exact .inl (.inl hd)
    · rcases List.mem_or_eq_of_mem_set hmem with hmem | rfl
      · exact .inl (.inr (.inl ⟨tail, hmem, hr⟩))
      · -- the waiting tail replaces the one that was scheduled
        exact .inl (.inr (.inl ⟨_, List.mem_of_getElem? htail, hr⟩))
    · exact .inl (.inr (.inr hloop))
  | @tailWake i tail htail hbegun =>
    rw [rebroadcastReceipt_eq] at hr
    have hcleared : ∀ hr : Mentions (clearGuard { s with tails := s.tails.eraseIdx i }
        tail.target.rhash) r, s.Mentions r := fun hr =>
      hr.mono (List.Subset.refl _) List.eraseIdx_subset rfl
    split at hr
    · rcases mentions_deliverReceipt hr with hr | rfl
      · exact .inl (hcleared hr)
      · exact .inl (.inr (.inl ⟨_, List.mem_of_getElem? htail, rfl⟩))
    · exact .inl (hcleared hr)
  | @tickStart first hbegins =>
    rcases hr with hd | htail | ⟨_, targets, heq, target, htarget, rfl⟩
    · exact .inl (.inl hd)
    · exact .inl (.inr (.inl htail))
    · obtain ⟨-, rfl⟩ := RedeliveryLoop.iterating.inj heq
      -- a tick takes up what the swept registry has due
      obtain ⟨k, e, he, -, hdue, rfl⟩ := (ReceiptRegistry.mem_dueTargets_iff _ _ _).1 htarget
      exact .inr (.inr ⟨rfl, e, (Dict.get?_filter_eq_some.1 he).1, hdue⟩)
  | @tickNext first target targets hloop hwaits =>
    have hhead : s.Mentions target.rhash :=
      .inr (.inr ⟨first, _, hloop, target, List.mem_cons_self, rfl⟩)
    rcases mentions_deliverReceipt hr with (hd | htail | ⟨_, _, heq, t, ht, hr⟩) | rfl
    · exact .inl (.inl hd)
    · exact .inl (.inr (.inl htail))
    · obtain ⟨-, rfl⟩ := RedeliveryLoop.iterating.inj heq
      exact .inl (.inr (.inr ⟨first, _, hloop, t, List.mem_cons_of_mem _ ht, hr⟩))
    · exact .inl hhead
  | tickDone =>
    rcases hr with hd | htail | ⟨_, _, heq, -⟩
    · exact .inl (.inl hd)
    · exact .inl (.inr (.inl htail))
    · cases heq
  | openGroup =>
    rcases hr with hd | htail | ⟨_, _, heq, -⟩
    · exact .inl (.inl hd)
    · exact .inl (.inr (.inl htail))
    · cases heq
  | cancel =>
    rcases hr with ⟨d, hd, hr⟩ | ⟨tail, htail, hr⟩ | ⟨_, _, heq, -⟩
    · exact .inl (.inl ⟨d, List.mem_of_mem_filter hd, hr⟩)
    · exact .inl (.inr (.inl ⟨tail, List.mem_of_mem_filter htail, hr⟩))
    · cases heq
  | _ => exact .inl hr

/-- A step takes up only receipts of the registry. -/
theorem mentions_step (h : s.step a = some s') (hr : s'.Mentions r) :
    s.Mentions r ∨ r ∈ s.receipts.pending := by
  rcases mentions_step_cases h hr with hr | ⟨-, hmem⟩ | ⟨-, e, he, -⟩
  · exact .inl hr
  · exact .inr hmem
  · exact .inr (Dict.mem_of_get? he)

end Mentions

/-- Everything the state and the log are about was remembered at some time. -/
structure KnownInv (s : Courier) : Prop where
  entries : ∀ r ∈ s.receipts.pending, r ∈ s.log.known
  mentioned : ∀ r, s.Mentions r → r ∈ s.log.known
  started : ∀ r ∈ s.log.started, r ∈ s.log.known
  sent : ∀ r ∈ s.log.sent, r ∈ s.log.known
  offline : ∀ r ∈ s.log.offline, r ∈ s.log.known

theorem knownInv_start (now : Time) : KnownInv (start now) where
  entries := by simp [start, ReceiptRegistry.empty]
  mentioned := by simp [start, Mentions]
  started := by simp [start]
  sent := by simp [start]
  offline := by simp [start]

theorem knownInv_step (hinv : KnownInv s) (h : s.step a = some s') : KnownInv s' := by
  have hmentioned : ∀ r, s'.Mentions r → r ∈ s.log.known := fun r hr =>
    (mentions_step h hr).elim (hinv.mentioned r) (hinv.entries r)
  -- an operation that remembers nothing keeps the entries among the known hashes
  have hentries : ∀ op : ReceiptRegistry.Op, op.remembers = none →
      s'.receipts = op.apply s.now s.receipts → ∀ r ∈ s'.receipts.pending, r ∈ s.log.known := by
    intro op hop hreceipts r hr
    rw [hreceipts] at hr
    rcases ReceiptRegistry.mem_of_mem_apply hr with hr | hr
    · exact hinv.entries r hr
    · cases hop.symm.trans hr
  cases step_effect h with
  | quiet op hop hreceipts hlog hpublishing =>
    have hkeeps : op.remembers = none := by
      rcases hop with rfl | rfl | ⟨r, rfl, -⟩ <;> rfl
    refine ⟨?_, ?_, ?_, ?_, ?_⟩ <;> rw [hlog]
    exacts [hentries op hkeeps hreceipts, hmentioned, hinv.started, hinv.sent, hinv.offline]
  | remembered rhash payerPubkey requestEventId expiresAt hfresh hreceipts hlog hpublishing =>
    have hgrown : ∀ r ∈ s.log.known, r ∈ s'.log.known := fun r hr => by
      rw [hlog]
      exact List.mem_append_left _ hr
    refine ⟨fun r hr => ?_, fun r hr => hgrown r (hmentioned r hr), ?_, ?_, ?_⟩
    · rw [hreceipts] at hr
      rcases ReceiptRegistry.mem_of_mem_remember hr with rfl | hr
      · rw [hlog]
        exact List.mem_append_right _ (List.mem_singleton_self _)
      · exact hgrown r (hinv.entries r hr)
    all_goals
      intro r hr
      rw [hlog] at hr
    · exact hgrown r (hinv.started r hr)
    · exact hgrown r (hinv.sent r hr)
    · exact hgrown r (hinv.offline r hr)
  | offline rhash hrhash hreceipts hlog hpublishing =>
    refine ⟨?_, ?_, ?_, ?_, fun r hr => ?_⟩ <;> rw [hlog] at *
    exacts [hentries (.recordAttempt rhash) rfl hreceipts, hmentioned, hinv.started, hinv.sent,
      (Dict.mem_set.1 hr).elim (fun h => h ▸ hinv.mentioned rhash hrhash) (hinv.offline r)]
  | began rhash hrhash hbegins hreceipts hlog hpublishing =>
    refine ⟨?_, ?_, fun r hr => ?_, ?_, ?_⟩ <;> rw [hlog] at *
    exacts [hentries (.recordAttempt rhash) rfl hreceipts, hmentioned,
      (List.mem_append.1 hr).elim (hinv.started r)
        fun h => List.mem_singleton.1 h ▸ hinv.mentioned rhash hrhash,
      hinv.sent, hinv.offline]
  | succeeded rhash hrhash hreceipts hlog hpublishing =>
    refine ⟨?_, ?_, ?_, fun r hr => ?_, ?_⟩ <;> rw [hlog] at *
    exacts [hentries (.recordSend rhash) rfl hreceipts, hmentioned, hinv.started,
      (List.mem_append.1 hr).elim (hinv.sent r)
        fun h => List.mem_singleton.1 h ▸ hinv.mentioned rhash hrhash, hinv.offline]

end ElectrumClink.Courier
