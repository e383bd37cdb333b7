import ElectrumClink.Delivery.Resume

/-!
# The guard of the re-broadcast tails

`_receipt_tails` keeps a second tail from being scheduled for a receipt that has one. The guard is
set before the tail is spawned and cleared by the tail itself, when its sleep ends in any way. So it
stays for good when the tail never begins to sleep: its task may be cancelled before its first step
(`unstarted_tail_keeps_guard`), or a closed taskgroup may refuse it.

`one_live_tail_per_receipt` shows that these are the only ways, and that without them guards and
tails match.
-/

namespace ElectrumClink

namespace Courier

/-- The tails of a receipt that were spawned, were neither finished nor cancelled, and have not
woken up. -/
def liveTails (s : Courier) (r : PaymentHash) : ℕ :=
  s.tails.countP fun tail => tail.target.rhash = r

/-- A receipt is guarded when it has exactly one tail, and none has two. -/
structure GuardLaw (s : Courier) : Prop where
  guarded_iff : ∀ r, r ∈ s.receiptTails ↔ s.liveTails r = 1
  atMostOne : ∀ r, s.liveTails r ≤ 1

/-- The receipt that a step schedules a tail for, if there is none yet. -/
def schedules (s : Courier) : Action → Option PaymentHash
  | .publishOk i _ =>
    match s.deliveries[i]? with
    -- `record_send` returns no delay for the last send or an unknown hash
    | some ⟨_, target, _, true⟩ =>
      (s.receipts.recordSend s.now target.rhash).1.map fun _ => target.rhash
    | _ => none
  | .publishFail i _ =>
    match s.deliveries[i]? with
    | some ⟨_, target, failStreak, true⟩ =>
      (s.receipts.failRetryDelay s.now target.rhash (failStreak + 1)).map fun _ => target.rhash
    | _ => none
  | _ => none

/-- Whether the task of a tail that a closed taskgroup refuses runs nevertheless. -/
def Action.orphans : Action → Bool
  | .publishOk _ orphan | .publishFail _ orphan => orphan
  | _ => false

/-- No tail is cancelled before its first step, and none is lost to a closed taskgroup. -/
structure GuardSafe (s : Courier) (a : Action) : Prop where
  started : a = .cancel → ∀ tail ∈ s.tails, tail.grouped = true → tail.phase.begun = true
  taken : ∀ r, s.schedules a = some r → s.taskgroup = .joined →
    r ∈ s.receiptTails ∨ a.orphans = true

variable {s s' : Courier} {a : Action} {r : PaymentHash}

/-! ## Counting -/

/-- The law counts the tails of every receipt. -/
theorem guardLaw_iff : GuardLaw s ↔ ∀ r, s.liveTails r = if r ∈ s.receiptTails then 1 else 0 := by
  constructor
  · intro h r
    have hle := h.atMostOne r
    split
    next hr => exact (h.guarded_iff r).1 hr
    next hr =>
      have hne : s.liveTails r ≠ 1 := mt (h.guarded_iff r).2 hr
      omega
  · intro h
    refine ⟨fun r => ?_, fun r => ?_⟩
    · rw [h r]
      by_cases hr : r ∈ s.receiptTails
      · simp [hr]
      · simp [hr]
    · rw [h r]
      split <;> omega

/-- The law is about the tails and their guards. -/
theorem GuardLaw.of_eq (h : GuardLaw s) (htails : s'.tails = s.tails)
    (hguards : s'.receiptTails = s.receiptTails) : GuardLaw s' := by
  rw [guardLaw_iff] at h ⊢
  intro r
  rw [liveTails, htails, hguards]
  exact h r

theorem liveTails_pos {tail : Tail} (h : tail ∈ s.tails) : 0 < s.liveTails tail.target.rhash :=
  List.countP_pos_iff.2 ⟨tail, h, decide_eq_true rfl⟩

/-- One more tail. -/
theorem liveTails_append {tail : Tail} (htails : s'.tails = s.tails ++ [tail]) (r : PaymentHash) :
    s'.liveTails r = s.liveTails r + if tail.target.rhash = r then 1 else 0 := by
  rw [liveTails, htails, List.countP_append, List.countP_singleton]
  simp [liveTails]

/-- One tail less. -/
theorem liveTails_eraseIdx {i : ℕ} {tail : Tail} (htail : s.tails[i]? = some tail)
    (htails : s'.tails = s.tails.eraseIdx i) (r : PaymentHash) :
    s.liveTails r = s'.liveTails r + if tail.target.rhash = r then 1 else 0 := by
  obtain ⟨hi, rfl⟩ := List.getElem?_eq_some_iff.1 htail
  have hperm := (List.getElem_cons_eraseIdx_perm hi).countP_eq
    fun tail : Tail => decide (tail.target.rhash = r)
  rw [List.countP_cons] at hperm
  rw [liveTails, ← hperm, liveTails, htails]
  simp

/-- A tail that begins to sleep is still the tail of its receipt. -/
theorem liveTails_set {i : ℕ} {old : Tail} (new : Tail) (hold : s.tails[i]? = some old)
    (htails : s'.tails = s.tails.set i new) (hsame : new.target.rhash = old.target.rhash)
    (r : PaymentHash) : s'.liveTails r = s.liveTails r := by
  have hcount : ∀ tails : List Tail, (tails.countP fun tail => tail.target.rhash = r) =
      (tails.map fun tail => tail.target.rhash).count r := by
    intro tails
    rw [List.count, List.countP_map]
    rfl
  have hhashes : (s.tails.set i new).map (fun tail => tail.target.rhash) =
      s.tails.map fun tail => tail.target.rhash := map_rhash_set hold hsame
  rw [liveTails, htails, hcount, hhashes, ← hcount, liveTails]

/-! ## Scheduling -/

/-- What scheduling a tail for an unguarded receipt does. -/
inductive ScheduleOutcome (s : Courier) (r : PaymentHash) (orphan : Bool) : Courier → Prop
  /-- There is no taskgroup, or a tail is scheduled already. -/
  | idle (h : s.taskgroup = .none ∨ r ∈ s.receiptTails) : ScheduleOutcome s r orphan s
  /-- The tail is spawned: into the taskgroup, or beside a closed one. -/
  | spawned (tail : Tail) (hr : tail.target.rhash = r) (hfresh : r ∉ s.receiptTails)
      (htaken : s.taskgroup = .running ∨ orphan = true) :
      ScheduleOutcome s r orphan
        { s with receiptTails := s.receiptTails ++ [r], tails := s.tails ++ [tail] }
  /-- A closed taskgroup refuses the tail. -/
  | refused (hfresh : r ∉ s.receiptTails) (hgroup : s.taskgroup = .joined)
      (horphan : orphan = false) :
      ScheduleOutcome s r orphan { s with receiptTails := s.receiptTails ++ [r] }

theorem schedule_outcome (s : Courier) (target : ReceiptTarget) (delay : Time) (failStreak : ℕ)
    (orphan : Bool) :
    ScheduleOutcome s target.rhash orphan
      (s.scheduleReceiptRebroadcast target delay failStreak orphan) := by
  -- the guard is set before `spawn` is tried, and stays when `spawn` raises
  unfold scheduleReceiptRebroadcast
  split
  next hidle => exact .idle hidle
  next hbusy =>
    obtain ⟨hgroup, hfresh⟩ := not_or.1 hbusy
    have hopen : s.taskgroup = .running ∨ s.taskgroup = .joined := by
      cases hcase : s.taskgroup with
      | none => exact absurd hcase hgroup
      | running => exact .inl rfl
      | joined => exact .inr rfl
    rcases hopen with hcase | hcase
    · have htaken : { s with receiptTails := s.receiptTails ++ [target.rhash] }.spawnTail target
          delay failStreak orphan = { s with
            receiptTails := s.receiptTails ++ [target.rhash]
            tails := s.tails ++ [⟨target, failStreak, .created delay, true⟩] } := by
        simp only [spawnTail, hcase]
      rw [htaken]
      exact .spawned ⟨target, failStreak, .created delay, true⟩ rfl hfresh (.inl hcase)
    · rcases orphan with _ | _
      · have hlost : { s with receiptTails := s.receiptTails ++ [target.rhash] }.spawnTail target
            delay failStreak false = { s with
              receiptTails := s.receiptTails ++ [target.rhash] } := by
          simp only [spawnTail, hcase, Bool.false_eq_true, if_false]
        rw [hlost]
        exact .refused hfresh hcase rfl
      · have hbeside : { s with receiptTails := s.receiptTails ++ [target.rhash] }.spawnTail target
            delay failStreak true = { s with
              receiptTails := s.receiptTails ++ [target.rhash]
              tails := s.tails ++ [⟨target, failStreak, .created delay, false⟩] } := by
          simp only [spawnTail, hcase, if_true]
        rw [hbeside]
        exact .spawned ⟨target, failStreak, .created delay, false⟩ rfl hfresh (.inr rfl)

/-- A spawned tail comes with its guard. -/
theorem GuardLaw.spawned (h : GuardLaw s) {tail : Tail}
    (hfresh : tail.target.rhash ∉ s.receiptTails)
    (htails : s'.tails = s.tails ++ [tail])
    (hguards : s'.receiptTails = s.receiptTails ++ [tail.target.rhash]) : GuardLaw s' := by
  rw [guardLaw_iff] at h ⊢
  intro r
  rw [liveTails_append htails, h r, hguards]
  by_cases hr : tail.target.rhash = r
  · subst hr
    simp [hfresh]
  · have hne : r ≠ tail.target.rhash := Ne.symm hr
    simp [hr, hne]

/-- A tail that wakes up takes its guard with it. -/
theorem GuardLaw.woken (h : GuardLaw s) {i : ℕ} {tail : Tail} (htail : s.tails[i]? = some tail)
    (htails : s'.tails = s.tails.eraseIdx i)
    (hguards : s'.receiptTails = s.receiptTails.filter fun r => r ≠ tail.target.rhash) :
    GuardLaw s' := by
  rw [guardLaw_iff] at h ⊢
  intro r
  have hcount := liveTails_eraseIdx htail htails r
  rw [h r] at hcount
  rw [hguards]
  by_cases hr : tail.target.rhash = r
  · subst hr
    have hzero : s'.liveTails tail.target.rhash = 0 := by
      rw [if_pos rfl] at hcount
      split at hcount <;> omega
    simp [hzero]
  · have hne : r ≠ tail.target.rhash := Ne.symm hr
    rw [if_neg hr, Nat.add_zero] at hcount
    rw [← hcount]
    simp [hne]

/-- A tail is scheduled with the law, unless a closed taskgroup loses it. -/
theorem guardLaw_schedule_iff (h : GuardLaw s) {orphan : Bool}
    (houtcome : ScheduleOutcome s r orphan s') :
    GuardLaw s' ↔ (s.taskgroup = .joined → r ∈ s.receiptTails ∨ orphan = true) := by
  cases houtcome with
  | idle hidle =>
    refine iff_of_true h fun hjoined => ?_
    rcases hidle with hnone | hr
    · cases hnone.symm.trans hjoined
    · exact .inl hr
  | spawned tail hr hfresh htaken =>
    subst hr
    refine iff_of_true (h.spawned hfresh rfl rfl) fun hjoined => ?_
    rcases htaken with hrunning | horphan
    · cases hrunning.symm.trans hjoined
    · exact .inr horphan
  | refused hfresh hjoined horphan =>
    refine iff_of_false (fun hlaw => ?_) fun htaken => ?_
    · -- the guard is set, and there is no tail behind it
      have hguarded := (guardLaw_iff.1 hlaw) r
      rw [if_pos (List.mem_append_right _ (List.mem_singleton_self r))] at hguarded
      have hnone := (guardLaw_iff.1 h) r
      rw [if_neg hfresh] at hnone
      have hsame : s.liveTails r = 1 := hguarded
      omega
    · rcases htaken hjoined with hr | htrue
      · exact hfresh hr
      · cases horphan.symm.trans htrue

theorem guardLaw_publishSucceeded_iff (h : GuardLaw s) (target : ReceiptTarget) (orphan : Bool) :
    GuardLaw (s.publishSucceeded target orphan) ↔
      ((s.receipts.recordSend s.now target.rhash).1.isSome = true → s.taskgroup = .joined →
        target.rhash ∈ s.receiptTails ∨ orphan = true) := by
  unfold publishSucceeded
  dsimp only
  split
  next hnone =>
    rw [hnone]
    exact iff_of_true (h.of_eq rfl rfl) (by rintro ⟨⟩)
  next delay hdelay =>
    rw [hdelay]
    -- the send is counted and logged before the tail is scheduled
    have hlaw : GuardLaw { s with
        receipts := (s.receipts.recordSend s.now target.rhash).2
        log := { s.log with
          sent := s.log.sent ++ [target.rhash]
          sentInTick := s.log.sentInTick ++ [target.rhash] } } := h.of_eq rfl rfl
    have hschedule := guardLaw_schedule_iff hlaw
      (schedule_outcome _ { target with sends := target.sends + 1 } delay 0 orphan)
    exact hschedule.trans ⟨fun htaken _ => htaken, fun htaken => htaken rfl⟩

theorem guardLaw_publishFailed_iff (h : GuardLaw s) (target : ReceiptTarget) (failStreak : ℕ)
    (orphan : Bool) :
    GuardLaw (s.publishFailed target failStreak orphan) ↔
      ((s.receipts.failRetryDelay s.now target.rhash (failStreak + 1)).isSome = true →
        s.taskgroup = .joined → target.rhash ∈ s.receiptTails ∨ orphan = true) := by
  unfold publishFailed
  split
  next hnone =>
    rw [hnone]
    exact iff_of_true h (by rintro ⟨⟩)
  next delay hdelay =>
    rw [hdelay]
    have hschedule := guardLaw_schedule_iff h
      (schedule_outcome s target delay (failStreak + 1) orphan)
    exact hschedule.trans ⟨fun htaken _ => htaken, fun htaken => htaken rfl⟩

/-! ## Cancelling -/

/-- Under the law a receipt has one tail at most. -/
theorem GuardLaw.eq_of_rhash_eq (h : GuardLaw s) {tail tail' : Tail} (htail : tail ∈ s.tails)
    (htail' : tail' ∈ s.tails) (hr : tail.target.rhash = tail'.target.rhash) : tail = tail' := by
  have hle := h.atMostOne tail'.target.rhash
  rw [liveTails, List.countP_eq_length_filter] at hle
  have hmem : ∀ t ∈ s.tails, t.target.rhash = tail'.target.rhash →
      t ∈ s.tails.filter fun t => t.target.rhash = tail'.target.rhash :=
    fun t ht heq => List.mem_filter.2 ⟨ht, decide_eq_true heq⟩
  have h₁ := hmem tail htail hr
  have h₂ := hmem tail' htail' rfl
  rcases hfilter : s.tails.filter fun t => t.target.rhash = tail'.target.rhash with
    _ | ⟨x, _ | ⟨y, rest⟩⟩
  · rw [hfilter] at h₁
    cases h₁
  · rw [hfilter] at h₁ h₂
    exact (List.mem_singleton.1 h₁).trans (List.mem_singleton.1 h₂).symm
  · rw [hfilter] at hle
    simp at hle

/-- A guard is cleared when a tail of its receipt is cancelled in its sleep. -/
theorem mem_receiptTails_cancelTasks :
    r ∈ s.cancelTasks.receiptTails ↔ r ∈ s.receiptTails ∧
      ∀ tail ∈ s.tails, tail.grouped = true → tail.phase.begun = true →
        tail.target.rhash ≠ r := by
  simp [cancelTasks, List.mem_filter]

/-- No tail of the receipt is cancelled, or no tail of it is left. -/
theorem GuardLaw.liveTails_cancelTasks (h : GuardLaw s) (r : PaymentHash) :
    (∀ tail ∈ s.tails, tail.target.rhash = r → tail.grouped = false) ∧
        s.cancelTasks.liveTails r = s.liveTails r ∨
      (∃ tail ∈ s.tails, tail.target.rhash = r ∧ tail.grouped = true) ∧
        s.cancelTasks.liveTails r = 0 := by
  by_cases hgrouped : ∃ tail ∈ s.tails, tail.target.rhash = r ∧ tail.grouped = true
  · refine .inr ⟨hgrouped, ?_⟩
    obtain ⟨tail, htail, hr, hgroup⟩ := hgrouped
    refine List.countP_eq_zero.2 fun tail' htail' hr' => ?_
    -- the only tail of the receipt belonged to the group
    obtain ⟨hmem, hkept⟩ := List.mem_filter.1 htail'
    obtain rfl := h.eq_of_rhash_eq htail hmem (hr.trans (of_decide_eq_true hr').symm)
    rw [hgroup] at hkept
    cases hkept
  · have hfree : ∀ tail ∈ s.tails, tail.target.rhash = r → tail.grouped = false := by
      intro tail htail hr
      by_contra hgroup
      exact hgrouped ⟨tail, htail, hr, Bool.eq_true_of_not_eq_false hgroup⟩
    refine .inl ⟨hfree, ?_⟩
    show (s.tails.filter fun tail => !tail.grouped).countP _ = _
    rw [List.countP_filter]
    refine List.countP_congr fun tail htail => ?_
    by_cases hr : tail.target.rhash = r
    · simp [hr, hfree tail htail hr]
    · simp [hr]

/-- A cancellation keeps the law when every tail of the group sleeps. -/
theorem guardLaw_cancelTasks_iff (h : GuardLaw s) :
    GuardLaw s.cancelTasks ↔
      ∀ tail ∈ s.tails, tail.grouped = true → tail.phase.begun = true := by
  have hcount := guardLaw_iff.1 h
  constructor
  · intro hlaw tail htail hgroup
    by_contra hbegun
    -- the guard of a tail that has not begun stays, and the tail is gone
    have hguarded : tail.target.rhash ∈ s.receiptTails := by
      by_contra hfree
      have hzero := hcount tail.target.rhash
      rw [if_neg hfree] at hzero
      exact (liveTails_pos htail).ne' hzero
    have hstays : tail.target.rhash ∈ s.cancelTasks.receiptTails := by
      refine mem_receiptTails_cancelTasks.2 ⟨hguarded, fun tail' htail' _ hbegun' hr => ?_⟩
      obtain rfl := h.eq_of_rhash_eq htail' htail hr
      exact hbegun hbegun'
    rcases h.liveTails_cancelTasks tail.target.rhash with ⟨hfree, -⟩ | ⟨-, hgone⟩
    · cases (hfree tail htail rfl).symm.trans hgroup
    · have hone := (guardLaw_iff.1 hlaw) tail.target.rhash
      rw [if_pos hstays, hgone] at hone
      cases hone
  · intro hbegun
    rw [guardLaw_iff]
    intro r
    rcases h.liveTails_cancelTasks r with ⟨hfree, hsame⟩ | ⟨⟨tail, htail, hr, hgroup⟩, hgone⟩
    · have hstays : r ∈ s.cancelTasks.receiptTails ↔ r ∈ s.receiptTails := by
        rw [mem_receiptTails_cancelTasks]
        refine and_iff_left fun tail htail hgroup _ hr => ?_
        cases (hfree tail htail hr).symm.trans hgroup
      rw [hsame, hcount r]
      simp only [hstays]
    · have hcleared : r ∉ s.cancelTasks.receiptTails := fun hstays =>
        (mem_receiptTails_cancelTasks.1 hstays).2 tail htail hgroup (hbegun tail htail hgroup) hr
      rw [hgone, if_neg hcleared]

/-! ## Runs -/

/-- An action that neither cancels nor schedules is safe. -/
theorem guardSafe_of_quiet (hcancel : a ≠ .cancel) (hquiet : s.schedules a = none) :
    GuardSafe s a := by
  refine ⟨fun h => absurd h hcancel, fun r hr => ?_⟩
  rw [hquiet] at hr
  cases hr

/-- An action that schedules a tail when a delay comes out is safe when no closed taskgroup can lose
that tail. -/
theorem guardSafe_iff_of_schedules {delay : Option Time} (hcancel : a ≠ .cancel)
    (hschedules : s.schedules a = delay.map fun _ => r) :
    GuardSafe s a ↔ (delay.isSome = true → s.taskgroup = .joined →
      r ∈ s.receiptTails ∨ a.orphans = true) := by
  constructor
  · intro hsafe hsome
    obtain ⟨d, rfl⟩ := Option.isSome_iff_exists.1 hsome
    exact hsafe.taken r hschedules
  · intro htaken
    refine ⟨fun h => absurd h hcancel, fun r' hr' => ?_⟩
    rw [hschedules] at hr'
    obtain ⟨d, rfl, rfl⟩ := Option.map_eq_some_iff.1 hr'
    exact htaken rfl

/-- A step keeps the law when it is safe, and only then. -/
theorem guardLaw_step_iff (h : GuardLaw s) (hstep : s.step a = some s') :
    GuardLaw s' ↔ GuardSafe s a := by
  cases step_outcome hstep with
  | @publishOk i orphan origin target failStreak hd =>
    have hlaw : GuardLaw { s with deliveries := s.deliveries.eraseIdx i } := h.of_eq rfl rfl
    have hschedules : s.schedules (.publishOk i orphan) =
        (s.receipts.recordSend s.now target.rhash).1.map fun _ => target.rhash := by
      simp only [schedules, hd]
    rw [guardSafe_iff_of_schedules (by rintro ⟨⟩) hschedules]
    exact guardLaw_publishSucceeded_iff hlaw target orphan
  | @publishFail i orphan origin target failStreak hd =>
    have hlaw : GuardLaw { s with deliveries := s.deliveries.eraseIdx i } := h.of_eq rfl rfl
    have hschedules : s.schedules (.publishFail i orphan) =
        (s.receipts.failRetryDelay s.now target.rhash (failStreak + 1)).map
          fun _ => target.rhash := by
      simp only [schedules, hd]
    rw [guardSafe_iff_of_schedules (by rintro ⟨⟩) hschedules]
    exact guardLaw_publishFailed_iff hlaw target failStreak orphan
  | cancel =>
    rw [guardLaw_cancelTasks_iff h]
    refine ⟨fun hbegun => ⟨fun _ => hbegun, ?_⟩, fun hsafe => hsafe.started rfl⟩
    rintro r ⟨⟩
  | @tailStart i target failStreak delay grouped htail =>
    refine iff_of_true ?_ (guardSafe_of_quiet (by rintro ⟨⟩) rfl)
    rw [guardLaw_iff] at h ⊢
    have hsame : ∀ r, liveTails { s with
        tails := s.tails.set i ⟨target, failStreak, .sleeping (s.now + delay), grouped⟩ } r =
          s.liveTails r := liveTails_set _ htail rfl rfl
    exact fun r => (hsame r).trans (h r)
  | @tailWake i tail htail hbegun =>
    refine iff_of_true ?_ (guardSafe_of_quiet (by rintro ⟨⟩) rfl)
    -- the guard is gone before the tail looks at its receipt
    have hwoken : GuardLaw (clearGuard { s with tails := s.tails.eraseIdx i }
        tail.target.rhash) := h.woken htail rfl rfl
    rw [rebroadcastReceipt_eq]
    split
    next =>
      obtain ⟨receipts, deliveries, log, heq, -⟩ := deliverReceipt_eq
        (clearGuard { s with tails := s.tails.eraseIdx i } tail.target.rhash)
        (.tail tail.grouped) tail.target tail.failStreak
      rw [heq]
      exact hwoken.of_eq rfl rfl
    next => exact hwoken
  | paid =>
    obtain ⟨queued, heq, -⟩ := s.notifyPaid_eq _
    rw [heq]
    exact iff_of_true (h.of_eq rfl rfl) (guardSafe_of_quiet (by rintro ⟨⟩) rfl)
  | @deliver i origin target failStreak hd =>
    obtain ⟨receipts, deliveries, log, heq, -⟩ := deliverReceipt_eq
      { s with deliveries := s.deliveries.eraseIdx i } origin target failStreak
    rw [heq]
    exact iff_of_true (h.of_eq rfl rfl) (guardSafe_of_quiet (by rintro ⟨⟩) rfl)
  | @tickNext first target targets hloop hwaits =>
    obtain ⟨receipts, deliveries, log, heq, -⟩ := deliverReceipt_eq
      { s with redelivery := .iterating first targets } .tick target 0
    rw [heq]
    exact iff_of_true (h.of_eq rfl rfl) (guardSafe_of_quiet (by rintro ⟨⟩) rfl)
  | _ => exact iff_of_true (h.of_eq rfl rfl) (guardSafe_of_quiet (by rintro ⟨⟩) rfl)

/-- As long as no tail is cancelled before its first step and none is lost to a closed taskgroup, a
receipt is guarded when it has exactly one live tail, and none has two. A step of another kind
breaks this. -/
theorem one_live_tail_per_receipt (now : Time) :
    (∀ s, Reachable GuardSafe (start now) s → GuardLaw s) ∧
    ∀ s a s', Reachable GuardSafe (start now) s → s.step a = some s' → ¬ GuardSafe s a →
      ¬ GuardLaw s' := by
  have hrun : ∀ s, Reachable GuardSafe (start now) s → GuardLaw s := by
    intro s hs
    refine hs.invariant ⟨fun r => ?_, fun r => ?_⟩ fun s a t hlaw hsafe hstep =>
      (guardLaw_step_iff hlaw hstep).2 hsafe
    · exact iff_of_false List.not_mem_nil (by rintro ⟨⟩)
    · exact Nat.zero_le 1
  exact ⟨hrun, fun s a s' hs hstep hunsafe hlaw =>
    hunsafe ((guardLaw_step_iff (hrun s hs) hstep).1 hlaw)⟩

/-- The taskgroup is cancelled right after the first tail was spawned into it: the receipt stays
guarded, and no tail is left. -/
theorem unstarted_tail_keeps_guard :
    ∃ s, Transition.exec step (start 0) [.remember "r" "p" "q" 100, .connect, .openGroup,
        .tickStart, .tickDone, .paid "r", .deliver 0, .publishOk 0 false, .cancel] = some s ∧
      "r" ∈ s.receiptTails ∧ s.tails = [] ∧ ¬ GuardLaw s := by
  have hexec : (Transition.exec step (start 0) [.remember "r" "p" "q" 100, .connect, .openGroup,
      .tickStart, .tickDone, .paid "r", .deliver 0, .publishOk 0 false, .cancel]).any (fun s =>
        decide ("r" ∈ s.receiptTails) && s.tails == []) = true := by decide +kernel
  obtain ⟨s, hs, hat⟩ := (Option.any_eq_true _ _).1 hexec
  simp only [Bool.and_eq_true, decide_eq_true_eq, beq_iff_eq] at hat
  obtain ⟨hguarded, htails⟩ := hat
  refine ⟨s, hs, hguarded, htails, fun hlaw => ?_⟩
  have hone := (hlaw.guarded_iff "r").1 hguarded
  rw [liveTails, htails] at hone
  cases hone

end Courier

end ElectrumClink
