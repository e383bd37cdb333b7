import ElectrumClink.Basic
import ElectrumClink.Data.Dict
import ElectrumClink.Data.StableSort

/-!
# The registry of payment receipts

For every invoice issued for an offer the registry remembers who to send the payment receipt to
and which request it answers. One entry lives under the invoice's payment hash:

* `remember` records an invoice awaiting payment;
* `markDue` turns the entry into an owed receipt once the invoice is paid;
* `recordSend` counts the broadcasts a relay accepted, the last one removing the entry;
* `sweep` and the cap drop entries.

The registry object holds nothing but a reference to the wallet's storage, so it is modelled by
the stored map itself; a missing map and an empty one load alike. Optional fields of an entry are
those that `remember` does not write.

## Main results

* `lookup_remember`, `lookup_sweep`, `lookup_recordSend_self` and their siblings give, for
  every operation, the entry found afterwards under any payment hash.
* `mem_evicted_self_iff` says when the cap evicts the very entry that was just remembered.
-/

namespace ElectrumClink

/-- Retry an owed-but-undelivered receipt at most this often. -/
def retryIntervalSec : Time := 60 * 60

/-- Give up on an owed receipt this long after the invoice was paid. -/
def retryMaxSec : Time := 10 * 24 * 60 * 60

/-- Seconds after the first accepted broadcast at which the receipt is broadcast again. -/
def resendOffsetsSec : List Time := [10, 15, 30, 60, 120, 300]

/-- Backoff after consecutive failed publishes; the last entry repeats. -/
def failRetryBackoffSec : List Time := [5, 10, 20, 40, 80]

/-- Failed publishes are fast-retried only this long after the entry's schedule anchor. -/
def fastRetryWindowSec : Time := resendOffsetsSec.getLastD 0 + 300

/-- Hard cap on remembered entries. -/
def maxPending : ℕ := 1000

/-- One stored entry. -/
structure ReceiptEntry where
  payer : Pubkey
  req : EventId
  /-- The invoice's own expiry. -/
  expiresAt : Time
  /-- Whether the invoice was paid, so that a receipt is owed. -/
  due : Bool
  dueSince : Time
  attempts : ℕ
  lastAttempt : Time
  sends : Option ℕ := none
  lastSend : Option Time := none
  firstSend : Option Time := none
deriving DecidableEq, Inhabited

/-- Everything needed to address a receipt back to the original payer. -/
structure ReceiptTarget where
  rhash : PaymentHash
  payerPubkey : Pubkey
  requestEventId : EventId
  attempts : ℕ := 0
  dueSince : Time := 0
  /-- Successful broadcasts so far. -/
  sends : ℕ := 0
deriving DecidableEq, Inhabited

namespace ReceiptEntry

/-- `int(entry.get("sends", 0))`. -/
def sendCount (e : ReceiptEntry) : ℕ := e.sends.getD 0

/-- An owed entry is kept until `RETRY_MAX_SEC` after payment, an awaiting one until its invoice
expires. -/
def keep (e : ReceiptEntry) (now : Time) : Bool :=
  if e.due then !decide (now - e.dueSince ≥ retryMaxSec) else !decide (now ≥ e.expiresAt)

/-- The branches of the loop in `due_targets`: whether the entry's interval has elapsed. -/
def isDueNow (e : ReceiptEntry) (now : Time) : Bool :=
  if !e.due then false
  else if e.sendCount > 0 then
    -- an entry without `first_send` is measured from its last send
    let first := e.firstSend.getD (e.lastSend.getD 0)
    -- the offset of the last re-broadcast stands for every later one
    let offset := resendOffsetsSec.getD (min e.sendCount resendOffsetsSec.length - 1) 0
    !decide (now - first < offset)
  -- a stamp of 0 counts as no attempt
  else !(decide (e.lastAttempt ≠ 0) && decide (now - e.lastAttempt < retryIntervalSec))

/-- The entry a counted broadcast leaves behind. -/
def sent (e : ReceiptEntry) (now : Time) : ReceiptEntry :=
  let entry := { e with sends := some (e.sendCount + 1), lastSend := some now }
  if e.sendCount + 1 = 1 then { entry with firstSend := some now } else entry

/-- An entry that counts against its payer's cap: unpaid and unexpired. -/
def pendingFor (e : ReceiptEntry) (payerPubkey : Pubkey) (now : Time) : Bool :=
  !e.due && decide (e.payer = payerPubkey) && decide (now < e.expiresAt)

@[simp]
theorem sendCount_sent (e : ReceiptEntry) (now : Time) :
    (e.sent now).sendCount = e.sendCount + 1 := by
  unfold sent
  split <;> rfl

/-- A counted broadcast leaves the addressing and the payment stamp of the entry alone. -/
theorem sent_fields (e : ReceiptEntry) (now : Time) :
    (e.sent now).payer = e.payer ∧ (e.sent now).req = e.req ∧
      (e.sent now).expiresAt = e.expiresAt ∧ (e.sent now).due = e.due ∧
      (e.sent now).dueSince = e.dueSince ∧ (e.sent now).lastAttempt = e.lastAttempt := by
  unfold sent
  split <;> exact ⟨rfl, rfl, rfl, rfl, rfl, rfl⟩

/-- An entry that counts against its payer counted at every earlier moment. -/
theorem pendingFor_of_le {e : ReceiptEntry} {payerPubkey : Pubkey} {now now' : Time}
    (hle : now ≤ now') (h : e.pendingFor payerPubkey now' = true) :
    e.pendingFor payerPubkey now = true := by
  simp only [pendingFor, Bool.and_eq_true, decide_eq_true_eq] at h ⊢
  exact ⟨h.1, hle.trans_lt h.2⟩

end ReceiptEntry

/-- The persisted map `rhash -> pending receipt`. -/
structure ReceiptRegistry where
  pending : Dict PaymentHash ReceiptEntry

namespace ReceiptRegistry

/-- The registry over an empty storage. -/
def empty : ReceiptRegistry := ⟨∅⟩

/-- The stored entry of a payment hash. -/
def lookup (reg : ReceiptRegistry) (rhash : PaymentHash) : Option ReceiptEntry :=
  reg.pending.get? rhash

/-- `_target`. -/
def target (rhash : PaymentHash) (entry : ReceiptEntry) : ReceiptTarget where
  rhash := rhash
  payerPubkey := entry.payer
  requestEventId := entry.req
  attempts := entry.attempts
  dueSince := entry.dueSince
  sends := entry.sendCount

/-- The awaiting-payment entries, which are the only ones the cap may evict. -/
def prunable (entries : Dict PaymentHash ReceiptEntry) : List (PaymentHash × ReceiptEntry) :=
  entries.entries.filter fun e => !e.2.due

/-- `_enforce_cap`: the payment hashes to evict, soonest to expire first. -/
def enforceCap (entries : Dict PaymentHash ReceiptEntry) : List PaymentHash :=
  if entries.size ≤ maxPending then []
  else ((prunable entries).oldest (fun e => e.2.expiresAt) (entries.size - maxPending)).map
    Prod.fst

/-- The entry `remember` writes. -/
def awaiting (payerPubkey : Pubkey) (requestEventId : EventId) (expiresAt : Time) :
    ReceiptEntry where
  payer := payerPubkey
  req := requestEventId
  expiresAt := expiresAt
  due := false
  dueSince := 0
  attempts := 0
  lastAttempt := 0

/-- Record that an invoice was issued. Returns the payment hashes evicted to stay under the
cap. -/
def remember (reg : ReceiptRegistry) (rhash : PaymentHash) (payerPubkey : Pubkey)
    (requestEventId : EventId) (expiresAt : Time) : List PaymentHash × ReceiptRegistry :=
  let entries := reg.pending.set rhash (awaiting payerPubkey requestEventId expiresAt)
  let evicted := enforceCap entries
  (evicted, ⟨entries.eraseAll evicted⟩)

/-- Drop a remembered invoice. -/
def forget (reg : ReceiptRegistry) (rhash : PaymentHash) : ReceiptRegistry :=
  ⟨reg.pending.erase rhash⟩

/-- The invoice was paid: a receipt is now owed. `none` for a hash that is not ours. -/
def markDue (reg : ReceiptRegistry) (now : Time) (rhash : PaymentHash) :
    Option ReceiptTarget × ReceiptRegistry :=
  match reg.lookup rhash with
  | none => (none, reg)
  | some entry =>
    -- a repeated notification keeps the first stamp
    let entry := if !entry.due then { entry with due := true, dueSince := now } else entry
    (some (target rhash entry), ⟨reg.pending.set rhash entry⟩)

/-- A broadcast of this receipt reached the relay. Returns the delay until the next scheduled
re-broadcast, or `none` when the schedule is complete and the entry is gone. -/
def recordSend (reg : ReceiptRegistry) (now : Time) (rhash : PaymentHash) :
    Option Time × ReceiptRegistry :=
  match reg.lookup rhash with
  | none => (none, reg)
  | some entry =>
    let sends := entry.sendCount + 1
    -- the last send of the schedule completes it
    if sends > resendOffsetsSec.length then (none, ⟨reg.pending.erase rhash⟩)
    else
      let entry := entry.sent now
      let first := entry.firstSend.getD now
      (some (max 0 (first + resendOffsetsSec.getD (sends - 1) 0 - now)),
        ⟨reg.pending.set rhash entry⟩)

/-- Whether a receipt is still owed. -/
def isOwed (reg : ReceiptRegistry) (rhash : PaymentHash) : Bool :=
  match reg.lookup rhash with
  | none => false
  | some entry => entry.due

/-- Backoff before the next in-session retry of a failed publish, while the fast-retry window of
an owed entry is open. -/
def failRetryDelay (reg : ReceiptRegistry) (now : Time) (rhash : PaymentHash)
    (failStreak : ℕ) : Option Time :=
  match reg.lookup rhash with
  | none => none
  | some entry =>
    if !entry.due then none
    else
      -- the window opens with the payment, and again with the first send
      let anchor := if entry.sendCount > 0 then entry.firstSend.getD 0 else entry.dueSince
      if now - anchor ≥ fastRetryWindowSec then none
      else
        let idx := min (max failStreak 1) failRetryBackoffSec.length - 1
        some (failRetryBackoffSec.getD idx 0)

/-- Stamp a delivery attempt. -/
def recordAttempt (reg : ReceiptRegistry) (now : Time) (rhash : PaymentHash) :
    ReceiptRegistry :=
  match reg.lookup rhash with
  | none => reg
  | some entry =>
    ⟨reg.pending.set rhash { entry with attempts := entry.attempts + 1, lastAttempt := now }⟩

/-- `_sweep`: the entries kept, and the payment hashes of the expired-unpaid entries dropped. -/
def sweepEntries (entries : Dict PaymentHash ReceiptEntry) (now : Time) :
    Dict PaymentHash ReceiptEntry × List PaymentHash :=
  (entries.filter fun _ e => e.keep now,
    (entries.entries.filter fun e => !e.2.due && decide (now ≥ e.2.expiresAt)).map Prod.fst)

/-- Drop expired-unpaid and abandoned entries; returns the expired-unpaid hashes. -/
def sweep (reg : ReceiptRegistry) (now : Time) : List PaymentHash × ReceiptRegistry :=
  let (after, expiredUnpaid) := sweepEntries reg.pending now
  (expiredUnpaid, ⟨after⟩)

/-- Owed receipts whose retry or re-broadcast interval has elapsed. The sweep it starts with is
not saved. -/
def dueTargets (reg : ReceiptRegistry) (now : Time) : List ReceiptTarget :=
  let (entries, _expired) := sweepEntries reg.pending now
  (entries.entries.filter fun e => e.2.isDueNow now).map fun e => target e.1 e.2

/-- `pending_count()`. -/
def pendingCount (reg : ReceiptRegistry) : ℕ := reg.pending.size

/-- Awaiting-payment, unexpired entries of one payer. -/
def pendingCountFor (reg : ReceiptRegistry) (now : Time) (payerPubkey : Pubkey) : ℕ :=
  reg.pending.entries.countP fun e => e.2.pendingFor payerPubkey now

/-! ## Lookups after each operation -/

section Remember

variable (reg : ReceiptRegistry) (rhash : PaymentHash) (payerPubkey : Pubkey)
  (requestEventId : EventId) (expiresAt : Time)

/-- Remembering rewrites one entry and then drops the evicted ones. -/
theorem lookup_remember (k : PaymentHash) :
    (reg.remember rhash payerPubkey requestEventId expiresAt).2.lookup k =
      if k ∈ (reg.remember rhash payerPubkey requestEventId expiresAt).1 then none
      else if k = rhash then some (awaiting payerPubkey requestEventId expiresAt)
      else reg.lookup k := by
  simp only [remember, lookup, Dict.get?_eraseAll, Dict.get?_set]
  congr

/-- Whatever is stored after remembering an invoice is its new entry, or was stored before. -/
theorem lookup_of_remember {reg : ReceiptRegistry} {rhash : PaymentHash} {payerPubkey : Pubkey}
    {requestEventId : EventId} {expiresAt : Time} {k : PaymentHash} {e : ReceiptEntry}
    (h : (reg.remember rhash payerPubkey requestEventId expiresAt).2.lookup k = some e) :
    (k = rhash ∧ e = awaiting payerPubkey requestEventId expiresAt) ∨
      (k ≠ rhash ∧ reg.lookup k = some e) := by
  rw [lookup_remember] at h
  split at h
  next => cases h
  next =>
    split at h
    next hk => exact .inl ⟨hk, (Option.some.inj h).symm⟩
    next hk => exact .inr ⟨hk, h⟩

theorem mem_of_mem_remember {reg : ReceiptRegistry} {rhash : PaymentHash} {payerPubkey : Pubkey}
    {requestEventId : EventId} {expiresAt : Time} {k : PaymentHash}
    (h : k ∈ (reg.remember rhash payerPubkey requestEventId expiresAt).2.pending) :
    k = rhash ∨ k ∈ reg.pending := by
  obtain ⟨e, he⟩ := Dict.mem_iff_exists_get?.1 h
  rcases lookup_of_remember he with ⟨hk, -⟩ | ⟨-, he⟩
  · exact .inl hk
  · exact .inr (Dict.mem_of_get? he)

/-- Only awaiting-payment entries are ever evicted. -/
theorem exists_entry_of_mem_enforceCap {entries : Dict PaymentHash ReceiptEntry}
    {k : PaymentHash} (h : k ∈ enforceCap entries) :
    ∃ e, entries.get? k = some e ∧ e.due = false := by
  unfold enforceCap at h
  split at h
  next => simp at h
  next =>
    obtain ⟨⟨k', e⟩, hmem, rfl⟩ := List.mem_map.1 h
    have hprunable := List.mem_filter.1 (List.mem_of_mem_oldest hmem)
    exact ⟨e, Dict.get?_eq_some_iff.2 hprunable.1, by simpa using hprunable.2⟩

/-- The cap never evicts an owed receipt of another invoice. -/
theorem notMem_evicted_of_due {k : PaymentHash} {e : ReceiptEntry} (hk : k ≠ rhash)
    (he : reg.lookup k = some e) (hdue : e.due = true) :
    k ∉ (reg.remember rhash payerPubkey requestEventId expiresAt).1 := by
  intro hmem
  obtain ⟨e', he', hdue'⟩ := exists_entry_of_mem_enforceCap hmem
  rw [Dict.get?_set_of_ne _ hk] at he'
  rw [lookup, he', Option.some.injEq] at he
  rw [← he, hdue'] at hdue
  exact Bool.noConfusion hdue

/-- Remembering an invoice leaves the owed receipts of the others alone. -/
theorem lookup_remember_of_due {k : PaymentHash} {e : ReceiptEntry} (hk : k ≠ rhash)
    (he : reg.lookup k = some e) (hdue : e.due = true) :
    (reg.remember rhash payerPubkey requestEventId expiresAt).2.lookup k = some e := by
  rw [lookup_remember, if_neg (notMem_evicted_of_due reg _ _ _ _ hk he hdue), if_neg hk, he]

/-- The awaiting-payment entries of `reg` that would be evicted before a new one expiring at
`expiresAt`: those expiring no later. -/
def evictedFirst (reg : ReceiptRegistry) (expiresAt : Time) : ℕ :=
  (prunable reg.pending).countP fun e => e.2.expiresAt ≤ expiresAt

/-- The cap evicts the very entry that was just remembered exactly when the overflow reaches past
every awaiting-payment entry that expires no later. -/
theorem mem_evicted_self_iff {rhash : PaymentHash} (hfresh : rhash ∉ reg.pending) :
    rhash ∈ (reg.remember rhash payerPubkey requestEventId expiresAt).1 ↔
      reg.evictedFirst expiresAt + maxPending < reg.pendingCount + 1 := by
  set new := awaiting payerPubkey requestEventId expiresAt with hnew
  have hprunable : prunable (reg.pending.set rhash new) =
      prunable reg.pending ++ [(rhash, new)] := by
    rw [prunable, Dict.entries_set_of_notMem hfresh, List.filter_append]
    rfl
  have hnot : ∀ e, (rhash, e) ∉ prunable reg.pending := fun e h =>
    hfresh (Dict.mem_of_mem_entries (List.mem_of_mem_filter h))
  -- the new entry is the last of the prunable ones, so ties go against the others
  have hevicted : rhash ∈ ((prunable reg.pending ++ [(rhash, new)]).oldest
        (fun e => e.2.expiresAt) (reg.pendingCount + 1 - maxPending)).map Prod.fst ↔
      reg.evictedFirst expiresAt < reg.pendingCount + 1 - maxPending := by
    rw [List.mem_map_fst_oldest_append_singleton hnot]
    rfl
  simp only [remember, ← hnew, enforceCap, Dict.size_set_of_notMem hfresh, hprunable]
  rw [pendingCount] at hevicted ⊢
  split
  next =>
    simp only [List.not_mem_nil, false_iff]
    omega
  next =>
    rw [hevicted]
    omega

end Remember

theorem lookup_markDue_of_ne (reg : ReceiptRegistry) (now : Time) {rhash k : PaymentHash}
    (hk : k ≠ rhash) : (reg.markDue now rhash).2.lookup k = reg.lookup k := by
  unfold markDue
  split
  next => rfl
  next => exact Dict.get?_set_of_ne _ hk _

/-- Marking an entry due keeps it, except for the flag and, the first time, its stamp. -/
theorem lookup_markDue_self (reg : ReceiptRegistry) (now : Time) (rhash : PaymentHash) :
    (reg.markDue now rhash).2.lookup rhash = (reg.lookup rhash).map fun e =>
      if !e.due then { e with due := true, dueSince := now } else e := by
  unfold markDue
  split
  next h => simp [h]
  next e h =>
    rw [h]
    exact Dict.get?_set_self _ _ _

theorem lookup_recordAttempt_of_ne (reg : ReceiptRegistry) (now : Time) {rhash k : PaymentHash}
    (hk : k ≠ rhash) : (reg.recordAttempt now rhash).lookup k = reg.lookup k := by
  unfold recordAttempt
  split
  next => rfl
  next => exact Dict.get?_set_of_ne _ hk _

theorem lookup_recordAttempt_self (reg : ReceiptRegistry) (now : Time) (rhash : PaymentHash) :
    (reg.recordAttempt now rhash).lookup rhash = (reg.lookup rhash).map fun e =>
      { e with attempts := e.attempts + 1, lastAttempt := now } := by
  unfold recordAttempt
  split
  next h => simp [h]
  next e h =>
    rw [h]
    exact Dict.get?_set_self _ _ _

theorem lookup_recordSend_of_ne (reg : ReceiptRegistry) (now : Time) {rhash k : PaymentHash}
    (hk : k ≠ rhash) : (reg.recordSend now rhash).2.lookup k = reg.lookup k := by
  unfold recordSend
  split
  next => rfl
  next =>
    dsimp only
    split
    · exact Dict.get?_erase_of_ne _ hk
    · exact Dict.get?_set_of_ne _ hk _

/-- A counted broadcast leaves the entry with one more send, the last one removes it. -/
theorem lookup_recordSend_self (reg : ReceiptRegistry) (now : Time) (rhash : PaymentHash) :
    (reg.recordSend now rhash).2.lookup rhash = (reg.lookup rhash).bind fun e =>
      if e.sendCount + 1 > resendOffsetsSec.length then none
      else some (e.sent now) := by
  unfold recordSend
  split
  next h => simp [h]
  next e h =>
    rw [h]
    dsimp only [Option.bind_some]
    split
    · exact Dict.get?_erase_self _ _
    · exact Dict.get?_set_self _ _ _

/-- Sweeping keeps exactly the entries that are neither abandoned nor expired unpaid. -/
theorem lookup_sweep (reg : ReceiptRegistry) (now : Time) (k : PaymentHash) :
    (reg.sweep now).2.lookup k = (reg.lookup k).filter fun e => e.keep now :=
  Dict.get?_filter _ _ _

/-- The targets listed as due are those of the kept entries whose interval has elapsed. -/
theorem mem_dueTargets_iff (reg : ReceiptRegistry) (now : Time) (tgt : ReceiptTarget) :
    tgt ∈ reg.dueTargets now ↔
      ∃ k e, reg.lookup k = some e ∧ e.keep now = true ∧ e.isDueNow now = true ∧
        tgt = target k e := by
  simp only [dueTargets, sweepEntries, List.mem_map, List.mem_filter, Dict.entries_filter]
  constructor
  · rintro ⟨⟨k, e⟩, ⟨⟨hmem, hkeep⟩, hdue⟩, rfl⟩
    exact ⟨k, e, Dict.get?_eq_some_iff.2 hmem, hkeep, hdue, rfl⟩
  · rintro ⟨k, e, he, hkeep, hdue, rfl⟩
    exact ⟨(k, e), ⟨⟨Dict.get?_eq_some_iff.1 he, hkeep⟩, hdue⟩, rfl⟩

theorem isOwed_iff (reg : ReceiptRegistry) (k : PaymentHash) :
    reg.isOwed k = true ↔ ∃ e, reg.lookup k = some e ∧ e.due = true := by
  unfold isOwed
  cases reg.lookup k <;> simp

/-! ## The number of entries that count against a payer -/

/-- The count of a payer is a total over the entries. -/
theorem pendingCountFor_eq_sum (reg : ReceiptRegistry) (now : Time) (payerPubkey : Pubkey) :
    reg.pendingCountFor now payerPubkey =
      reg.pending.sum fun _ e => if e.pendingFor payerPubkey now then 1 else 0 := by
  rw [pendingCountFor, Dict.sum]
  induction reg.pending.entries with
  | nil => rfl
  | cons e l ih => rw [List.countP_cons, ih, List.map_cons, List.sum_cons, Nat.add_comm]

/-- A payer that no entry belongs to has none that counts. -/
theorem pendingCountFor_eq_zero {reg : ReceiptRegistry} (now : Time) {payerPubkey : Pubkey}
    (h : ∀ e ∈ reg.pending.entries, e.2.payer ≠ payerPubkey) :
    reg.pendingCountFor now payerPubkey = 0 := by
  rw [pendingCountFor, List.countP_eq_zero]
  intro e he hpending
  simp only [ReceiptEntry.pendingFor, Bool.and_eq_true, decide_eq_true_eq] at hpending
  exact h e he hpending.1.2

/-- If every entry that counts after a change counted before it, the count has not grown. -/
theorem pendingCountFor_le_of_lookup {reg reg' : ReceiptRegistry} {now now' : Time}
    {payerPubkey : Pubkey}
    (h : ∀ k e', reg'.lookup k = some e' → e'.pendingFor payerPubkey now' = true →
      ∃ e, reg.lookup k = some e ∧ e.pendingFor payerPubkey now = true) :
    reg'.pendingCountFor now' payerPubkey ≤ reg.pendingCountFor now payerPubkey := by
  rw [pendingCountFor_eq_sum, pendingCountFor_eq_sum]
  refine Dict.sum_le_sum (fun _ _ _ => Nat.zero_le _) fun k e' hk => ?_
  by_cases hcounts : e'.pendingFor payerPubkey now' = true
  · obtain ⟨e, he, hbefore⟩ := h k e' hk hcounts
    exact .inr ⟨e, he, by simp [hcounts, hbefore]⟩
  · exact .inl (by simp [hcounts])

/-- Remembering an invoice adds at most one to its payer's count and nothing to the others'. -/
theorem pendingCountFor_remember_le (reg : ReceiptRegistry) (now : Time) {rhash : PaymentHash}
    (hfresh : rhash ∉ reg.pending) (payer : Pubkey) (requestEventId : EventId)
    (expiresAt : Time) (payerPubkey : Pubkey) :
    (reg.remember rhash payer requestEventId expiresAt).2.pendingCountFor now payerPubkey ≤
      reg.pendingCountFor now payerPubkey + if payer = payerPubkey then 1 else 0 := by
  set added : ReceiptRegistry :=
    ⟨reg.pending.set rhash (awaiting payer requestEventId expiresAt)⟩ with hadded
  have hevict : (reg.remember rhash payer requestEventId expiresAt).2.pendingCountFor now
      payerPubkey ≤ added.pendingCountFor now payerPubkey := by
    refine pendingCountFor_le_of_lookup fun k e' hk hcounts => ⟨e', ?_, hcounts⟩
    rw [lookup_remember] at hk
    split at hk
    · cases hk
    · rw [lookup, hadded, Dict.get?_set]
      exact hk
  -- evictions aside, exactly the new entry is counted in addition
  have hcount : added.pendingCountFor now payerPubkey = reg.pendingCountFor now payerPubkey +
      if (awaiting payer requestEventId expiresAt).pendingFor payerPubkey now then 1 else 0 := by
    rw [pendingCountFor, hadded, Dict.entries_set_of_notMem hfresh, List.countP_append,
      List.countP_singleton, pendingCountFor]
  have hone : (if (awaiting payer requestEventId expiresAt).pendingFor payerPubkey now then 1
      else 0) ≤ if payer = payerPubkey then 1 else 0 := by
    by_cases hpayer : payer = payerPubkey
    · simp only [hpayer, if_true]
      split <;> omega
    · simp [ReceiptEntry.pendingFor, awaiting, hpayer]
  omega

end ReceiptRegistry

end ElectrumClink
