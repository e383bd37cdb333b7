import ElectrumClink.Receipts.Registry
import Mathlib.Tactic.Linarith

/-!
# The life of one entry over operation sequences

The registry's operations in any order, on any hashes, at any clock readings, with the registry
object rebuilt over its storage at any point. Two facts carry the result: `lookup_apply_of_due`
gives the entry of an owed receipt after any one operation, and `entry_tracks_sends` ties the send
counter of an entry to the `record_send` calls made since it was remembered.

`owed_receipt_kept` follows one receipt from the first time it is marked due to its end.
-/

namespace ElectrumClink.ReceiptRegistry

/-- An operation of the registry. `rebuild` constructs a new registry over the same storage. -/
inductive Op
  | remember (rhash : PaymentHash) (payerPubkey : Pubkey) (requestEventId : EventId)
      (expiresAt : Time)
  | markDue (rhash : PaymentHash)
  | recordAttempt (rhash : PaymentHash)
  | recordSend (rhash : PaymentHash)
  | failRetryDelay (rhash : PaymentHash) (failStreak : ℕ)
  | dueTargets
  | sweep
  | rebuild
deriving DecidableEq

namespace Op

/-- The payment hash an operation is about. -/
def rhash? : Op → Option PaymentHash
  | remember rhash .. => some rhash
  | markDue rhash => some rhash
  | recordAttempt rhash => some rhash
  | recordSend rhash => some rhash
  | failRetryDelay rhash _ => some rhash
  | dueTargets => none
  | sweep => none
  | rebuild => none

/-- The registry after an operation at time `now`. -/
def apply (op : Op) (now : Time) (reg : ReceiptRegistry) : ReceiptRegistry :=
  match op with
  | remember rhash payerPubkey requestEventId expiresAt =>
    (reg.remember rhash payerPubkey requestEventId expiresAt).2
  | markDue rhash => (reg.markDue now rhash).2
  | recordAttempt rhash => reg.recordAttempt now rhash
  | recordSend rhash => (reg.recordSend now rhash).2
  | failRetryDelay _ _ => reg
  | dueTargets => reg
  | sweep => (reg.sweep now).2
  | rebuild => ⟨reg.pending⟩

/-- The hash an operation starts tracking. -/
def remembers : Op → Option PaymentHash
  | remember rhash .. => some rhash
  | _ => none

/-- Count a `record_send` of `r`, starting over when `r` is remembered. -/
def countSends (r : PaymentHash) (n : ℕ) : Op → ℕ
  | remember rhash .. => if rhash = r then 0 else n
  | recordSend rhash => if rhash = r then n + 1 else n
  | _ => n

/-- The entry of an owed receipt after an operation that does not remember its hash. -/
def onOwed (op : Op) (r : PaymentHash) (now : Time) (e : ReceiptEntry) : Option ReceiptEntry :=
  match op with
  | recordAttempt rhash =>
    some (if rhash = r then { e with attempts := e.attempts + 1, lastAttempt := now } else e)
  | recordSend rhash =>
    if rhash ≠ r then some e
    else if e.sendCount + 1 > resendOffsetsSec.length then none
    else some (e.sent now)
  | sweep => if now - e.dueSince ≥ retryMaxSec then none else some e
  | _ => some e

end Op

/-- One call of an operation, with the clock reading it makes. -/
structure Call where
  time : Time
  op : Op

/-- The registry after a sequence of calls. -/
def run (reg : ReceiptRegistry) (calls : List Call) : ReceiptRegistry :=
  calls.foldl (fun reg c => c.op.apply c.time reg) reg

/-- The `record_send(r)` calls since `r` was remembered. -/
def sendsSince (r : PaymentHash) (calls : List Call) : ℕ :=
  calls.foldl (fun n c => c.op.countSends r n) 0

/-- The hashes remembered, in order. -/
def remembered (calls : List Call) : List PaymentHash := calls.filterMap fun c => c.op.remembers

theorem run_snoc (reg : ReceiptRegistry) (calls : List Call) (c : Call) :
    run reg (calls ++ [c]) = c.op.apply c.time (run reg calls) := by
  simp [run]

theorem sendsSince_snoc (r : PaymentHash) (calls : List Call) (c : Call) :
    sendsSince r (calls ++ [c]) = c.op.countSends r (sendsSince r calls) := by
  simp [sendsSince]

theorem remembered_snoc (calls : List Call) (c : Call) :
    remembered (calls ++ [c]) = remembered calls ++ c.op.remembers.toList := by
  rw [remembered, List.filterMap_append]
  cases h : c.op.remembers <;> simp [remembered, h]

/-! ## One operation -/

/-- What is written under `r` comes from remembering `r`, or from the entry it had. -/
theorem lookup_apply {reg : ReceiptRegistry} {op : Op} {now : Time} {r : PaymentHash}
    {e' : ReceiptEntry} (h : (op.apply now reg).lookup r = some e') :
    (∃ payer req expiresAt, op = .remember r payer req expiresAt ∧
      e' = awaiting payer req expiresAt) ∨
    (op.remembers ≠ some r ∧ ∃ e, reg.lookup r = some e ∧ (e' = e ∨
      (op = .markDue r ∧ e.due = false ∧ e' = { e with due := true, dueSince := now }) ∨
      (op = .recordAttempt r ∧
        e' = { e with attempts := e.attempts + 1, lastAttempt := now }) ∨
      (op = .recordSend r ∧ e.sendCount + 1 ≤ resendOffsetsSec.length ∧ e' = e.sent now))) := by
  cases op with
  | remember rhash payer req expiresAt =>
    rcases lookup_of_remember h with ⟨rfl, he'⟩ | ⟨hr, he⟩
    · exact .inl ⟨payer, req, expiresAt, rfl, he'⟩
    · refine .inr ⟨?_, e', he, .inl rfl⟩
      simpa [Op.remembers] using fun h => hr h.symm
  | markDue rhash =>
    refine .inr ⟨by simp [Op.remembers], ?_⟩
    -- an entry that is already owed keeps the time it became so
    by_cases hr : r = rhash
    · subst hr
      simp only [Op.apply, lookup_markDue_self, Option.map_eq_some_iff] at h
      obtain ⟨e, he, rfl⟩ := h
      refine ⟨e, he, ?_⟩
      cases hdue : e.due <;> simp
    · exact ⟨e', by rwa [Op.apply, lookup_markDue_of_ne _ _ hr] at h, .inl rfl⟩
  | recordAttempt rhash =>
    refine .inr ⟨by simp [Op.remembers], ?_⟩
    by_cases hr : r = rhash
    · subst hr
      simp only [Op.apply, lookup_recordAttempt_self, Option.map_eq_some_iff] at h
      obtain ⟨e, he, rfl⟩ := h
      exact ⟨e, he, .inr (.inr (.inl ⟨rfl, rfl⟩))⟩
    · exact ⟨e', by rwa [Op.apply, lookup_recordAttempt_of_ne _ _ hr] at h, .inl rfl⟩
  | recordSend rhash =>
    refine .inr ⟨by simp [Op.remembers], ?_⟩
    by_cases hr : r = rhash
    · subst hr
      simp only [Op.apply, lookup_recordSend_self, Option.bind_eq_some_iff] at h
      obtain ⟨e, he, hsent⟩ := h
      -- the last send of the schedule drops the entry, so an entry that is there had sends left
      split at hsent
      next => simp at hsent
      next hle =>
        exact ⟨e, he, .inr (.inr (.inr ⟨rfl, not_lt.1 hle, (Option.some.inj hsent).symm⟩))⟩
    · exact ⟨e', by rwa [Op.apply, lookup_recordSend_of_ne _ _ hr] at h, .inl rfl⟩
  | sweep =>
    simp only [Op.apply, lookup_sweep, Option.filter_eq_some_iff] at h
    exact .inr ⟨by simp [Op.remembers], e', h.1, .inl rfl⟩
  | failRetryDelay | dueTargets | rebuild =>
    exact .inr ⟨by simp [Op.remembers], e', h, .inl rfl⟩

/-- The hashes an operation leaves in the map are those that were there, and the one it
remembers. -/
theorem mem_of_mem_apply {op : Op} {now : Time} {reg : ReceiptRegistry} {k : PaymentHash}
    (h : k ∈ (op.apply now reg).pending) : k ∈ reg.pending ∨ op.remembers = some k := by
  obtain ⟨e', he'⟩ := Dict.mem_iff_exists_get?.1 h
  rcases lookup_apply he' with ⟨_, _, _, rfl, -⟩ | ⟨-, e, he, -⟩
  · exact .inr rfl
  · exact .inl (Dict.mem_of_get? he)

/-- An absent entry stays absent unless its hash is remembered. -/
theorem lookup_apply_of_none {reg : ReceiptRegistry} {op : Op} (now : Time) {r : PaymentHash}
    (hnone : reg.lookup r = none) (hop : op.remembers ≠ some r) :
    (op.apply now reg).lookup r = none := by
  cases h : (op.apply now reg).lookup r with
  | none => rfl
  | some e' =>
    rcases lookup_apply h with ⟨_, _, _, rfl, -⟩ | ⟨-, e, he, -⟩
    · exact absurd rfl hop
    · rw [hnone] at he
      cases he

/-- An operation on another hash, evictions by the cap included, never touches an owed receipt. -/
theorem lookup_apply_of_due {reg : ReceiptRegistry} {op : Op} {now : Time} {r : PaymentHash}
    {e : ReceiptEntry} (he : reg.lookup r = some e) (hdue : e.due = true)
    (hop : op.remembers ≠ some r) : (op.apply now reg).lookup r = op.onOwed r now e := by
  cases op with
  | remember rhash payer req expiresAt =>
    have hr : r ≠ rhash := by
      rintro rfl
      exact hop rfl
    exact lookup_remember_of_due reg _ _ _ _ hr he hdue
  | markDue rhash =>
    by_cases hr : r = rhash
    · subst hr
      simp [Op.apply, lookup_markDue_self, he, hdue, Op.onOwed]
    · simpa [Op.apply, lookup_markDue_of_ne _ _ hr, Op.onOwed] using he
  | recordAttempt rhash =>
    by_cases hr : r = rhash
    · subst hr
      simp [Op.apply, lookup_recordAttempt_self, he, Op.onOwed]
    · have hr' : rhash ≠ r := fun h => hr h.symm
      simpa [Op.apply, lookup_recordAttempt_of_ne _ _ hr, Op.onOwed, hr'] using he
  | recordSend rhash =>
    by_cases hr : r = rhash
    · subst hr
      simp [Op.apply, lookup_recordSend_self, he, Op.onOwed]
    · have hr' : rhash ≠ r := fun h => hr h.symm
      simpa [Op.apply, lookup_recordSend_of_ne _ _ hr, Op.onOwed, hr'] using he
  | sweep =>
    by_cases hold : now - e.dueSince ≥ retryMaxSec <;>
      simp [Op.apply, lookup_sweep, he, Op.onOwed, ReceiptEntry.keep, hdue, hold, Option.filter]
  | failRetryDelay | dueTargets | rebuild => exact he

/-- An operation that keeps an owed receipt keeps its payer, request and due stamp. -/
theorem onOwed_fields {op : Op} {r : PaymentHash} {now : Time} {e e' : ReceiptEntry}
    (h : op.onOwed r now e = some e') :
    e'.due = e.due ∧ e'.dueSince = e.dueSince ∧ e'.payer = e.payer ∧ e'.req = e.req := by
  have hsame : e' = e → e'.due = e.due ∧ e'.dueSince = e.dueSince ∧ e'.payer = e.payer ∧
      e'.req = e.req := by
    rintro rfl
    exact ⟨rfl, rfl, rfl, rfl⟩
  cases op with
  | recordAttempt rhash =>
    obtain rfl := Option.some.inj h
    split <;> exact ⟨rfl, rfl, rfl, rfl⟩
  | recordSend rhash =>
    simp only [Op.onOwed] at h
    split at h
    · exact hsame (Option.some.inj h).symm
    · split at h
      · simp at h
      · obtain rfl := Option.some.inj h
        obtain ⟨hp, hq, -, hd, hs, -⟩ := e.sent_fields now
        exact ⟨hd, hs, hp, hq⟩
  | sweep =>
    simp only [Op.onOwed] at h
    split at h
    · simp at h
    · exact hsame (Option.some.inj h).symm
  | remember | markDue | failRetryDelay | dueTargets | rebuild =>
    exact hsame (Option.some.inj h).symm

/-- An operation ends an owed receipt exactly when it is the last send of the schedule or a sweep
at least `RETRY_MAX_SEC` after payment. -/
theorem onOwed_eq_none_iff {op : Op} {r : PaymentHash} {now : Time} {e : ReceiptEntry}
    (hle : e.sendCount ≤ resendOffsetsSec.length) (hop : op.remembers ≠ some r) :
    op.onOwed r now e = none ↔ resendOffsetsSec.length + 1 ≤ op.countSends r e.sendCount ∨
      (op = .sweep ∧ e.dueSince + retryMaxSec ≤ now) := by
  have hnever : ¬ resendOffsetsSec.length + 1 ≤ e.sendCount := by omega
  cases op with
  | remember rhash =>
    have hr : rhash ≠ r := by
      rintro rfl
      exact hop rfl
    simp [Op.onOwed, Op.countSends, hr, hnever]
  | recordSend rhash =>
    by_cases hr : rhash = r
    · simp only [Op.onOwed, hr, Op.countSends, ne_eq, not_true_eq_false, if_false, if_true,
        ite_eq_left_iff, reduceCtorEq, imp_false, not_not, false_and, or_false]
      omega
    · simp [Op.onOwed, Op.countSends, hr, hnever]
  | sweep =>
    simp only [Op.onOwed, Op.countSends, hnever, ite_eq_left_iff, reduceCtorEq, imp_false, not_not,
      true_and, false_or]
    constructor <;> intro h <;> linarith
  | markDue | recordAttempt | failRetryDelay | dueTargets | rebuild =>
    simp [Op.onOwed, Op.countSends, hnever]

/-- An operation that does not remember `r` never lowers its count of sends. -/
theorem le_countSends {op : Op} {r : PaymentHash} (hop : op.remembers ≠ some r) (n : ℕ) :
    n ≤ op.countSends r n := by
  cases op with
  | remember rhash =>
    have hr : rhash ≠ r := by
      rintro rfl
      exact hop rfl
    simp [Op.countSends, hr]
  | recordSend =>
    simp only [Op.countSends]
    split <;> omega
  | _ => exact le_rfl

/-- Only a `record_send` of `r` moves its count of sends. -/
theorem countSends_of_ne {op : Op} {r : PaymentHash} (hop : op.remembers ≠ some r)
    (hsend : op ≠ .recordSend r) (n : ℕ) : op.countSends r n = n := by
  cases op with
  | remember rhash =>
    have hr : rhash ≠ r := by
      rintro rfl
      exact hop rfl
    simp [Op.countSends, hr]
  | recordSend rhash =>
    have hr : rhash ≠ r := by
      rintro rfl
      exact hsend rfl
    simp [Op.countSends, hr]
  | _ => rfl

/-! ## Sequences of operations -/

/-- The send counter of a stored entry is the number of `record_send` calls since it was
remembered, and the schedule is not complete yet. -/
theorem entry_tracks_sends {calls : List Call} {r : PaymentHash} {e : ReceiptEntry}
    (he : (run empty calls).lookup r = some e) :
    e.sendCount = sendsSince r calls ∧ e.sendCount ≤ resendOffsetsSec.length := by
  -- along the calls from the first to the last: every one finds the counter of the ones before
  induction calls using List.reverseRecOn generalizing e with
  | nil => simp [run, empty, lookup] at he
  | append_singleton calls c ih =>
    rw [run_snoc] at he
    rw [sendsSince_snoc]
    rcases lookup_apply he with ⟨payer, req, expiresAt, hop, rfl⟩ | ⟨hop, e₀, he₀, hcases⟩
    · simp [hop, Op.countSends, awaiting, ReceiptEntry.sendCount]
    · obtain ⟨hcount, hle⟩ := ih he₀
      rcases hcases with rfl | ⟨hc, -, rfl⟩ | ⟨hc, rfl⟩ | ⟨hc, hle', rfl⟩
      · by_cases hc : c.op = .recordSend r
        · -- the entry survived unchanged, so this call did not find it
          rw [hc, Op.apply, lookup_recordSend_self, he₀, Option.bind_some] at he
          split at he
          · simp at he
          · have := congrArg ReceiptEntry.sendCount (Option.some.inj he)
            simp at this
        · rw [countSends_of_ne hop hc]
          exact ⟨hcount, hle⟩
      · rw [countSends_of_ne hop (by simp [hc])]
        exact ⟨hcount, hle⟩
      · rw [countSends_of_ne hop (by simp [hc])]
        exact ⟨hcount, hle⟩
      · simp only [hc, Op.countSends, if_true, ReceiptEntry.sendCount_sent, hcount]
        exact ⟨trivial, hcount ▸ hle'⟩

/-- A stored entry was remembered. -/
theorem remembered_of_entry {calls : List Call} {r : PaymentHash} {e : ReceiptEntry}
    (he : (run empty calls).lookup r = some e) : r ∈ remembered calls := by
  induction calls using List.reverseRecOn generalizing e with
  | nil => simp [run, empty, lookup] at he
  | append_singleton calls c ih =>
    rw [run_snoc] at he
    rw [remembered_snoc, List.mem_append]
    rcases lookup_apply he with ⟨payer, req, expiresAt, hop, -⟩ | ⟨-, e₀, he₀, -⟩
    · right
      simp [hop, Op.remembers]
    · exact .inl (ih he₀)

/-- An entry no `mark_due` call has found yet is not owed. -/
theorem not_due_of_no_target {calls : List Call} {r : PaymentHash} {e : ReceiptEntry}
    (he : (run empty calls).lookup r = some e)
    (hnone : ∀ calls₁ t calls₂, calls = calls₁ ++ ⟨t, .markDue r⟩ :: calls₂ →
      ((run empty calls₁).markDue t r).1 = none) : e.due = false := by
  induction calls using List.reverseRecOn generalizing e with
  | nil => simp [run, empty, lookup] at he
  | append_singleton calls c ih =>
    rw [run_snoc] at he
    have hinit : ∀ calls₁ t calls₂, calls = calls₁ ++ ⟨t, .markDue r⟩ :: calls₂ →
        ((run empty calls₁).markDue t r).1 = none := fun calls₁ t calls₂ h =>
      hnone calls₁ t (calls₂ ++ [c]) (by simp [h])
    rcases lookup_apply he with ⟨payer, req, expiresAt, -, rfl⟩ | ⟨-, e₀, he₀, hcases⟩
    · rfl
    · have hdue := ih he₀ hinit
      rcases hcases with rfl | ⟨hc, -, -⟩ | ⟨-, rfl⟩ | ⟨-, -, rfl⟩
      · exact hdue
      · have htarget := hnone calls c.time [] (by rw [← hc])
        simp [markDue, he₀] at htarget
      · exact hdue
      · rw [(e₀.sent_fields c.time).2.2.2.1, hdue]

/-- `mark_due` returns a target exactly when it finds an entry. -/
theorem exists_entry_of_markDue {reg : ReceiptRegistry} {t : Time} {r : PaymentHash}
    {tgt : ReceiptTarget} (h : (reg.markDue t r).1 = some tgt) :
    ∃ e, reg.lookup r = some e ∧ tgt.payerPubkey = e.payer ∧ tgt.requestEventId = e.req := by
  unfold markDue at h
  split at h
  next => simp at h
  next e he =>
    refine ⟨e, he, ?_⟩
    obtain rfl := Option.some.inj h
    cases e.due <;> simp [target]

/-- The receipt of `r`, first owed at `t`, has come to its end: its schedule is complete or it was
swept at least `RETRY_MAX_SEC` after payment. -/
def Ended (r : PaymentHash) (t : Time) (pre post : List Call) : Prop :=
  resendOffsetsSec.length + 1 ≤ sendsSince r (pre ++ ⟨t, .markDue r⟩ :: post) ∨
    ∃ c ∈ post, c.op = .sweep ∧ t + retryMaxSec ≤ c.time

/-- The entry of a receipt owed since `t`, addressed to `payer` for request `req`. -/
structure OwedSince (reg : ReceiptRegistry) (r : PaymentHash) (t : Time) (payer : Pubkey)
    (req : EventId) (e : ReceiptEntry) : Prop where
  stored : reg.lookup r = some e
  due : e.due = true
  dueSince : e.dueSince = t
  payer : e.payer = payer
  req : e.req = req

section Kept

variable {pre post : List Call} {t : Time} {r : PaymentHash} {tgt : ReceiptTarget}

/-- After the first `mark_due` and until its end the receipt is stored and owed, with its payer,
request and due stamp; after its end it is gone. -/
private theorem kept_or_ended (honce : (remembered (pre ++ ⟨t, .markDue r⟩ :: post)).Nodup)
    (hfirst : ∀ pre₁ t' pre₂, pre = pre₁ ++ ⟨t', .markDue r⟩ :: pre₂ →
      ((run empty pre₁).markDue t' r).1 = none)
    (htgt : ((run empty pre).markDue t r).1 = some tgt) :
    (¬ Ended r t pre post → ∃ e, OwedSince (run empty (pre ++ ⟨t, .markDue r⟩ :: post)) r t
      tgt.payerPubkey tgt.requestEventId e) ∧
    (Ended r t pre post → (run empty (pre ++ ⟨t, .markDue r⟩ :: post)).lookup r = none) := by
  obtain ⟨e₀, he₀, hpayer, hreq⟩ := exists_entry_of_markDue htgt
  -- along the calls after the payment; both parts are needed, as an ended receipt has to stay gone
  induction post using List.reverseRecOn with
  | nil =>
    have hdue : e₀.due = false := not_due_of_no_target he₀ hfirst
    obtain ⟨hcount, hle⟩ := entry_tracks_sends he₀
    constructor
    · intro _
      refine ⟨{ e₀ with due := true, dueSince := t }, ?_, rfl, rfl, hpayer.symm, hreq.symm⟩
      rw [run_snoc, Op.apply, lookup_markDue_self, he₀]
      simp [hdue]
    · rintro (hsends | ⟨c, hc, -⟩)
      · rw [sendsSince_snoc, countSends_of_ne (by simp [Op.remembers]) (by simp)] at hsends
        omega
      · simp at hc
  | append_singleton post c ih =>
    have hsplit : pre ++ ⟨t, .markDue r⟩ :: (post ++ [c]) =
        (pre ++ ⟨t, .markDue r⟩ :: post) ++ [c] := by simp
    rw [hsplit, remembered_snoc, List.nodup_append] at honce
    rw [hsplit]
    obtain ⟨hkept, hgone⟩ := ih honce.1
    rw [run_snoc]
    -- `r` was remembered before it was marked due, so this call does not remember it again
    have hop : c.op.remembers ≠ some r := by
      intro hc
      refine honce.2.2 r ?_ r (by simp [hc]) rfl
      rw [remembered, List.filterMap_append, List.mem_append]
      exact .inl (remembered_of_entry he₀)
    have hsends := sendsSince_snoc r (pre ++ ⟨t, .markDue r⟩ :: post) c
    rw [← hsplit] at hsends
    by_cases hended : Ended r t pre post
    · have hended' : Ended r t pre (post ++ [c]) := by
        rcases hended with h | ⟨c', hc', h⟩
        · exact .inl (h.trans (hsends ▸ le_countSends hop _))
        · exact .inr ⟨c', by simp [hc'], h⟩
      exact ⟨fun h => absurd hended' h,
        fun _ => lookup_apply_of_none _ (hgone hended) hop⟩
    · obtain ⟨e, he⟩ := hkept hended
      obtain ⟨hcount, hle⟩ := entry_tracks_sends he.stored
      have hstep : (c.op.apply c.time (run empty (pre ++ ⟨t, .markDue r⟩ :: post))).lookup r =
          c.op.onOwed r c.time e := lookup_apply_of_due he.stored he.due hop
      -- the receipt had not ended before, so this call alone decides whether it ends
      have hnew : Ended r t pre (post ++ [c]) ↔ c.op.onOwed r c.time e = none := by
        rw [onOwed_eq_none_iff hle hop, hcount, he.dueSince]
        unfold Ended at hended ⊢
        rw [hsends]
        constructor
        · rintro (h | ⟨c', hc', h⟩)
          · exact .inl h
          · rcases List.mem_append.1 hc' with h' | h'
            · exact absurd (.inr ⟨c', h', h⟩) hended
            · rw [List.mem_singleton.1 h'] at h
              exact .inr h
        · rintro (h | h)
          · exact .inl h
          · exact .inr ⟨c, by simp, h⟩
      rw [hnew, hstep]
      refine ⟨fun hne => ?_, fun h => h⟩
      obtain ⟨e', he'⟩ := Option.ne_none_iff_exists'.1 hne
      obtain ⟨hdue, hsince, hp, hq⟩ := onOwed_fields he'
      exact ⟨e', hstep.trans he', hdue.trans he.due, hsince.trans he.dueSince,
        hp.trans he.payer, hq.trans he.req⟩

/-- An owed receipt is never lost. Once `mark_due(r)` has first returned a target, at time `t`, the
receipt stays owed with the same payer, request and due stamp, until the seventh `record_send(r)`
since it was remembered or a sweep at `t + RETRY_MAX_SEC` or later; from then on it is absent. No
operation on another hash ever changes its entry. -/
theorem owed_receipt_kept (pre post : List Call) (t : Time) (r : PaymentHash)
    (tgt : ReceiptTarget) (honce : (remembered (pre ++ ⟨t, .markDue r⟩ :: post)).Nodup)
    (hfirst : ∀ pre₁ t' pre₂, pre = pre₁ ++ ⟨t', .markDue r⟩ :: pre₂ →
      ((run empty pre₁).markDue t' r).1 = none)
    (htgt : ((run empty pre).markDue t r).1 = some tgt) :
    let reg := run empty (pre ++ ⟨t, .markDue r⟩ :: post)
    (¬ Ended r t pre post → reg.isOwed r = true ∧ ∃ e, reg.lookup r = some e ∧
      e.payer = tgt.payerPubkey ∧ e.req = tgt.requestEventId ∧ e.dueSince = t) ∧
    (Ended r t pre post → reg.lookup r = none) ∧
    (∀ (now : Time) (op : Op), op.rhash?.isSome → op.rhash? ≠ some r →
      (op.apply now reg).lookup r = reg.lookup r) := by
  intro reg
  obtain ⟨hkept, hgone⟩ := kept_or_ended honce hfirst htgt
  refine ⟨fun hne => ?_, hgone, fun now op hsome hother => ?_⟩
  · obtain ⟨e, he⟩ := hkept hne
    exact ⟨(isOwed_iff _ _).2 ⟨e, he.stored, he.due⟩, e, he.stored, he.payer, he.req, he.dueSince⟩
  · have hop : op.remembers ≠ some r := by
      cases op <;> simp_all [Op.remembers, Op.rhash?]
    by_cases hended : Ended r t pre post
    · rw [hgone hended]
      exact lookup_apply_of_none now (hgone hended) hop
    · obtain ⟨e, he⟩ := hkept hended
      rw [he.stored, lookup_apply_of_due he.stored he.due hop]
      cases op <;> simp_all [Op.onOwed, Op.rhash?]

/-- A receipt marked due at 5 and broadcast once is still owed. -/
theorem owed_receipt_kept_one_send :
    (run empty [⟨1, .remember "r" "p" "q" 100⟩, ⟨5, .markDue "r"⟩, ⟨6, .recordSend "r"⟩]).isOwed
      "r" = true := by
  have honce : (remembered ([⟨1, .remember "r" "p" "q" 100⟩] ++
      (⟨5, .markDue "r"⟩ : Call) :: [⟨6, .recordSend "r"⟩])).Nodup := by decide
  have hended : ¬ Ended "r" 5 [⟨1, .remember "r" "p" "q" 100⟩] [⟨6, .recordSend "r"⟩] := by
    simp [Ended, sendsSince, Op.countSends, resendOffsetsSec]
  refine ((owed_receipt_kept [⟨1, .remember "r" "p" "q" 100⟩] [⟨6, .recordSend "r"⟩] 5 "r"
    ⟨"r", "p", "q", 0, 5, 0⟩ honce ?_ ?_).1 hended).1
  · intro pre₁ t' pre₂ h
    rcases pre₁ with _ | ⟨c, _ | ⟨c', l⟩⟩ <;> simp at h
  · decide +kernel

end Kept

end ElectrumClink.ReceiptRegistry
