import ElectrumClink.Receipts.Cap

/-!
# One schedule, computed twice

The times of the re-broadcasts are computed in two places. `record_send` returns the delay that a
tail sleeps, relative to the clock and never negative; `due_targets` compares the time since the
first send with an offset, so that a schedule whose tail is gone can be resumed.

`dueTargets_agrees_with_delay` shows that the two agree: after a send that returned a delay,
whatever happens to other receipts and however often this one is attempted, it is listed from the
end of that delay on and not before. Both are measured from the first send (`firstSend_sent`), so a
late send does not shift the later ones.
-/

namespace ElectrumClink

namespace ReceiptEntry

/-- The offset after the first send at which the entry is to be sent next. -/
def nextOffset (e : ReceiptEntry) : Time := resendOffsetsSec.getD (e.sendCount - 1) 0

/-- Exactly the entries that were sent have the time of their first send, and the schedule of none
is complete. -/
structure Anchored (e : ReceiptEntry) : Prop where
  sendCount_le : e.sendCount ≤ resendOffsetsSec.length
  firstSend : e.firstSend.isSome = true ↔ 0 < e.sendCount

/-- A send keeps the time of the first one. -/
theorem firstSend_sent {e : ReceiptEntry} (now : Time) (hsends : 0 < e.sendCount) :
    (e.sent now).firstSend = e.firstSend := by
  rw [sent, if_neg (by omega)]

/-- The first send sets its time. -/
theorem firstSend_sent_of_zero {e : ReceiptEntry} (now : Time) (hsends : e.sendCount = 0) :
    (e.sent now).firstSend = some now := by
  rw [sent, if_pos (by omega)]

theorem Anchored.sent {e : ReceiptEntry} (h : e.Anchored) (now : Time)
    (hle : e.sendCount + 1 ≤ resendOffsetsSec.length) : (e.sent now).Anchored := by
  refine ⟨by rwa [sendCount_sent], ?_⟩
  rw [sendCount_sent]
  rcases Nat.eq_zero_or_pos e.sendCount with hzero | hpos
  · simp [firstSend_sent_of_zero now hzero]
  · simp [firstSend_sent now hpos, h.firstSend.2 hpos]

/-- The other fields do not matter. -/
theorem Anchored.of_eq {e e' : ReceiptEntry} (h : e.Anchored) (hsends : e'.sends = e.sends)
    (hfirst : e'.firstSend = e.firstSend) : e'.Anchored := by
  have hcount : e'.sendCount = e.sendCount := congrArg (Option.getD · 0) hsends
  exact ⟨hcount ▸ h.sendCount_le, by rw [hfirst, hcount, h.firstSend]⟩

/-- In the middle of its schedule an entry is due from its next offset on. -/
theorem isDueNow_iff_of_sent {e : ReceiptEntry} {first : Time} (hdue : e.due = true)
    (hanchored : e.Anchored) (hfirst : e.firstSend = some first) (now : Time) :
    e.isDueNow now = true ↔ first + e.nextOffset ≤ now := by
  have hsends : e.sendCount > 0 := hanchored.firstSend.1 (by rw [hfirst]; rfl)
  -- the index of `due_targets` is capped where no count of an entry reaches
  have hindex : min e.sendCount resendOffsetsSec.length = e.sendCount :=
    min_eq_left hanchored.sendCount_le
  rw [isDueNow, hdue, if_neg (by decide), if_pos hsends, hindex, hfirst, nextOffset]
  rw [Option.getD_some, Bool.not_eq_true', decide_eq_false_iff_not, not_lt]
  exact le_sub_iff_add_le'

/-- Two entries at the same place in the same schedule. -/
structure SameSchedule (e e' : ReceiptEntry) : Prop where
  due : e'.due = e.due
  dueSince : e'.dueSince = e.dueSince
  sends : e'.sends = e.sends
  firstSend : e'.firstSend = e.firstSend

theorem SameSchedule.nextOffset {e e' : ReceiptEntry} (h : SameSchedule e e') :
    e'.nextOffset = e.nextOffset := by
  have hsends : e'.sendCount = e.sendCount := congrArg (Option.getD · 0) h.sends
  rw [ReceiptEntry.nextOffset, hsends]
  rfl

end ReceiptEntry

namespace ReceiptRegistry

open ReceiptEntry

/-- Every stored entry is anchored. -/
theorem anchored_run {calls : List Operation.Call} {r : PaymentHash} {e : ReceiptEntry}
    (he : (Operation.run empty calls).lookup r = some e) : e.Anchored := by
  induction calls using List.reverseRecOn generalizing e with
  | nil => cases he
  | append_singleton calls c ih =>
    rw [Operation.run_snoc] at he
    obtain ⟨now, op | rhash⟩ := c
    · rcases lookup_apply he with ⟨payer, req, expiresAt, -, rfl⟩ | ⟨-, e₀, he₀, hcases⟩
      · exact ⟨Nat.zero_le _, by simp [awaiting, sendCount]⟩
      · have hanchored := ih he₀
        rcases hcases with rfl | ⟨-, -, rfl⟩ | ⟨-, rfl⟩ | ⟨-, hle, rfl⟩
        · exact hanchored
        · exact hanchored.of_eq rfl rfl
        · exact hanchored.of_eq rfl rfl
        · exact hanchored.sent now hle
    · exact ih (Dict.get?_of_get?_erase he)

/-- An operation that does not touch the schedule of `r`: it does not send, remember or forget
it. -/
def Operation.Spares (r : PaymentHash) : Operation → Prop
  | .ofOp op => op ≠ .recordSend r ∧ op.remembers ≠ some r
  | .forget rhash => rhash ≠ r

/-- Such an operation keeps the place of an owed receipt in its schedule until the receipt is
given up. -/
theorem sameSchedule_apply {reg : ReceiptRegistry} {operation : Operation} {now : Time}
    {r : PaymentHash} {e : ReceiptEntry} (hspares : operation.Spares r)
    (he : reg.lookup r = some e) (hdue : e.due = true) (hlive : now < e.dueSince + retryMaxSec) :
    ∃ e', (operation.apply now reg).lookup r = some e' ∧ SameSchedule e e' := by
  rcases operation with op | rhash
  · obtain ⟨hsend, hop⟩ := hspares
    rw [Operation.apply, lookup_apply_of_due he hdue hop]
    cases op with
    | recordAttempt rhash =>
      refine ⟨_, rfl, ?_⟩
      split <;> exact ⟨rfl, rfl, rfl, rfl⟩
    | recordSend rhash =>
      have hr : rhash ≠ r := by
        rintro rfl
        exact hsend rfl
      exact ⟨e, if_pos hr, rfl, rfl, rfl, rfl⟩
    | sweep =>
      have hkeep : ¬ now - e.dueSince ≥ retryMaxSec := by linarith
      exact ⟨e, if_neg hkeep, rfl, rfl, rfl, rfl⟩
    | _ => exact ⟨e, rfl, rfl, rfl, rfl, rfl⟩
  · exact ⟨e, (Dict.get?_erase_of_ne _ (Ne.symm hspares)).trans he, rfl, rfl, rfl, rfl⟩

/-- A whole sequence of such operations does. -/
theorem sameSchedule_run {reg : ReceiptRegistry} {r : PaymentHash} {e : ReceiptEntry} {u : Time}
    (he : reg.lookup r = some e) (hdue : e.due = true) (hlive : u < e.dueSince + retryMaxSec)
    {post : List Operation.Call} (hpost : ∀ c ∈ post, c.time ≤ u ∧ c.operation.Spares r) :
    ∃ e', (Operation.run reg post).lookup r = some e' ∧ SameSchedule e e' := by
  induction post using List.reverseRecOn with
  | nil => exact ⟨e, he, rfl, rfl, rfl, rfl⟩
  | append_singleton post c ih =>
    obtain ⟨e₁, he₁, hsame₁⟩ := ih fun c hc => hpost c (List.mem_append_left _ hc)
    obtain ⟨htime, hspares⟩ := hpost c (List.mem_append_right _ (List.mem_singleton_self c))
    have hlive₁ : c.time < e₁.dueSince + retryMaxSec := by
      rw [hsame₁.dueSince]
      exact htime.trans_lt hlive
    obtain ⟨e₂, he₂, hsame₂⟩ := sameSchedule_apply hspares he₁ (hsame₁.due.trans hdue) hlive₁
    rw [Operation.run_snoc]
    exact ⟨e₂, he₂, hsame₂.due.trans hsame₁.due, hsame₂.dueSince.trans hsame₁.dueSince,
      hsame₂.sends.trans hsame₁.sends, hsame₂.firstSend.trans hsame₁.firstSend⟩

/-- What a `record_send` that returned a delay leaves behind. -/
theorem exists_entry_of_recordSend {reg : ReceiptRegistry} {t d : Time} {r : PaymentHash}
    (hsend : (reg.recordSend t r).1 = some d) :
    ∃ e, reg.lookup r = some e ∧ e.sendCount + 1 ≤ resendOffsetsSec.length ∧
      (reg.recordSend t r).2.lookup r = some (e.sent t) ∧
      d = max 0 ((e.sent t).firstSend.getD t + (e.sent t).nextOffset - t) := by
  have hself := lookup_recordSend_self reg t r
  unfold recordSend at hsend
  split at hsend
  next => cases hsend
  next e he =>
    dsimp only at hsend
    split at hsend
    next => cases hsend
    next hle =>
      rw [he, Option.bind_some, if_neg hle] at hself
      refine ⟨e, he, not_lt.1 hle, hself, ?_⟩
      rw [nextOffset, sendCount_sent]
      exact (Option.some.inj hsend).symm

/-- An owed receipt that is kept is listed exactly when its entry is due. -/
theorem exists_mem_dueTargets_iff {reg : ReceiptRegistry} {u : Time} {r : PaymentHash}
    {e : ReceiptEntry} (he : reg.lookup r = some e) (hdue : e.due = true)
    (hlive : u < e.dueSince + retryMaxSec) :
    (∃ tgt ∈ reg.dueTargets u, tgt.rhash = r) ↔ e.isDueNow u = true := by
  have hkeep : e.keep u = true := by
    rw [ReceiptEntry.keep, if_pos hdue, Bool.not_eq_true', decide_eq_false_iff_not]
    linarith
  constructor
  · rintro ⟨tgt, htgt, hr⟩
    obtain ⟨k, e', he', -, hnow, rfl⟩ := (mem_dueTargets_iff _ _ _).1 htgt
    obtain rfl : k = r := hr
    obtain rfl := Option.some.inj (he.symm.trans he')
    exact hnow
  · intro hnow
    exact ⟨target r e, (mem_dueTargets_iff _ _ _).2 ⟨r, e, he, hkeep, hnow, rfl⟩, rfl⟩

/-- The resume path agrees with the tail path. After a `record_send` of an owed receipt at `t` that
returned the delay `d`, and until the next one, `due_targets` at `u` lists the receipt exactly when
`t + d` has come, whatever else the registry was asked in between. And `t + d` is the next offset
after the first send, or `t` itself when that has passed. -/
theorem dueTargets_agrees_with_delay (pre : List Operation.Call) (t d : Time) (r : PaymentHash)
    (howed : (Operation.run empty pre).isOwed r = true)
    (hsend : ((Operation.run empty pre).recordSend t r).1 = some d) :
    ∃ e first, (Operation.run empty (pre ++ [⟨t, .ofOp (.recordSend r)⟩])).lookup r = some e ∧
      1 ≤ e.sendCount ∧ e.sendCount ≤ resendOffsetsSec.length ∧ e.firstSend = some first ∧
      (∀ e₀, (Operation.run empty pre).lookup r = some e₀ → 0 < e₀.sendCount →
        e₀.firstSend = some first) ∧
      t + d = max t (first + resendOffsetsSec.getD (e.sendCount - 1) 0) ∧
      ∀ post u, (∀ c ∈ post, c.time ≤ u ∧ c.operation.Spares r) → t ≤ u →
        u < e.dueSince + retryMaxSec →
        ((∃ tgt ∈ (Operation.run empty
          (pre ++ ⟨t, .ofOp (.recordSend r)⟩ :: post)).dueTargets u, tgt.rhash = r) ↔
            t + d ≤ u) := by
  obtain ⟨e₀, he₀, hle, he, hd⟩ := exists_entry_of_recordSend hsend
  have hdue : (e₀.sent t).due = true := by
    obtain ⟨e₁, he₁, hdue₁⟩ := (isOwed_iff _ _).1 howed
    obtain rfl := Option.some.inj (he₀.symm.trans he₁)
    rw [(e₀.sent_fields t).2.2.2.1, hdue₁]
  have hanchored := (anchored_run he₀).sent t hle
  obtain ⟨first, hfirst⟩ : ∃ first, (e₀.sent t).firstSend = some first :=
    Option.isSome_iff_exists.1 (hanchored.firstSend.2 (by rw [sendCount_sent]; omega))
  have hsum : t + d = max t (first + (e₀.sent t).nextOffset) := by
    rw [hd, hfirst, Option.getD_some, ← max_add_add_left, add_zero, add_sub_cancel]
  refine ⟨e₀.sent t, first, ?_, by rw [sendCount_sent]; omega, hanchored.sendCount_le, hfirst, ?_,
    hsum, fun post u hpost htu hlive => ?_⟩
  · rw [Operation.run_snoc]
    exact he
  · intro e₁ he₁ hsends
    obtain rfl := Option.some.inj (he₀.symm.trans he₁)
    rw [← firstSend_sent t hsends, hfirst]
  · -- the calls in between leave the receipt at its place in the schedule
    obtain ⟨e', he', hsame⟩ := sameSchedule_run he hdue hlive hpost
    have hrun : Operation.run empty (pre ++ ⟨t, .ofOp (.recordSend r)⟩ :: post) =
        Operation.run ((Operation.run empty pre).recordSend t r).2 post := by
      simp [Operation.run, Operation.apply, Op.apply]
    have hlive' : u < e'.dueSince + retryMaxSec := by rwa [hsame.dueSince]
    rw [hrun, exists_mem_dueTargets_iff he' (hsame.due.trans hdue) hlive',
      isDueNow_iff_of_sent (hsame.due.trans hdue) (hanchored.of_eq hsame.sends hsame.firstSend)
        (hsame.firstSend.trans hfirst), hsame.nextOffset, hsum, max_le_iff]
    exact (and_iff_right htu).symm

/-- A receipt that is sent late for the second time: paid at 1, sent at 2 and at 40, it is due again
at once, as the second offset after the first send has passed. -/
theorem dueTargets_agrees_with_delay_late :
    ∃ tgt ∈ (Operation.run empty [⟨0, .ofOp (.remember "r" "p" "q" 100)⟩,
      ⟨1, .ofOp (.markDue "r")⟩, ⟨2, .ofOp (.recordSend "r")⟩, ⟨40, .ofOp (.recordSend "r")⟩,
      ⟨41, .ofOp (.recordAttempt "r")⟩]).dueTargets 42, tgt.rhash = "r" := by
  obtain ⟨e, first, he, -, -, -, -, -, hlisted⟩ := dueTargets_agrees_with_delay
    [⟨0, .ofOp (.remember "r" "p" "q" 100)⟩, ⟨1, .ofOp (.markDue "r")⟩,
      ⟨2, .ofOp (.recordSend "r")⟩] 40 0 "r" (by decide +kernel) (by decide +kernel)
  have hsince : e.dueSince = 1 := by
    have hlookup : ((Operation.run empty [⟨0, .ofOp (.remember "r" "p" "q" 100)⟩,
        ⟨1, .ofOp (.markDue "r")⟩, ⟨2, .ofOp (.recordSend "r")⟩,
        ⟨40, .ofOp (.recordSend "r")⟩]).lookup "r").map ReceiptEntry.dueSince = some 1 := by
      decide +kernel
    obtain ⟨e', he', hsince⟩ := Option.map_eq_some_iff.1 hlookup
    exact (Option.some.inj (he.symm.trans he')) ▸ hsince
  refine (hlisted [⟨41, .ofOp (.recordAttempt "r")⟩] 42 ?_ (by norm_num) ?_).2 (by norm_num)
  · intro c hc
    obtain rfl := List.mem_singleton.1 hc
    exact ⟨by norm_num, by simp [Operation.Spares, Op.remembers]⟩
  · rw [hsince]
    norm_num [retryMaxSec]

end ReceiptRegistry

end ElectrumClink
