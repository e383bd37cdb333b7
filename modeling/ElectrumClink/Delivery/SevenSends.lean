import ElectrumClink.Delivery.Steps

/-!
# How often a receipt is sent

The schedule of a receipt allows seven sends, and the entry that counts them goes with the last
one. A delivery publishes before it counts, and of its three callers only the tail looks whether the
receipt is still owed: deliveries that overlap can send more often.

`sent_at_most_seven_times` shows that this is the only way: the bound holds in every run in which no
publish begins unless the receipt is still registered and its sends and the publishes under way
leave room for one more. `duplicate_notifications_overrun` is a run without this condition.
-/

namespace ElectrumClink.Courier

variable {s s' : Courier} {a : Action}

/-- The sends of a complete schedule. -/
def scheduledSends : ℕ := resendOffsetsSec.length + 1

/-- A publish begins only for a receipt that is still registered, and whose counted sends together
with its publishes under way leave room for one more. -/
def LeavesRoom (s : Courier) (a : Action) : Prop :=
  ∀ rhash ∈ s.begins a, ∃ e ∈ s.receipts.lookup rhash,
    e.sendCount + s.publishing rhash < scheduledSends

instance (s : Courier) (a : Action) : Decidable (s.LeavesRoom a) :=
  inferInstanceAs (Decidable (∀ rhash ∈ s.begins a, ∃ e ∈ s.receipts.lookup rhash,
    e.sendCount + s.publishing rhash < scheduledSends))

/-- An entry counts the sends of its receipt. -/
def Counted (s : Courier) : Prop :=
  ∀ r e, s.receipts.lookup r = some e → e.sendCount = s.log.sent.count r

/-- An operation that neither remembers nor counts a send leaves the send counters alone. -/
theorem sendCount_of_apply (op : ReceiptRegistry.Op) {now : Time} {reg : ReceiptRegistry}
    {r : PaymentHash} {e' : ReceiptEntry} (hop : op.remembers = none)
    (hsend : ∀ r, op ≠ .recordSend r) (h : (op.apply now reg).lookup r = some e') :
    ∃ e, reg.lookup r = some e ∧ e'.sendCount = e.sendCount := by
  rcases ReceiptRegistry.lookup_apply h with ⟨_, _, _, rfl, -⟩ | ⟨-, e, he, hchange⟩
  · cases hop
  · refine ⟨e, he, ?_⟩
    rcases hchange with rfl | ⟨-, -, rfl⟩ | ⟨-, rfl⟩ | ⟨rfl, -⟩
    · rfl
    · rfl
    · rfl
    · exact absurd rfl (hsend r)

theorem counted_step (hknown : KnownInv s) (hcounted : Counted s) (h : s.step a = some s') :
    Counted s' := by
  intro r e' he'
  -- only a publish adds to the count
  cases step_effect h with
  | quiet op hop hreceipts hlog hpublishing =>
    rw [hreceipts] at he'
    obtain ⟨e, he, hsame⟩ := sendCount_of_apply op
      (by rcases hop with rfl | rfl | ⟨r, rfl, -⟩ <;> rfl)
      (by rcases hop with rfl | rfl | ⟨r, rfl, -⟩ <;> simp) he'
    rw [hsame, hcounted r e he, hlog]
  | remembered rhash payerPubkey requestEventId expiresAt hfresh hreceipts hlog hpublishing =>
    rw [hreceipts] at he'
    rw [hlog]
    rcases ReceiptRegistry.lookup_of_remember he' with ⟨rfl, rfl⟩ | ⟨-, he⟩
    · -- a fresh hash was never sent
      exact (List.count_eq_zero.2 fun hsent => hfresh (hknown.sent _ hsent)).symm
    · exact hcounted r e' he
  | offline rhash hrhash hreceipts hlog hpublishing =>
    rw [hreceipts] at he'
    obtain ⟨e, he, hsame⟩ := sendCount_of_apply (.recordAttempt rhash) rfl (by simp) he'
    rw [hsame, hcounted r e he, hlog]
  | began rhash hrhash hbegins hreceipts hlog hpublishing =>
    rw [hreceipts] at he'
    obtain ⟨e, he, hsame⟩ := sendCount_of_apply (.recordAttempt rhash) rfl (by simp) he'
    rw [hsame, hcounted r e he, hlog]
  | succeeded rhash hrhash hreceipts hlog hpublishing =>
    rw [hreceipts] at he'
    rw [hlog]
    show e'.sendCount = (s.log.sent ++ [rhash]).count r
    rw [List.count_append, List.count_singleton]
    by_cases hr : r = rhash
    · -- the send is counted, or was the last and the entry is gone
      subst hr
      rw [ReceiptRegistry.lookup_recordSend_self, Option.bind_eq_some_iff] at he'
      obtain ⟨e, he, he'⟩ := he'
      split at he'
      · cases he'
      · obtain rfl := Option.some.inj he'
        rw [ReceiptEntry.sendCount_sent, hcounted r e he]
        simp
    · rw [ReceiptRegistry.lookup_recordSend_of_ne _ _ hr] at he'
      rw [hcounted r e' he']
      simp [Ne.symm hr]

/-- What the sends of a receipt and its publishes under way add up to. -/
structure SendsInv (s : Courier) : Prop where
  known : KnownInv s
  counted : Counted s
  bounded : ∀ r, s.log.sent.count r + s.publishing r ≤ scheduledSends

theorem sendsInv_step (hinv : SendsInv s) (hroom : LeavesRoom s a) (h : s.step a = some s') :
    SendsInv s' := by
  refine ⟨knownInv_step hinv.known h, counted_step hinv.known hinv.counted h, fun r => ?_⟩
  have hbounded := hinv.bounded r
  cases step_effect h with
  | quiet op hop hreceipts hlog hpublishing =>
    rw [hlog]
    exact (Nat.add_le_add_left (hpublishing r) _).trans hbounded
  | remembered rhash payerPubkey requestEventId expiresAt hfresh hreceipts hlog hpublishing =>
    rw [hlog, hpublishing]
    exact hbounded
  | offline rhash hrhash hreceipts hlog hpublishing =>
    rw [hlog]
    exact (Nat.add_le_add_left (hpublishing r) _).trans hbounded
  | began rhash hrhash hbegins hreceipts hlog hpublishing =>
    rw [hlog]
    show s.log.sent.count r + s'.publishing r ≤ scheduledSends
    have hless := hpublishing r
    by_cases hr : r = rhash
    · -- the entry counts every send so far, so its room is the room of the log
      subst hr
      obtain ⟨e, he, hlt⟩ := hroom r hbegins
      rw [hinv.counted r e he] at hlt
      rw [if_pos rfl] at hless
      omega
    · rw [if_neg hr] at hless
      omega
  | succeeded rhash hrhash hreceipts hlog hpublishing =>
    rw [hlog]
    show (s.log.sent ++ [rhash]).count r + s'.publishing r ≤ scheduledSends
    -- the send takes the place of the publish that ended
    rw [← hpublishing r] at hbounded
    rw [List.count_append, List.count_singleton]
    by_cases hr : r = rhash
    · subst hr
      simp only [if_true, beq_self_eq_true] at hbounded ⊢
      omega
    · simp only [hr, Ne.symm hr, beq_iff_eq, if_false] at hbounded ⊢
      omega

/-- In every run whose publishes begin with room, at most seven publishes of a receipt succeed. -/
theorem sent_at_most_seven_times {now : Time} {s : Courier}
    (hrun : Reachable LeavesRoom (start now) s) (rhash : PaymentHash) :
    s.log.sent.count rhash ≤ resendOffsetsSec.length + 1 := by
  have hinv : SendsInv s := by
    refine hrun.invariant ⟨knownInv_start now, ?_, ?_⟩ fun _ _ _ hinv hroom h =>
      sendsInv_step hinv hroom h
    · simp [Counted, start, ReceiptRegistry.empty, ReceiptRegistry.lookup]
    · simp [start, publishing]
  exact (Nat.le_add_right _ _).trans (hinv.bounded rhash)

/-- A receipt that is delivered once. -/
theorem sent_at_most_seven_times_once :
    ∃ s, Reachable LeavesRoom (start 0) s ∧ s.log.sent = ["r"] ∧
      s.log.sent.count "r" ≤ resendOffsetsSec.length + 1 := by
  have hrun : (Transition.exec (Transition.guarded step LeavesRoom) (start 0)
      [.remember "r" "p" "q" 100, .connect, .paid "r", .deliver 0, .publishOk 0 false]).any
        (fun s => decide (s.log.sent = ["r"])) = true := by
    decide +kernel
  obtain ⟨s, hexec, hsent⟩ := (Option.any_eq_true _ _).1 hrun
  have hreach := Transition.reachable_of_exec_guarded hexec
  exact ⟨s, hreach, of_decide_eq_true hsent, sent_at_most_seven_times hreach "r"⟩

/-- One payment, announced eight times. -/
def duplicateNotifications : List Action :=
  [.remember "r" "p" "q" 100, .connect] ++ List.replicate 8 (.paid "r") ++
    List.replicate 8 (.deliver 0) ++ List.replicate 8 (.publishOk 0 false)

/-- When a payment is announced eight times before the first delivery has published, the receipt is
sent eight times. -/
theorem duplicate_notifications_overrun :
    ∃ s, Reachable (fun _ _ => True) (start 0) s ∧
      resendOffsetsSec.length + 1 < s.log.sent.count "r" := by
  have hrun : (Transition.exec step (start 0) duplicateNotifications).any (fun s =>
      decide (resendOffsetsSec.length + 1 < s.log.sent.count "r")) = true := by
    decide +kernel
  obtain ⟨s, hexec, hsent⟩ := (Option.any_eq_true _ _).1 hrun
  exact ⟨s, Transition.reachable_of_exec hexec, of_decide_eq_true hsent⟩

end ElectrumClink.Courier
