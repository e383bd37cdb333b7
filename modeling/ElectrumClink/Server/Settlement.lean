import ElectrumClink.Server.Steps

/-!
# Payments and the redelivery tick

A tick sweeps the registry by expiry and the wallet requests behind the dropped entries by payment
status. The registry learns of a payment only through PR_PAID notifications, and a stopped server
has unregistered its callbacks, so the two stores can disagree about a settled invoice.

`SettlementInv` says how they relate in every reachable state: of the registered invoices, exactly
those whose PR_PAID notification reached a running server are owed a receipt.
`tick_keeps_paid_iff` draws the consequence: the ticks that keep every paid or in-flight invoice
registered are those at which no such invoice has missed its notification and is past its expiry.
-/

namespace ElectrumClink.World

variable {env : Env} {w w' : World} {a : Action}

/-- What relates the registry, the wallet and the notifications in every reachable state. -/
structure SettlementInv (w : World) : Prop where
  drawn : ∀ k ∈ w.server.receipts.pending, k ∈ w.history.created
  lightning : ∀ k request, k ∈ w.history.created →
    w.server.wallet.requests.get? k = some request → request.isLightning = true
  notified : ∀ k e, w.server.receipts.lookup k = some e → e.due = true →
    k ∈ w.history.notified
  due : ∀ k e, w.server.receipts.lookup k = some e → k ∈ w.history.notified →
    k ∈ w.server.wallet.requests → e.due = true

theorem notified_mono (h : step env w a = some w') {k : PaymentHash}
    (hk : k ∈ w.history.notified) : k ∈ w'.history.notified := by
  rcases notified_step h with hsame | ⟨rhash, -, -, happend⟩
  · rwa [hsame]
  · rw [happend]
    exact List.mem_append_left _ hk

/-- What is registered after a step was registered before, with the same `due` flag unless its
notification arrived, or is a fresh invoice awaiting payment. -/
theorem lookup_step (h : step env w a = some w') {k : PaymentHash} {e' : ReceiptEntry}
    (he' : w'.server.receipts.lookup k = some e') :
    (∃ e, w.server.receipts.lookup k = some e ∧
      (e'.due = e.due ∨ e'.due = true ∧ a = .requestPaid k ∧ w.running = true)) ∨
    (w.FreshHash k ∧ e'.due = false ∧ ∃ event calls, a = .dispatch event calls) := by
  rcases receipts_step h with ⟨op, hop, hpaid, hreceipts⟩ |
    ⟨event, calls, rhash, rfl, -, hfresh, -, -, hreceipts⟩
  · rw [hreceipts] at he'
    rcases ReceiptRegistry.lookup_apply he' with ⟨_, _, _, rfl, -⟩ | ⟨-, e, he, hchange⟩
    · cases hop
    · refine .inl ⟨e, he, ?_⟩
      rcases hchange with rfl | ⟨rfl, -, rfl⟩ | ⟨-, rfl⟩ | ⟨-, -, rfl⟩
      · exact .inl rfl
      · exact .inr ⟨rfl, hpaid k rfl⟩
      · exact .inl rfl
      · exact .inl (e.sent_fields w.now).2.2.2.1
  · rw [hreceipts] at he'
    rcases ReceiptRegistry.lookup_of_remember he' with ⟨rfl, rfl⟩ | ⟨-, he⟩
    · exact .inr ⟨hfresh, rfl, event, calls, rfl⟩
    · exact .inl ⟨e', he, .inl rfl⟩

/-- The announcement that reaches a running server leaves the announced invoice owed, if it is
registered and its request is in the wallet. -/
theorem due_of_requestPaid (hinv : SettlementInv w) (hrunning : w.running = true)
    {k : PaymentHash} (h : step env w (.requestPaid k) = some w') {e' : ReceiptEntry}
    (he' : w'.server.receipts.lookup k = some e') (hrequest : k ∈ w'.server.wallet.requests) :
    e'.due = true := by
  obtain ⟨e, he, -⟩ | ⟨-, -, _, _, hdispatch⟩ := lookup_step h he'
  · obtain ⟨request', hrequest'⟩ := Dict.mem_iff_exists_get?.1 hrequest
    obtain ⟨request, hget, -⟩ | ⟨_, _, hdispatch, -⟩ := request_step h hrequest'
    · have hlightning := hinv.lightning k request (hinv.drawn k (Dict.mem_of_get? he)) hget
      obtain ⟨-, rfl⟩ := step_eq_some_iff.1 h
      rcases perform_requestPaid env w k with ⟨hnot, -⟩ | ⟨-, hnot, -⟩ | ⟨-, -, devfee, heq⟩
      · cases hnot.symm.trans hrunning
      · simp [hget, hlightning] at hnot
      · rw [heq] at he'
        have he' : (w.server.receipts.markDue w.now k).2.lookup k = some e' := he'
        rw [ReceiptRegistry.lookup_markDue_self, he, Option.map_some, Option.some.injEq] at he'
        rw [← he']
        split
        · rfl
        next hdue => simpa using hdue
    · cases hdispatch
  · cases hdispatch

theorem settlementInv_step (hinv : SettlementInv w) (h : step env w a = some w') :
    SettlementInv w' where
  drawn := drawn_step hinv.drawn h
  lightning k request' hk hrequest' := by
    rcases request_step h hrequest' with ⟨request, hget, hlightning, -⟩ |
      ⟨_, _, -, -, -, hlightning, -⟩
    · rw [hlightning]
      refine hinv.lightning k request ?_ hget
      -- a hash drawn by this step is fresh, so it has no request yet
      by_contra hnot
      rcases (mem_created_step h).1 hk with hold | ⟨_, _, -, -, hfresh⟩
      · exact hnot hold
      · exact hfresh.requests (Dict.mem_of_get? hget)
    · exact hlightning
  notified k e' he' hdue := by
    rcases lookup_step h he' with ⟨e, he, hsame | ⟨-, rfl, hrunning⟩⟩ | ⟨-, hnot, -⟩
    · exact notified_mono h (hinv.notified k e he (hsame ▸ hdue))
    · rcases notified_step h with hsame | ⟨r, ha, -, happend⟩
      · obtain ⟨-, rfl⟩ := step_eq_some_iff.1 h
        simp [perform, hrunning] at hsame
      · obtain rfl := Action.requestPaid.inj ha
        rw [happend]
        exact List.mem_append_right _ (List.mem_singleton_self _)
    · cases hdue.symm.trans hnot
  due k e' he' hnotified hrequest := by
    by_cases hpaid : a = .requestPaid k ∧ w.running = true
    · obtain ⟨rfl, hrunning⟩ := hpaid
      exact due_of_requestPaid hinv hrunning h he' hrequest
    · -- otherwise the notification of `k` is an old one
      have hold : k ∈ w.history.notified := by
        rcases notified_step h with hsame | ⟨rhash, rfl, hrunning, happend⟩
        · rwa [← hsame]
        · rw [happend, List.mem_append, List.mem_singleton] at hnotified
          rcases hnotified with hold | rfl
          · exact hold
          · exact absurd ⟨rfl, hrunning⟩ hpaid
      rcases lookup_step h he' with ⟨e, he, hsame | ⟨hdue, -⟩⟩ | ⟨hfresh, -⟩
      · rw [hsame]
        refine hinv.due k e he hold ?_
        obtain ⟨request', hrequest'⟩ := Dict.mem_iff_exists_get?.1 hrequest
        rcases request_step h hrequest' with ⟨request, hget, -⟩ | ⟨_, _, -, -, hfresh, -⟩
        · exact Dict.mem_of_get? hget
        · exact absurd (hinv.drawn k (Dict.mem_of_get? he)) hfresh.created
      · exact hdue
      · exact absurd hold hfresh.notified

/-- The wallet has received the payment of an invoice, or is receiving it. -/
def PaidOrInFlight (w : World) (rhash : PaymentHash) : Prop :=
  w.server.wallet.statusOf rhash = some .paid ∨ w.server.wallet.statusOf rhash = some .inflight

/-- From `w` to `w'` no un-owed entry of a paid or in-flight invoice is dropped. -/
def KeepsPaid (w w' : World) : Prop :=
  ∀ rhash e, w.server.receipts.lookup rhash = some e → e.due = false → w.PaidOrInFlight rhash →
    rhash ∈ w'.server.receipts.pending

/-- In every run from an empty registry, a redelivery tick keeps the un-owed entries of paid and
in-flight invoices exactly when each such invoice whose PR_PAID notification has not reached a
running server is still within its expiry. -/
theorem tick_keeps_paid_iff {env : Env} {t : Time} {running : Bool} {server : ClinkServer}
    {w w' : World} {calls : Calls} (hempty : server.receipts = .empty)
    (hrun : Reachable env (fun _ _ => True) (start t running server) w)
    (htick : step env w (.redeliver calls) = some w') :
    KeepsPaid w w' ↔
      ∀ rhash e, w.server.receipts.lookup rhash = some e → rhash ∉ w.history.notified →
        w.PaidOrInFlight rhash → w.now < e.expiresAt := by
  have hinv : SettlementInv w := by
    refine hrun.invariant ⟨?_, ?_, ?_, ?_⟩ fun _ _ _ hinv _ h => settlementInv_step hinv h
    · simp [start, hempty, ReceiptRegistry.empty]
    · simp [start, History.empty]
    · simp [start, hempty, ReceiptRegistry.empty, ReceiptRegistry.lookup]
    · simp [start, hempty, ReceiptRegistry.empty, ReceiptRegistry.lookup]
  have hswept : ∀ rhash, rhash ∈ w'.server.receipts.pending ↔
      ∃ e, w.server.receipts.lookup rhash = some e ∧ e.keep w.now = true := by
    obtain ⟨-, rfl⟩ := step_eq_some_iff.1 htick
    exact fun rhash => Dict.mem_filter
  have hrequest : ∀ rhash, w.PaidOrInFlight rhash → rhash ∈ w.server.wallet.requests := by
    rintro rhash (hstatus | hstatus)
    all_goals
      obtain ⟨request, hget, -⟩ := Option.map_eq_some_iff.1 hstatus
      exact Dict.mem_of_get? hget
  constructor
  · -- an invoice whose notification was missed is un-owed, and a tick keeps it by its expiry
    intro hkeeps rhash e he hmissed hpaid
    have hdue : e.due = false := by
      by_contra hdue
      exact hmissed (hinv.notified rhash e he (by simpa using hdue))
    obtain ⟨e', he', hkeep⟩ := (hswept rhash).1 (hkeeps rhash e he hdue hpaid)
    obtain rfl := Option.some.inj (he.symm.trans he')
    simpa [ReceiptEntry.keep, hdue] using hkeep
  · -- an un-owed entry means that the notification was missed
    intro hwithin rhash e he hdue hpaid
    have hmissed : rhash ∉ w.history.notified := fun hnotified =>
      Bool.false_ne_true (hdue.symm.trans (hinv.due rhash e he hnotified (hrequest rhash hpaid)))
    refine (hswept rhash).2 ⟨e, he, ?_⟩
    simpa [ReceiptEntry.keep, hdue] using hwithin rhash e he hmissed hpaid

/-- A tick right after a settlement, before its notification. -/
theorem tick_keeps_paid_before_expiry :
    let w := ((start 0 true (.sample 150 10)).perform .sample
      (.dispatch (.sample "e" 0) (.succeeding "r"))).perform .sample (.settle "r")
    KeepsPaid w (w.perform .sample (.redeliver (.succeeding "q"))) := by
  intro w
  have hissue : step .sample (start 0 true (.sample 150 10))
      (.dispatch (.sample "e" 0) (.succeeding "r")) = some _ :=
    step_eq_some_iff.2 ⟨by decide +kernel, rfl⟩
  have hsettle : step .sample ((start 0 true (.sample 150 10)).perform .sample
      (.dispatch (.sample "e" 0) (.succeeding "r"))) (.settle "r") = some w :=
    step_eq_some_iff.2 ⟨by decide +kernel, rfl⟩
  have htick : step .sample w (.redeliver (.succeeding "q")) = some _ :=
    step_eq_some_iff.2 ⟨by decide +kernel, rfl⟩
  refine (tick_keeps_paid_iff rfl (.next (.next .init trivial hissue) trivial hsettle)
    htick).2 fun rhash e he _ _ => ?_
  have hall : ∀ p ∈ w.server.receipts.pending.entries, w.now < p.2.expiresAt := by
    decide +kernel
  exact hall _ (Dict.get?_eq_some_iff.1 he)

/-- An invoice issued for ten seconds is paid while the server is stopped, and its server starts
again after the expiry. -/
def missedSettlement : List Action :=
  [.dispatch (.sample "e" 0) (.succeeding "r"), .stop, .advance 5, .settle "r", .requestPaid "r",
    .advance 20, .start OfferStore.empty]

/-- The first tick after a missed settlement drops the entry of the paid invoice. -/
theorem missed_settlement_dropped :
    ∃ w w', Reachable .sample (fun _ _ => True) (start 0 true (.sample 150 10)) w ∧
      step .sample w (.redeliver (.succeeding "q")) = some w' ∧ ¬ KeepsPaid w w' := by
  have hrun : (Transition.exec (step .sample) (start 0 true (.sample 150 10))
      missedSettlement).any (fun w =>
        decide (w.Enabled (.redeliver (.succeeding "q"))) &&
        decide (w.server.wallet.statusOf "r" = some .paid) &&
        (w.server.receipts.lookup "r").any (fun e => !e.due) &&
        decide ("r" ∉ (w.perform .sample
          (.redeliver (.succeeding "q"))).server.receipts.pending)) = true := by
    decide +kernel
  obtain ⟨w, hexec, hfacts⟩ := (Option.any_eq_true _ _).1 hrun
  simp only [Bool.and_eq_true, decide_eq_true_eq] at hfacts
  obtain ⟨⟨⟨henabled, hpaid⟩, hunowed⟩, hdropped⟩ := hfacts
  obtain ⟨e, he, hdue⟩ := (Option.any_eq_true _ _).1 hunowed
  exact ⟨w, _, Transition.reachable_of_exec hexec, step_eq_some_iff.2 ⟨henabled, rfl⟩,
    fun hkeeps => hdropped (hkeeps "r" e he (by simpa using hdue) (.inl hpaid))⟩

end ElectrumClink.World
