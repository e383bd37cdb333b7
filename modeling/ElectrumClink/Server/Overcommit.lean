import ElectrumClink.Server.Steps

/-!
# Liquidity within one session

An invoice handed to a payer is backed by a reservation until it is paid or expires. The receivable
capacity falls when an invoice settles, which is at or before the PR_PAID notification that releases
its reservation, so in between the amount is counted twice and never too little.

`LiquidityInv` relates reservations, handed-out invoices and capacity in every state of a session.
`outstanding_le_capacity` reads off that the outstanding invoices fit into the capacity, provided
that a settlement takes its amount from the capacity while its reservation is recorded. The
reservation of an invoice that settles after its expiry may be gone, and
`late_settlement_overcommits` shows what happens then.
-/

namespace ElectrumClink

theorem Wallet.setStatus_lnworker (w : Wallet) (rhash : PaymentHash) (status : InvoiceStatus) :
    (w.setStatus rhash status).lnworker = w.lnworker := by
  unfold setStatus
  split <;> rfl

namespace ClinkServer

/-! ## What a dispatch does to the liquidity -/

/-- What answering an event does to the reservations and to the invoices handed out: nothing but
dropping expired reservations, or locking the amount of one new invoice. -/
inductive LiquidityChange (calls : Calls) (now : Time) (s : ClinkServer) :
    Option Bolt11 → LiquidityReserver → Prop
  | lapsed {reserver : LiquidityReserver} (hlapses : s.reserver.Lapses now reserver) :
      LiquidityChange calls now s none reserver
  | locked (bolt11 : Bolt11) (handed : Option Bolt11)
      (hcreated : calls.createRequest = some bolt11.paymentHash)
      (hfits : s.Fits now bolt11.amountSat) (hhanded : handed = none ∨ handed = some bolt11) :
      LiquidityChange calls now s handed (s.withReservation now bolt11).reserver

/-- A response other than an invoice hands nothing out. -/
theorem handedOut_sendResponse (s : ClinkServer) (calls : Calls) (selftest : Bool)
    {payload : Payload} (h : ∀ bolt11, payload ≠ .success bolt11) :
    World.handedOut selftest (some (s.sendResponse calls payload)) = none := by
  cases payload with
  | success bolt11 => exact absurd rfl (h bolt11)
  | _ => rfl

/-- A self-test's reservation is gone once it is unwound. -/
theorem lapses_unwindSelftest {now : Time} {s : ClinkServer} {bolt11 : Bolt11}
    {offer : Option Offer} {amountSat : ℤ}
    (hfresh : bolt11.paymentHash ∉ s.reserver.reservations) :
    s.reserver.Lapses now (((s.withRequest bolt11).withReservation now bolt11).unwindSelftest now
      offer amountSat bolt11.paymentHash).reserver := by
  rw [unwindSelftest_reserver]
  -- releasing the new hash undoes the lock, and the sweep before it stays
  have hother : ∀ k, k ≠ bolt11.paymentHash →
      ((((s.withRequest bolt11).withReservation now bolt11).reserver.release
        bolt11.paymentHash).reservations.get? k) = (s.reserver.sweep now).reservations.get? k := by
    intro k hk
    rw [LiquidityReserver.get?_release_of_ne _ hk]
    exact Dict.get?_set_of_ne _ hk _
  refine ⟨fun k res hget => ?_, fun k res hget hlive => ?_⟩
  · have hk : k ≠ bolt11.paymentHash := by
      rintro rfl
      rw [LiquidityReserver.get?_release_self] at hget
      cases hget
    rw [hother k hk] at hget
    exact (LiquidityReserver.get?_sweep.1 hget).1
  · have hk : k ≠ bolt11.paymentHash := by
      rintro rfl
      exact hfresh (Dict.mem_of_get? hget)
    rw [hother k hk]
    exact LiquidityReserver.get?_sweep.2 ⟨hget, hlive⟩

/-- What happens after the replay guard happens to the unswept state, too. -/
theorem LiquidityChange.of_gated {calls : Calls} {now : Time} {event : Event} {s : ClinkServer}
    {handed : Option Bolt11} {reserver : LiquidityReserver}
    (h : LiquidityChange calls now (s.gated now event) handed reserver) :
    LiquidityChange calls now s handed reserver := by
  cases h with
  | lapsed hlapses => exact .lapsed ((s.reserver.lapses_sweep now).trans hlapses)
  | locked bolt11 handed hcreated hfits hhanded =>
    have hlocked : ((s.gated now event).withReservation now bolt11).reserver =
        (s.withReservation now bolt11).reserver := by
      simp only [withReservation, gated_reserver, LiquidityReserver.sweep_sweep]
    have hfits' : s.Fits now bolt11.amountSat := by
      simpa only [Fits, LiquidityReserver.reservedSat, gated_reserver, gated_capacity,
        LiquidityReserver.sweep_sweep] using hfits
    rw [hlocked]
    exact .locked bolt11 handed hcreated hfits' hhanded

/-- Issuing an invoice locks its amount, or leaves no trace among the reservations. -/
theorem issueInvoice_liquidity (env : Env) {calls : Calls} (now : Time) (event : Event)
    (offer : Option Offer) (amountSat : ℤ) (description : Option String) (selftest : Bool)
    {s : ClinkServer}
    (hfresh : ∀ rhash ∈ calls.createRequest, rhash ∉ s.reserver.reservations) :
    LiquidityChange calls now s
      (World.handedOut selftest
        (some (issueInvoice env calls now event offer amountSat description selftest s).1))
      (issueInvoice env calls now event offer amountSat description selftest s).2.reserver := by
  have hout := issueInvoice_outcome env calls now event offer amountSat description selftest s
  generalize issueInvoice env calls now event offer amountSat description selftest s = result
    at hout ⊢
  cases hout with
  | notCreated =>
    rw [handedOut_sendResponse s calls selftest (by simp [errorPayload])]
    exact .lapsed (.refl now s.reserver)
  | failed =>
    rw [handedOut_sendResponse s calls selftest (by simp [errorPayload]), withRequest_reserver]
    exact .lapsed (.refl now s.reserver)
  | lostRace =>
    rw [handedOut_sendResponse s calls selftest (by simp [invalidAmountPayload]),
      cancelled_reserver, withRequest_reserver]
    exact .lapsed (s.reserver.lapses_sweep now)
  | issued bolt11 hnew hanswered hfits hselftest =>
    subst hselftest
    rw [rememberInvoice_reserver]
    exact .locked bolt11 _ hnew.created (hnew.amount ▸ hfits) (.inr rfl)
  | selftestRaised bolt11 hnew hanswered hfits hselftest =>
    subst hselftest
    exact .locked bolt11 _ hnew.created (hnew.amount ▸ hfits) (.inl rfl)
  | selftestUnwound bolt11 hnew hanswered hfits hselftest =>
    subst hselftest
    exact .lapsed (lapses_unwindSelftest (hfresh _ hnew.created))

/-- A dispatch locks the amount of one invoice, or at most drops expired reservations. -/
theorem dispatch_liquidity (env : Env) {calls : Calls} (now : Time) (event : Event)
    {s : ClinkServer} (hfresh : ∀ rhash ∈ calls.createRequest, rhash ∉ s.reserver.reservations) :
    LiquidityChange calls now s
      (World.handedOut (s.isSelftestPayer now event.pubkey).1 (s.dispatch env calls now event).1)
      (s.dispatch env calls now event).2.reserver := by
  have hdispatch := dispatch_outcome env calls now event s
  generalize s.dispatch env calls now event = result at hdispatch ⊢
  cases hdispatch with
  | dropped => exact .lapsed (.refl now s.reserver)
  | refused req payload offerId amount result haccepts herror =>
    rw [handedOut_sendResponse _ calls _ herror, record_reserver, gated_reserver]
    exact .lapsed (s.reserver.lapses_sweep now)
  | issuing req offer amountSat description reply s' haccepts hamount hcap hissue =>
    have hfresh' : ∀ rhash ∈ calls.createRequest,
        rhash ∉ (s.gated now event).reserver.reservations := by
      intro rhash hcreated hmem
      obtain ⟨res, hres⟩ := Dict.mem_iff_exists_get?.1 hmem
      rw [gated_reserver] at hres
      exact hfresh rhash hcreated
        (Dict.mem_of_get? ((s.reserver.lapses_sweep now).subset _ _ hres))
    have hchange := issueInvoice_liquidity env now event offer amountSat description
      (s.isSelftestPayer now event.pubkey).1 hfresh'
    rw [hissue] at hchange
    exact hchange.of_gated

/-- A dispatch leaves the channels alone. -/
theorem dispatch_lnworker (env : Env) (calls : Calls) (now : Time) (event : Event)
    (s : ClinkServer) :
    (s.dispatch env calls now event).2.wallet.lnworker = s.wallet.lnworker := by
  have hdispatch := dispatch_outcome env calls now event s
  generalize s.dispatch env calls now event = result at hdispatch ⊢
  cases hdispatch with
  | dropped => rfl
  | refused => simp only [record_wallet, gated_wallet]
  | issuing req offer amountSat description reply s' haccepts hamount hcap hissue =>
    have hkept := (issueInvoice_keeps env calls now event offer amountSat description
      (s.isSelftestPayer now event.pubkey).1 (s.gated now event)).lnworker
    rwa [hissue, gated_wallet] at hkept

end ClinkServer

namespace World

variable {env : Env} {w w' : World} {a : Action}

/-! ## Sessions -/

/-- The total of the invoices handed to payers that are neither settled nor expired. -/
def outstandingSat (w : World) : ℤ :=
  w.history.issued.sum fun rhash bolt11 =>
    if rhash ∉ w.history.settled ∧ w.now < bolt11.expiresAt then bolt11.amountSat else 0

/-- The receivable capacity falls on account of a settled invoice, once, by at most its amount and
no later than its PR_PAID notification. -/
structure SettledFall (w : World) (lnworker : Option ℤ) (rhash : PaymentHash) (amountSat : ℤ) :
    Prop where
  settled : rhash ∈ w.history.settled
  notFallen : rhash ∉ w.history.fallen
  notNotified : rhash ∉ w.history.notified
  bound : w.server.capacity - amountSat ≤ receivableCapacitySat lnworker

/-- The steps of one server session in which the capacity falls only on account of settled
invoices. `amountOf` says which invoices these can be, and for how much each one accounts. -/
def LiquiditySession (amountOf : World → PaymentHash → Option ℤ) (w : World) : Action → Prop
  | .start _ => False
  | .capacity lnworker none => w.server.capacity ≤ receivableCapacitySat lnworker
  | .capacity lnworker (some rhash) =>
    ∃ amountSat, amountOf w rhash = some amountSat ∧ w.SettledFall lnworker rhash amountSat
  | _ => True

/-- The amount of an invoice handed to a payer. -/
def issuedAmount (w : World) (rhash : PaymentHash) : Option ℤ :=
  (w.history.issued.get? rhash).map Bolt11.amountSat

/-- The amount locked for an invoice, while its reservation is recorded. -/
def lockedAmount (w : World) (rhash : PaymentHash) : Option ℤ :=
  (w.server.reserver.reservations.get? rhash).map Reservation.amountSat

/-- The locked amounts that have not left the capacity yet. -/
def backingSat (w : World) : ℤ :=
  w.server.reserver.reservations.sum fun rhash res =>
    if rhash ∈ w.history.fallen then 0 else res.amountSat

/-- What relates reservations, invoices and capacity in every state of a session. -/
structure LiquidityInv (w : World) : Prop where
  locksDrawn : ∀ k ∈ w.server.reserver.reservations, k ∈ w.history.created
  issuedDrawn : ∀ k ∈ w.history.issued, k ∈ w.history.created
  paid : ∀ k ∈ w.history.created, w.server.wallet.statusOf k = some .paid →
    k ∈ w.history.settled
  fallen : ∀ k ∈ w.history.fallen, k ∈ w.history.settled
  nonneg : ∀ k res, w.server.reserver.reservations.get? k = some res → 0 ≤ res.amountSat
  locked : ∀ k bolt11, w.history.issued.get? k = some bolt11 → k ∉ w.history.settled →
    w.now < bolt11.expiresAt →
    w.server.reserver.reservations.get? k = some ⟨k, bolt11.amountSat, bolt11.expiresAt⟩
  covered : w.backingSat ≤ w.server.capacity

/-- In a state that meets the invariant, the outstanding invoices fit into the capacity. -/
theorem LiquidityInv.outstanding_le (hinv : LiquidityInv w) :
    w.outstandingSat ≤ w.server.capacity := by
  -- every outstanding invoice finds its own lock among those that back the capacity
  refine le_trans (Dict.sum_le_sum (fun k res hres => ?_) fun k bolt11 hbolt11 => ?_) hinv.covered
  · split
    · exact le_rfl
    · exact hinv.nonneg k res hres
  · by_cases hopen : k ∉ w.history.settled ∧ w.now < bolt11.expiresAt
    · have hlocked := hinv.locked k bolt11 hbolt11 hopen.1 hopen.2
      -- an invoice that is not settled has not left the capacity
      have hbacked : k ∉ w.history.fallen := fun hfallen => hopen.1 (hinv.fallen k hfallen)
      exact .inr ⟨_, hlocked, by simp [hopen, hbacked]⟩
    · exact .inl (if_neg hopen)

/-! ## One step of a session -/

theorem settled_step (h : step env w a = some w') {k : PaymentHash} :
    k ∈ w'.history.settled ↔ k ∈ w.history.settled ∨ a = .settle k := by
  obtain ⟨-, rfl⟩ := step_eq_some_iff.1 h
  cases a with
  | settle rhash =>
    show k ∈ w.history.settled ++ [rhash] ↔ _
    rw [List.mem_append, List.mem_singleton, Action.settle.injEq, eq_comm (a := k)]
  | requestPaid rhash =>
    rcases perform_requestPaid env w rhash with ⟨-, heq⟩ | ⟨-, -, heq⟩ | ⟨-, -, devfee, heq⟩
    all_goals
      rw [heq]
      simp [notified]
  | _ => simp [perform, withServer, withWallet, withReceipts, afterDispatch, recordDispatch]

/-- Within a session a reservation is dropped once it has expired or its invoice is announced as
paid, and added only for a fresh hash that fits; an invoice is handed out only with one. -/
theorem reserver_step (hsession : ∀ offers, a ≠ .start offers)
    (hdrawn : ∀ k ∈ w.server.reserver.reservations, k ∈ w.history.created)
    (h : step env w a = some w') :
    (w'.history.issued = w.history.issued ∧
      (∀ k res, w'.server.reserver.reservations.get? k = some res →
        w.server.reserver.reservations.get? k = some res) ∧
      (∀ k res, w.server.reserver.reservations.get? k = some res → w.now < res.expiresAt →
        w'.server.reserver.reservations.get? k = some res ∨
          (a = .requestPaid k ∧ k ∈ w.server.wallet.requests))) ∨
    ∃ event calls bolt11, a = .dispatch event calls ∧
      calls.createRequest = some bolt11.paymentHash ∧ w.FreshHash bolt11.paymentHash ∧
      w.server.Fits w.now bolt11.amountSat ∧
      w'.server.reserver = (w.server.withReservation w.now bolt11).reserver ∧
      (w'.history.issued = w.history.issued ∨
        w'.history.issued = w.history.issued.set bolt11.paymentHash bolt11) := by
  obtain ⟨henabled, rfl⟩ := step_eq_some_iff.1 h
  cases a with
  | dispatch event calls =>
    -- a fresh payment hash is none of those with a reservation
    have hchange := ClinkServer.dispatch_liquidity env w.now event (s := w.server)
      fun rhash hcreated hmem => (henabled.2 rhash hcreated).created (hdrawn rhash hmem)
    have hissued : (w.perform env (.dispatch event calls)).history.issued =
        (handedOut (w.server.isSelftestPayer w.now event.pubkey).1
          (w.server.dispatch env calls w.now event).1).elim w.history.issued fun bolt11 =>
            w.history.issued.set bolt11.paymentHash bolt11 :=
      recordDispatch_issued _ _ _ _ _ _
    have hreserver : (w.perform env (.dispatch event calls)).server.reserver =
        (w.server.dispatch env calls w.now event).2.reserver := rfl
    generalize handedOut (w.server.isSelftestPayer w.now event.pubkey).1
      (w.server.dispatch env calls w.now event).1 = handed at hchange hissued
    generalize (w.server.dispatch env calls w.now event).2.reserver = reserver
      at hchange hreserver
    cases hchange with
    | lapsed hlapses =>
      rw [hreserver]
      exact .inl ⟨hissued, hlapses.subset, fun k res hk hlive => .inl (hlapses.kept k res hk hlive)⟩
    | locked bolt11 handed hcreated hfits hkind =>
      refine .inr ⟨event, calls, bolt11, rfl, hcreated, henabled.2 _ hcreated, hfits,
        hreserver, ?_⟩
      rcases hkind with rfl | rfl
      · exact .inl hissued
      · exact .inr hissued
  | start offers => exact absurd rfl (hsession offers)
  | requestPaid rhash =>
    rcases perform_requestPaid env w rhash with ⟨-, heq⟩ | ⟨-, -, heq⟩ |
      ⟨-, hlightning, devfee, heq⟩
    · rw [heq]
      exact .inl ⟨rfl, fun _ _ h => h, fun _ _ h _ => .inl h⟩
    · rw [heq]
      exact .inl ⟨rfl, fun _ _ h => h, fun _ _ h _ => .inl h⟩
    · have hmem : rhash ∈ w.server.wallet.requests := by
        obtain ⟨request, hget, -⟩ := (Option.any_eq_true _ _).1 hlightning
        exact Dict.mem_of_get? hget
      rw [heq]
      refine .inl ⟨rfl, fun k res hk => Dict.get?_of_get?_erase hk, fun k res hk _ => ?_⟩
      by_cases hkr : k = rhash
      · exact .inr ⟨congrArg Action.requestPaid hkr.symm, hkr ▸ hmem⟩
      · exact .inl ((LiquidityReserver.get?_release_of_ne _ hkr).trans hk)
  | _ => exact .inl ⟨rfl, fun _ _ h => h, fun _ _ h _ => .inl h⟩

/-- A reservation of a session is an earlier one, or locks a positive amount for a hash that was
drawn since. -/
theorem lock_step (hsession : ∀ offers, a ≠ .start offers)
    (hdrawn : ∀ k ∈ w.server.reserver.reservations, k ∈ w.history.created)
    (h : step env w a = some w') {k : PaymentHash} {res : Reservation}
    (hres : w'.server.reserver.reservations.get? k = some res) :
    w.server.reserver.reservations.get? k = some res ∨
      (k ∈ w'.history.created ∧ 0 < res.amountSat) := by
  rcases reserver_step hsession hdrawn h with ⟨-, hsubset, -⟩ |
    ⟨event, calls, bolt11, rfl, hcreated, hfresh, hfits, hreserver, -⟩
  · exact .inl (hsubset k res hres)
  · rw [hreserver, ClinkServer.withReservation, Dict.get?_set] at hres
    split at hres
    next hk =>
      obtain rfl := Option.some.inj hres
      exact .inr ⟨(mem_created_step h).2 (.inr ⟨event, calls, rfl, hk ▸ hcreated, hk ▸ hfresh⟩),
        hfits.1⟩
    next => exact .inl ((w.server.reserver.lapses_sweep w.now).subset k res hres)

/-- Only a change of the capacity changes the capacity, and what of it settlements account for. -/
theorem capacity_step (h : step env w a = some w') :
    (w'.server.capacity = w.server.capacity ∧ w'.history.fallen = w.history.fallen) ∨
      ∃ lnworker settledBy, a = .capacity lnworker settledBy ∧
        w'.server.capacity = receivableCapacitySat lnworker ∧
        w'.history.fallen = w.history.fallen ++ settledBy.toList ∧
        w'.server.reserver = w.server.reserver := by
  obtain ⟨-, rfl⟩ := step_eq_some_iff.1 h
  cases a with
  | dispatch event calls =>
    exact .inl ⟨congrArg receivableCapacitySat
      (ClinkServer.dispatch_lnworker env calls w.now event w.server), rfl⟩
  | settle rhash =>
    exact .inl ⟨congrArg receivableCapacitySat (w.server.wallet.setStatus_lnworker rhash .paid),
      rfl⟩
  | walletStatus rhash status =>
    exact .inl ⟨congrArg receivableCapacitySat (w.server.wallet.setStatus_lnworker rhash status),
      rfl⟩
  | requestPaid rhash =>
    rcases perform_requestPaid env w rhash with ⟨-, heq⟩ | ⟨-, -, heq⟩ | ⟨-, -, devfee, heq⟩
    all_goals
      rw [heq]
      exact .inl ⟨rfl, rfl⟩
  | redeliver calls =>
    exact .inl ⟨congrArg receivableCapacitySat
      (w.server.wallet.deleteStaleRequests_lnworker calls _), rfl⟩
  | capacity lnworker settledBy => exact .inr ⟨lnworker, settledBy, rfl, rfl, rfl, rfl⟩
  | _ => exact .inl ⟨rfl, rfl⟩

/-- What a settlement takes from the locks that back the capacity. -/
theorem backingSat_of_fallen {rhash : PaymentHash} {amountSat : ℤ}
    (hlocked : w.lockedAmount rhash = some amountSat) (hnot : rhash ∉ w.history.fallen)
    (hfallen : w'.history.fallen = w.history.fallen ++ [rhash])
    (hreserver : w'.server.reserver = w.server.reserver) :
    w'.backingSat + amountSat = w.backingSat := by
  obtain ⟨res, hres, rfl⟩ := Option.map_eq_some_iff.1 hlocked
  rw [backingSat, hreserver, hfallen, ← Dict.sum_ite_eq hres fun _ res => res.amountSat,
    ← Dict.sum_add]
  refine Dict.sum_congr fun k res _ => ?_
  by_cases hk : k = rhash
  · subst hk
    simp [hnot]
  · simp [hk]

/-- In a session the locked amounts stay covered: a new lock was checked against the capacity, and a
settlement takes from the capacity what it takes from the locks. -/
theorem covered_step (hinv : LiquidityInv w) (hP : LiquiditySession lockedAmount w a)
    (h : step env w a = some w') : w'.backingSat ≤ w'.server.capacity := by
  have hsession : ∀ offers, a ≠ .start offers := by
    rintro offers rfl
    exact hP
  -- either the capacity is what it was, or it fell by a settled amount
  rcases capacity_step h with ⟨hcapacity, hfallen⟩ |
    ⟨lnworker, settledBy, rfl, hcapacity, hfallen, hreserver⟩
  · rw [hcapacity]
    rcases reserver_step hsession hinv.locksDrawn h with ⟨-, hsubset, -⟩ |
      ⟨event, calls, bolt11, rfl, -, hfresh, ⟨hpos, hfits⟩, hreserver, -⟩
    · -- dropped locks only lower the total
      refine le_trans (Dict.sum_le_sum (fun k res hres => ?_) fun k res hres => ?_) hinv.covered
      · split
        · exact le_rfl
        · exact hinv.nonneg k res hres
      · exact .inr ⟨res, hsubset k res hres, by rw [hfallen]⟩
    · -- every recorded amount was counted when the new one was checked
      have hnew : bolt11.paymentHash ∉ (w.server.reserver.sweep w.now).reservations := by
        intro hmem
        obtain ⟨res, hres⟩ := Dict.mem_iff_exists_get?.1 hmem
        exact hfresh.created (hinv.locksDrawn _ (Dict.mem_of_get?
          ((w.server.reserver.lapses_sweep w.now).subset _ _ hres)))
      have hall : w'.backingSat ≤ w'.server.reserver.total := by
        refine Dict.sum_le_sum (fun k res hres => ?_) fun k res hres => ?_
        · rcases lock_step hsession hinv.locksDrawn h hres with hold | ⟨-, hpos⟩
          · exact hinv.nonneg k res hold
          · exact hpos.le
        · by_cases hk : k ∈ w'.history.fallen
          · exact .inl (if_pos hk)
          · exact .inr ⟨res, hres, by simp [hk]⟩
      have htotal : w'.server.reserver.total =
          w.server.reserver.reservedSat w.now + bolt11.amountSat := by
        rw [hreserver]
        exact Dict.sum_set_of_notMem hnew _ _
      omega
  · rcases settledBy with _ | rhash
    · -- without a settlement the capacity does not fall
      have hsame : w'.backingSat = w.backingSat := by
        simp only [backingSat, hreserver, hfallen, Option.toList_none, List.append_nil]
      rw [hsame, hcapacity]
      exact hinv.covered.trans hP
    · -- the capacity falls by at most what leaves the locks
      obtain ⟨amountSat, hlocked, hfall⟩ := hP
      have htaken := backingSat_of_fallen hlocked hfall.notFallen hfallen hreserver
      have hcovered := hinv.covered
      have hbound := hfall.bound
      omega

/-- An outstanding invoice keeps its reservation: it has not expired, and only a paid invoice is
announced. -/
theorem locked_step (hsession : ∀ offers, a ≠ .start offers) (hinv : LiquidityInv w)
    (h : step env w a = some w') {k : PaymentHash} {bolt11 : Bolt11}
    (hissued : w'.history.issued.get? k = some bolt11) (hopen : k ∉ w'.history.settled)
    (hlive : w'.now < bolt11.expiresAt) :
    w'.server.reserver.reservations.get? k = some ⟨k, bolt11.amountSat, bolt11.expiresAt⟩ := by
  have hopen' : k ∉ w.history.settled := fun hmem => hopen ((settled_step h).2 (.inl hmem))
  have hlive' : w.now < bolt11.expiresAt := (now_le_of_step h).trans_lt hlive
  rcases reserver_step hsession hinv.locksDrawn h with ⟨hsame, -, hkept⟩ |
    ⟨event, calls, new, rfl, -, hfresh, -, hreserver, hnew⟩
  · rw [hsame] at hissued
    rcases hkept k _ (hinv.locked k bolt11 hissued hopen' hlive') hlive' with hlocked |
      ⟨rfl, hrequest⟩
    · exact hlocked
    · -- the wallet announces only what it holds as paid, and that was settled
      obtain ⟨request, hget⟩ := Dict.mem_iff_exists_get?.1 hrequest
      have hpaid : w.server.wallet.statusOf k = some .paid := by
        rcases (step_eq_some_iff.1 h).1 with hnone | hpaid
        · simp [Wallet.statusOf, hget] at hnone
        · exact hpaid
      exact absurd (hinv.paid k (hinv.issuedDrawn k (Dict.mem_of_get? hissued)) hpaid) hopen'
  · rw [hreserver, ClinkServer.withReservation, Dict.get?_set]
    by_cases hk : k = new.paymentHash
    · -- the invoice is the new one: no earlier invoice has a fresh hash
      subst hk
      rcases hnew with hsame | hset
      · rw [hsame] at hissued
        exact absurd (hinv.issuedDrawn _ (Dict.mem_of_get? hissued)) hfresh.created
      · rw [hset, Dict.get?_set_self, Option.some.injEq] at hissued
        rw [if_pos rfl, hissued]
    · rw [if_neg hk]
      refine (w.server.reserver.lapses_sweep w.now).kept k _
        (hinv.locked k bolt11 ?_ hopen' hlive') hlive'
      rcases hnew with hsame | hset
      · rwa [← hsame]
      · rwa [hset, Dict.get?_set_of_ne _ hk] at hissued

theorem liquidityInv_step (hinv : LiquidityInv w) (hP : LiquiditySession lockedAmount w a)
    (h : step env w a = some w') : LiquidityInv w' := by
  have hsession : ∀ offers, a ≠ .start offers := by
    rintro offers rfl
    exact hP
  refine ⟨?locksDrawn, ?issuedDrawn, ?paid, ?fallen, ?nonneg, ?locked, covered_step hinv hP h⟩
  case locksDrawn =>
    intro k hk
    obtain ⟨res, hres⟩ := Dict.mem_iff_exists_get?.1 hk
    rcases lock_step hsession hinv.locksDrawn h hres with hold | ⟨hdrawn, -⟩
    · exact (mem_created_step h).2 (.inl (hinv.locksDrawn k (Dict.mem_of_get? hold)))
    · exact hdrawn
  case issuedDrawn =>
    intro k hk
    rcases reserver_step hsession hinv.locksDrawn h with ⟨hsame, -⟩ |
      ⟨event, calls, new, rfl, hcreated, hfresh, -, -, hsame | hset⟩
    · exact (mem_created_step h).2 (.inl (hinv.issuedDrawn k (hsame ▸ hk)))
    · exact (mem_created_step h).2 (.inl (hinv.issuedDrawn k (hsame ▸ hk)))
    · rw [hset, Dict.mem_set] at hk
      rcases hk with rfl | hk
      · exact (mem_created_step h).2 (.inr ⟨event, calls, rfl, hcreated, hfresh⟩)
      · exact (mem_created_step h).2 (.inl (hinv.issuedDrawn k hk))
  case paid =>
    intro k hk hpaid
    obtain ⟨request', hget', hstatus'⟩ := Option.map_eq_some_iff.1 hpaid
    rcases request_step h hget' with ⟨request, hget, -, hbefore⟩ | ⟨_, _, -, -, -, -, hunpaid⟩
    · rcases hbefore hstatus' with hstatus | rfl
      · refine (settled_step h).2 (.inl (hinv.paid k ?_ (Option.map_eq_some_iff.2
          ⟨request, hget, hstatus⟩)))
        -- a hash drawn by this step had no request
        rcases (mem_created_step h).1 hk with hold | ⟨_, _, -, -, hfresh⟩
        · exact hold
        · exact absurd (Dict.mem_of_get? hget) hfresh.requests
      · exact (settled_step h).2 (.inr rfl)
    · cases hunpaid.symm.trans hstatus'
  case fallen =>
    intro k hk
    refine (settled_step h).2 (.inl ?_)
    rcases capacity_step h with ⟨-, hsame⟩ | ⟨lnworker, settledBy, rfl, -, hfallen, -⟩
    · exact hinv.fallen k (hsame ▸ hk)
    · rw [hfallen, List.mem_append, Option.mem_toList] at hk
      rcases hk with hk | rfl
      · exact hinv.fallen k hk
      · obtain ⟨amountSat, -, hfall⟩ := hP
        exact hfall.settled
  case nonneg =>
    intro k res hres
    rcases lock_step hsession hinv.locksDrawn h hres with hold | ⟨-, hpos⟩
    · exact hinv.nonneg k res hold
    · exact hpos.le
  case locked =>
    intro k bolt11 hissued hopen hlive
    exact locked_step hsession hinv h hissued hopen hlive

/-- No overcommitment within a session: as long as the capacity falls only on account of settled
invoices whose reservation is recorded, the outstanding invoices fit into it in every state. -/
theorem outstanding_le_capacity {env : Env} {t : Time} {running : Bool} {server : ClinkServer}
    {w : World} (hsession : server.reserver = .init)
    (hrun : Reachable env (LiquiditySession lockedAmount) (start t running server) w) :
    w.outstandingSat ≤ w.server.capacity := by
  refine LiquidityInv.outstanding_le (hrun.invariant ⟨?_, ?_, ?_, ?_, ?_, ?_, ?_⟩
    fun _ _ _ hinv hP h => liquidityInv_step hinv hP h)
  · simp [start, hsession, LiquidityReserver.init]
  · simp [start, History.empty]
  · simp [start, History.empty]
  · simp [start, History.empty]
  · simp [start, hsession, LiquidityReserver.init]
  · simp [start, History.empty]
  · have hempty : (start t running server).backingSat = 0 := by
      simp [backingSat, start, hsession, LiquidityReserver.init]
    rw [hempty]
    exact receivableCapacitySat_nonneg _

/-- One invoice of 100 sats is handed out and settles: the capacity falls from 150 to 50 before the
reservation is released. -/
theorem outstanding_le_capacity_settled :
    let w := (((start 0 true (.sample 150 300)).perform .sample
      (.dispatch (.sample "e" 0) (.succeeding "r"))).perform .sample (.settle "r")).perform
        .sample (.capacity (some 50) (some "r"))
    w.outstandingSat ≤ w.server.capacity := by
  intro w
  have hreach : Reachable .sample (LiquiditySession lockedAmount) (start 0 true (.sample 150 300))
      (((start 0 true (.sample 150 300)).perform .sample
        (.dispatch (.sample "e" 0) (.succeeding "r"))).perform .sample (.settle "r")) := by
    refine .next (a := .settle "r") (.next (a := .dispatch (.sample "e" 0) (.succeeding "r"))
      .init trivial (step_eq_some_iff.2 ⟨?_, rfl⟩)) trivial (step_eq_some_iff.2 ⟨?_, rfl⟩)
    all_goals decide +kernel
  have hfall : LiquiditySession lockedAmount (((start 0 true (.sample 150 300)).perform .sample
      (.dispatch (.sample "e" 0) (.succeeding "r"))).perform .sample (.settle "r"))
      (.capacity (some 50) (some "r")) := by
    refine ⟨100, ?_, ?_, ?_, ?_, ?_⟩
    all_goals decide +kernel
  exact outstanding_le_capacity rfl (.next hreach hfall (step_eq_some_iff.2 ⟨trivial, rfl⟩))

/-- An invoice for the whole capacity is being paid when it expires; after its expiry a second one
is issued, and then the payment of the first settles. -/
def lateSettlement : List Action :=
  [.dispatch (.sample "e" 0) (.succeeding "r"), .walletStatus "r" .inflight, .advance 11,
    .dispatch (.sample "f" 11) (.succeeding "q"), .settle "r"]

/-- When the capacity falls on account of an invoice whose reservation has lapsed, the outstanding
invoices no longer fit into it. -/
theorem late_settlement_overcommits :
    ∃ w, Reachable .sample (LiquiditySession issuedAmount) (start 0 true (.sample 100 10)) w ∧
      w.server.capacity < w.outstandingSat := by
  have hrun : (Transition.exec (step .sample) (start 0 true (.sample 100 10))
      lateSettlement).any (fun w =>
        decide (w.issuedAmount "r" = some 100) &&
        decide ("r" ∈ w.history.settled ∧ "r" ∉ w.history.fallen ∧ "r" ∉ w.history.notified) &&
        decide (w.server.capacity = 100 ∧
          (w.perform .sample (.capacity (some 0) (some "r"))).outstandingSat = 100)) = true := by
    decide +kernel
  obtain ⟨w, hexec, hfacts⟩ := (Option.any_eq_true _ _).1 hrun
  simp only [Bool.and_eq_true, decide_eq_true_eq] at hfacts
  obtain ⟨⟨hamount, hsettled, hfallen, hnotified⟩, hcapacity, houtstanding⟩ := hfacts
  have hfall : w.SettledFall (some 0) "r" 100 := by
    refine ⟨hsettled, hfallen, hnotified, ?_⟩
    rw [hcapacity]
    decide
  have hreach :
      Reachable .sample (LiquiditySession issuedAmount) (start 0 true (.sample 100 10)) w := by
    refine .exec .init (fun a ha _ => ?_) hexec
    simp only [lateSettlement, List.mem_cons, List.not_mem_nil, or_false] at ha
    rcases ha with rfl | rfl | rfl | rfl | rfl <;> trivial
  have hP : LiquiditySession issuedAmount w (.capacity (some 0) (some "r")) :=
    ⟨100, hamount, hfall⟩
  refine ⟨_, .next hreach hP (step_eq_some_iff.2 ⟨trivial, rfl⟩), ?_⟩
  rw [houtstanding]
  show receivableCapacitySat (some 0) < 100
  decide

end World

end ElectrumClink
