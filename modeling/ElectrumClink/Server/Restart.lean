import ElectrumClink.Server.Overcommit

/-!
# Liquidity locks and restarts

The invoices a wallet has handed out outlive its server, and the hashes and expiries of the receipts
owed for them are in the storage. The locks are not: the constructor builds a reserver without
reservations.

`restart_keeps_locks_iff` says when this makes no difference, and `restart_forgets_locks` shows a
restart that promises the capacity of an outstanding invoice a second time.
-/

namespace ElectrumClink

/-- An empty reserver holds nothing back. -/
theorem LiquidityReserver.availableSat_init (capacity : ℤ) (now : Time) :
    init.availableSat capacity now = max 0 capacity := by
  have hreserved : init.reservedSat now = 0 := rfl
  rw [availableSat, hreserved, sub_zero]

namespace World

variable {env : Env} {w w' : World} {a : Action}

/-- The invoice was handed to a payer and is neither settled nor expired. -/
structure Outstanding (w : World) (rhash : PaymentHash) (bolt11 : Bolt11) : Prop where
  issued : w.history.issued.get? rhash = some bolt11
  unsettled : rhash ∉ w.history.settled
  unexpired : w.now < bolt11.expiresAt

/-- The reservations are for drawn hashes, and the invoices for positive amounts. -/
structure IssuedInv (w : World) : Prop where
  locksDrawn : ∀ k ∈ w.server.reserver.reservations, k ∈ w.history.created
  positive : ∀ k bolt11, w.history.issued.get? k = some bolt11 → 0 < bolt11.amountSat

theorem issuedInv_step (hinv : IssuedInv w) (h : step env w a = some w') : IssuedInv w' := by
  by_cases hstart : ∃ offers, a = .start offers
  · obtain ⟨offers, rfl⟩ := hstart
    obtain ⟨-, rfl⟩ := step_eq_some_iff.1 h
    exact ⟨fun k hk => absurd hk (Dict.notMem_empty k), hinv.positive⟩
  have hsession : ∀ offers, a ≠ .start offers := fun offers heq => hstart ⟨offers, heq⟩
  constructor
  · intro k hk
    obtain ⟨res, hres⟩ := Dict.mem_iff_exists_get?.1 hk
    rcases lock_step hsession hinv.locksDrawn h hres with hold | ⟨hdrawn, -⟩
    · exact (mem_created_step h).2 (.inl (hinv.locksDrawn k (Dict.mem_of_get? hold)))
    · exact hdrawn
  · intro k bolt11 hissued
    rcases reserver_step hsession hinv.locksDrawn h with ⟨hsame, -⟩ |
      ⟨event, calls, new, rfl, hcreated, hfresh, hfits, -, hsame | hset⟩
    · exact hinv.positive k bolt11 (hsame ▸ hissued)
    · exact hinv.positive k bolt11 (hsame ▸ hissued)
    · rw [hset, Dict.get?_set] at hissued
      split at hissued
      next =>
        obtain rfl := Option.some.inj hissued
        exact hfits.1
      next => exact hinv.positive k bolt11 hissued

/-- The total of the outstanding invoices is at least the amount of each. -/
theorem IssuedInv.amountSat_le (hinv : IssuedInv w) {rhash : PaymentHash} {bolt11 : Bolt11}
    (h : w.Outstanding rhash bolt11) : bolt11.amountSat ≤ w.outstandingSat := by
  have hone := Dict.sum_ite_eq h.issued fun _ bolt11 => bolt11.amountSat
  rw [← hone]
  -- the total counts this invoice, and no invoice counts less than zero
  refine Dict.sum_le_sum (fun k bolt11' hbolt11' => ?_) fun k bolt11' hbolt11' => ?_
  · split
    · exact (hinv.positive k bolt11' hbolt11').le
    · exact le_rfl
  · refine .inr ⟨bolt11', hbolt11', ?_⟩
    by_cases hk : k = rhash
    · subst hk
      obtain rfl := Option.some.inj (hbolt11'.symm.trans h.issued)
      rw [if_pos rfl, if_pos ⟨h.unsettled, h.unexpired⟩]
    · rw [if_neg hk]
      split
      · exact (hinv.positive k bolt11' hbolt11').le
      · exact le_rfl

/-- Without outstanding invoices the total is zero. -/
theorem outstandingSat_eq_zero (h : ∀ rhash bolt11, ¬ w.Outstanding rhash bolt11) :
    w.outstandingSat = 0 := by
  have hzero : w.outstandingSat = w.history.issued.sum fun _ _ => 0 :=
    Dict.sum_congr fun k bolt11 hissued =>
      if_neg fun hopen => h k bolt11 ⟨hissued, hopen.1, hopen.2⟩
  rw [hzero]
  simp [Dict.sum]

/-- A new session offers the whole capacity. -/
theorem availableSat_start {offers : OfferStore} (h : step env w (.start offers) = some w') :
    w'.server.reserver.availableSat w'.server.capacity w'.now = w'.server.capacity ∧
      w'.server.capacity = w.server.capacity := by
  obtain ⟨-, rfl⟩ := step_eq_some_iff.1 h
  refine ⟨?_, rfl⟩
  have hreserver : (w.perform env (.start offers)).server.reserver = .init := rfl
  rw [hreserver, LiquidityReserver.availableSat_init]
  exact max_eq_right (receivableCapacitySat_nonneg _)

/-- In every run, the server that is started after a stop leaves the capacity of the outstanding
invoices alone exactly when there is no capacity or no outstanding invoice. -/
theorem restart_keeps_locks_iff {env : Env} {t : Time} {running : Bool} {server : ClinkServer}
    {w w' : World} {offers : OfferStore} (hsession : server.reserver = .init)
    (hrun : Reachable env (fun _ _ => True) (start t running server) w)
    (hstart : step env w (.start offers) = some w') :
    w'.server.reserver.availableSat w'.server.capacity w'.now ≤
        max 0 (w'.server.capacity - w.outstandingSat) ↔
      w.server.capacity = 0 ∨ ∀ rhash bolt11, ¬ w.Outstanding rhash bolt11 := by
  have hinv : IssuedInv w := by
    refine hrun.invariant ⟨?_, ?_⟩ fun _ _ _ hinv _ h => issuedInv_step hinv h
    · simp [start, hsession, LiquidityReserver.init]
    · simp [start, History.empty]
  obtain ⟨havailable, hcapacity⟩ := availableSat_start hstart
  have hnonneg : 0 ≤ w.server.capacity := receivableCapacitySat_nonneg _
  -- the new server promises its whole capacity
  rw [havailable, hcapacity, le_max_iff]
  constructor
  · intro hle
    by_contra hnot
    rw [not_or, not_forall] at hnot
    obtain ⟨hpos, rhash, hopen⟩ := hnot
    rw [not_forall] at hopen
    obtain ⟨bolt11, hopen⟩ := hopen
    rw [not_not] at hopen
    -- one outstanding invoice is enough to make the total positive
    have hamount := hinv.positive rhash bolt11 hopen.issued
    have htotal := hinv.amountSat_le hopen
    omega
  · rintro (hzero | hnone)
    · exact .inl hzero.le
    · rw [outstandingSat_eq_zero hnone, sub_zero]
      exact .inr le_rfl

/-- Of two invoices, the one is settled and the other expires before the server is stopped. -/
def stoppedWithClosedInvoices : List Action :=
  [.dispatch (.sample "e" 0) (.succeeding "r"), .dispatch (.sample "f" 0) (.succeeding "s"),
    .settle "r", .advance 300, .stop]

/-- The next server promises what it should. -/
theorem restart_keeps_locks_closed :
    ∃ w w', Reachable .sample (fun _ _ => True) (start 0 true (.sample 250 300)) w ∧
      step .sample w (.start w.server.offers) = some w' ∧
      "r" ∈ w.history.issued ∧ "s" ∈ w.history.issued ∧
      w'.server.reserver.availableSat w'.server.capacity w'.now ≤
        max 0 (w'.server.capacity - w.outstandingSat) := by
  have hexec : (Transition.exec (step .sample) (start 0 true (.sample 250 300))
      stoppedWithClosedInvoices).any (fun w =>
        decide (w.running = false ∧ "r" ∈ w.history.issued ∧ "s" ∈ w.history.issued ∧
          ∀ e ∈ w.history.issued.entries, e.1 ∈ w.history.settled ∨ e.2.expiresAt ≤ w.now)) =
        true := by
    decide +kernel
  obtain ⟨w, hrun, hfacts⟩ := Transition.exists_reachable_of_exec hexec
  obtain ⟨hstopped, hr, hs, hclosed⟩ := of_decide_eq_true hfacts
  have hstart : step .sample w (.start w.server.offers) =
      some (w.perform .sample (.start w.server.offers)) :=
    step_eq_some_iff.2 ⟨hstopped, rfl⟩
  refine ⟨w, _, hrun, hstart, hr, hs, ?_⟩
  refine (restart_keeps_locks_iff rfl hrun hstart).2 (.inr fun rhash bolt11 hopen => ?_)
  rcases hclosed _ (Dict.get?_eq_some_iff.1 hopen.issued) with hsettled | hexpired
  · exact hopen.unsettled hsettled
  · exact hopen.unexpired.not_ge hexpired

/-- An invoice for 100 of 150 sats is outstanding when its server is stopped. -/
def stoppedWithInvoice : List Action :=
  [.dispatch (.sample "e" 0) (.succeeding "r"), .stop]

/-- The next server promises all 150 sats, though 100 of them are held by an outstanding invoice. -/
theorem restart_forgets_locks :
    ∃ w w', Reachable .sample (fun _ _ => True) (start 0 true (.sample 150 300)) w ∧
      step .sample w (.start w.server.offers) = some w' ∧ w.outstandingSat = 100 ∧
      max 0 (w'.server.capacity - w.outstandingSat) <
        w'.server.reserver.availableSat w'.server.capacity w'.now := by
  have hrun : (Transition.exec (step .sample) (start 0 true (.sample 150 300))
      stoppedWithInvoice).any (fun w =>
        decide (w.running = false ∧ w.server.capacity = 150 ∧ w.outstandingSat = 100)) = true := by
    decide +kernel
  obtain ⟨w, hreach, hfacts⟩ := Transition.exists_reachable_of_exec hrun
  obtain ⟨hstopped, hcapacity, houtstanding⟩ := of_decide_eq_true hfacts
  have hstart : step .sample w (.start w.server.offers) =
      some (w.perform .sample (.start w.server.offers)) :=
    step_eq_some_iff.2 ⟨hstopped, rfl⟩
  obtain ⟨havailable, hsame⟩ := availableSat_start hstart
  refine ⟨w, _, hreach, hstart, houtstanding, ?_⟩
  rw [havailable, hsame, hcapacity, houtstanding]
  decide

end World

end ElectrumClink
