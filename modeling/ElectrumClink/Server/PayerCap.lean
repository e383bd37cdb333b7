import ElectrumClink.Server.Steps

/-!
# The per-payer cap

A dispatch checks the payer's unpaid, unexpired entries before it issues an invoice, and the entry
is added much later. `payer_cap_holds` shows that the check nevertheless bounds the count in every
state a run reaches, whatever expires, is paid, swept or evicted in between and however often the
server restarts over its storage.
-/

namespace ElectrumClink

namespace ReceiptRegistry

/-- An operation that remembers nothing raises no payer's count. -/
theorem pendingCountFor_apply_le {op : Op} (hop : op.remembers = none) (now now' : Time)
    (reg : ReceiptRegistry) (payerPubkey : Pubkey) :
    (op.apply now reg).pendingCountFor now' payerPubkey ≤
      reg.pendingCountFor now' payerPubkey := by
  refine pendingCountFor_le_of_lookup fun k e' hk hcounts => ?_
  rcases lookup_apply hk with ⟨payer, req, expiresAt, rfl, -⟩ | ⟨-, e, he, hchange⟩
  · cases hop
  · refine ⟨e, he, ?_⟩
    rcases hchange with rfl | ⟨-, -, rfl⟩ | ⟨-, rfl⟩ | ⟨-, -, rfl⟩
    · exact hcounts
    · -- an entry that was just marked due does not count
      simp [ReceiptEntry.pendingFor] at hcounts
    · exact hcounts
    · obtain ⟨hpayer, -, hexpires, hdue, -⟩ := e.sent_fields now
      rwa [ReceiptEntry.pendingFor, hpayer, hexpires, hdue] at hcounts

end ReceiptRegistry

namespace World

variable {env : Env} {w w' : World} {a : Action}

/-- The registry holds only hashes the wallet drew, and no payer has too many that count. -/
structure PayerCapInv (w : World) : Prop where
  drawn : ∀ k ∈ w.server.receipts.pending, k ∈ w.history.created
  capped : ∀ pubkey, w.server.receipts.pendingCountFor w.now pubkey ≤ maxPendingPerPayer

/-- A step raises a payer's count only when it dispatches a request of that payer, who was below
the cap, and then by at most one. -/
theorem pendingCountFor_step (hinv : PayerCapInv w) (h : step env w a = some w')
    (pubkey : Pubkey) :
    w'.server.receipts.pendingCountFor w'.now pubkey ≤
        w.server.receipts.pendingCountFor w.now pubkey ∨
      ∃ event calls, a = .dispatch event calls ∧ event.pubkey = pubkey ∧
        w.server.receipts.pendingCountFor w.now pubkey < maxPendingPerPayer ∧
        w'.server.receipts.pendingCountFor w'.now pubkey ≤
          w.server.receipts.pendingCountFor w.now pubkey + 1 := by
  -- with the clock alone entries expire and counts fall
  have hlater : ∀ reg : ReceiptRegistry,
      reg.pendingCountFor w'.now pubkey ≤ reg.pendingCountFor w.now pubkey := fun reg =>
    ReceiptRegistry.pendingCountFor_le_of_lookup fun k e hk hcounts =>
      ⟨e, hk, ReceiptEntry.pendingFor_of_le (now_le_of_step h) hcounts⟩
  rcases receipts_step h with ⟨op, hop, -, hreceipts⟩ |
    ⟨event, calls, rhash, rfl, -, hfresh, hcount, hnow, hreceipts⟩
  · left
    rw [hreceipts]
    exact (ReceiptRegistry.pendingCountFor_apply_le hop _ _ _ _).trans (hlater _)
  · -- the hash is fresh, so it does not rewrite the entry of another invoice
    have hnew : rhash ∉ w.server.receipts.pending := fun hmem =>
      hfresh.created (hinv.drawn _ hmem)
    have hremember := ReceiptRegistry.pendingCountFor_remember_le w.server.receipts w.now hnew
      event.pubkey event.id (w.now + w.server.invoiceExpirySec) pubkey
    rw [hreceipts, hnow]
    by_cases hpubkey : event.pubkey = pubkey
    · subst hpubkey
      exact .inr ⟨event, calls, rfl, rfl, hcount, by simpa using hremember⟩
    · exact .inl (by simpa [hpubkey] using hremember)

theorem payerCapInv_step (hinv : PayerCapInv w) (h : step env w a = some w') :
    PayerCapInv w' := by
  refine ⟨drawn_step hinv.drawn h, fun pubkey => ?_⟩
  rcases pendingCountFor_step hinv h pubkey with hle | ⟨event, calls, -, -, hlt, hle⟩
  · exact hle.trans (hinv.capped pubkey)
  · omega

/-- From an empty registry no run ever gets a payer over the cap, and a dispatch for one payer
never raises another payer's count. -/
theorem payer_cap_holds {env : Env} {t : Time} {running : Bool} {server : ClinkServer} {w : World}
    (hempty : server.receipts = .empty)
    (hrun : Reachable env (fun _ _ => True) (start t running server) w) :
    (∀ pubkey, w.server.receipts.pendingCountFor w.now pubkey ≤ maxPendingPerPayer) ∧
      ∀ event calls w', step env w (.dispatch event calls) = some w' →
        ∀ pubkey, pubkey ≠ event.pubkey →
          w'.server.receipts.pendingCountFor w'.now pubkey ≤
            w.server.receipts.pendingCountFor w.now pubkey := by
  have hinv : PayerCapInv w := by
    refine hrun.invariant ⟨fun k hk => ?_, fun pubkey => ?_⟩
      fun _ _ _ hinv _ h => payerCapInv_step hinv h
    · exact absurd hk (by simp [start, hempty, ReceiptRegistry.empty])
    · simp [start, hempty, ReceiptRegistry.empty, ReceiptRegistry.pendingCountFor]
  refine ⟨hinv.capped, fun event calls w' h pubkey hne => ?_⟩
  rcases pendingCountFor_step hinv h pubkey with hle | ⟨event', calls', heq, hpubkey, -⟩
  · exact hle
  · obtain ⟨rfl, -⟩ := Action.dispatch.inj heq
    exact absurd hpubkey.symm hne

/-- After one request of a payer was answered. -/
theorem payer_cap_holds_one_request :
    let w := (start 0 true (.sample 150 300)).perform .sample
      (.dispatch (.sample "e" 0) (.succeeding "r"))
    w.server.receipts.pendingCountFor w.now "payer" ≤ maxPendingPerPayer := by
  intro w
  have hstep : step .sample (start 0 true (.sample 150 300))
      (.dispatch (.sample "e" 0) (.succeeding "r")) = some w :=
    step_eq_some_iff.2 ⟨by decide +kernel, rfl⟩
  exact (payer_cap_holds rfl (.next .init trivial hstep)).1 "payer"

end World

end ElectrumClink
