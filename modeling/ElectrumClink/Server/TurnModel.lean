import ElectrumClink.Server.Answer
import ElectrumClink.Server.Overcommit

/-!
# The handlers at one reading

The handlers of `Server.Turn` read the clock and the capacity call by call; those of `Server.Model`
are functions of one reading of each. When the readings of a turn agree the two do the same:
`dispatch_steady` and `onEventRequestStatus_steady` say so of the server they leave, of the response
they send and of whether they raise.
-/

namespace ElectrumClink

theorem Wallet.createInvoice_lnworker (w : Wallet) (calls : Calls) (now : Time) (amountSat : ℤ)
    (message : String) (expiry : ℤ) :
    (w.createInvoice calls now amountSat message expiry).2.lnworker = w.lnworker := by
  rcases hcreate : calls.createRequest with _ | rhash
  · rw [createInvoice, hcreate]
  · rw [createInvoice_of_some hcreate]

namespace Turn

/-- The readings agree: the clock stands at `now`, and the capacity is what the wallet reports. -/
structure Steady (now : Time) (t : Turn) : Prop where
  clock : ∀ n, t.clock n = now
  capacity : ∀ n, t.capacityAt n = t.server.capacity

/-- At steady readings, `x` takes the server `s` to `s'`, sends these responses, and returns `a`, or
raises if there is none. -/
def Computes {α : Type} (now : Time) (x : Handler α) (s : ClinkServer) (sent : List Payload)
    (a : Option α) (s' : ClinkServer) : Prop :=
  ∀ t : Turn, t.Steady now → t.server = s →
    ∃ t', x t = (a, t') ∧ t'.Steady now ∧ t'.server = s' ∧ t'.sends = t.sends ++ sent

section Rules

variable {α β : Type} {now : Time} {s s₁ s₂ : ClinkServer}

theorem Computes.bind {x : Handler α} {f : α → Handler β} {sent sent' : List Payload} {a : α}
    {b : Option β} (hx : Computes now x s sent (some a) s₁)
    (hf : Computes now (f a) s₁ sent' b s₂) : Computes now (x >>= f) s (sent ++ sent') b s₂ := by
  intro t hsteady hs
  obtain ⟨t₁, hrun, hsteady₁, hs₁, hsends⟩ := hx t hsteady hs
  obtain ⟨t₂, hrun', hsteady₂, hs₂, hsends'⟩ := hf t₁ hsteady₁ hs₁
  refine ⟨t₂, ?_, hsteady₂, hs₂, ?_⟩
  · rw [Act.bind_of_returned hrun, hrun']
  · rw [hsends', hsends, List.append_assoc]

/-- After a computation that sends nothing, the rest decides what is sent. -/
theorem Computes.then {x : Handler α} {f : α → Handler β} {sent : List Payload} {a : α}
    {b : Option β} (hx : Computes now x s [] (some a) s₁)
    (hf : Computes now (f a) s₁ sent b s₂) : Computes now (x >>= f) s sent b s₂ :=
  hx.bind hf

theorem Computes.raise {x : Handler α} {f : α → Handler β} {sent : List Payload}
    (hx : Computes now x s sent none s₁) : Computes now (x >>= f) s sent none s₁ := by
  intro t hsteady hs
  obtain ⟨t₁, hrun, hsteady₁, hs₁, hsends⟩ := hx t hsteady hs
  exact ⟨t₁, Act.bind_of_raised hrun, hsteady₁, hs₁, hsends⟩

theorem Computes.ite {p : Prop} [Decidable p] {x y : Handler α} {sent : List Payload} {a : Option α}
    (hpos : p → Computes now x s sent a s₁) (hneg : ¬ p → Computes now y s sent a s₁) :
    Computes now (if p then x else y) s sent a s₁ := by
  split
  next h => exact hpos h
  next h => exact hneg h

theorem computes_pure (a : α) (s : ClinkServer) : Computes now (pure a) s [] (some a) s :=
  fun t hsteady hs => ⟨t, rfl, hsteady, hs, (List.append_nil _).symm⟩

theorem Computes.done {x : Handler Unit} {sent : List Payload} {a : Option Unit}
    (hx : Computes now x s sent a s₁) : Computes now (x >>= fun _ => pure ()) s sent a s₁ := by
  cases a with
  | none => exact hx.raise
  | some =>
    have hboth := hx.bind (computes_pure () s₁)
    rwa [List.append_nil] at hboth

theorem computes_self (s : ClinkServer) : Computes now self s [] (some s) s := by
  rintro t hsteady rfl
  exact ⟨t, rfl, hsteady, rfl, (List.append_nil _).symm⟩

/-- A turn stays steady while the wallet keeps its `lnworker`. -/
theorem Steady.after {t : Turn} (h : t.Steady now) (ticks asks : ℕ)
    (hkept : s.wallet.lnworker = t.server.wallet.lnworker) : (t.after ticks asks s).Steady now := by
  refine ⟨h.clock, fun n => ?_⟩
  show receivableCapacitySat (s.wallet.lnworker.map fun _ => t.receivable n) =
    receivableCapacitySat s.wallet.lnworker
  rw [hkept]
  exact h.capacity n

theorem computes_time (s : ClinkServer) : Computes now time s [] (some now) s := by
  rintro t hsteady rfl
  refine ⟨_, ?_, hsteady.after 1 0 rfl, rfl, (List.append_nil _).symm⟩
  rw [time_apply, hsteady.clock]

theorem computes_capacity (s : ClinkServer) : Computes now capacity s [] (some s.capacity) s := by
  rintro t hsteady rfl
  refine ⟨t.after 0 1 t.server, ?_, hsteady.after 0 1 rfl, rfl, (List.append_nil _).symm⟩
  show (some (t.capacityAt t.asks), _) = _
  rw [hsteady.capacity]
  rfl

theorem computes_update {f : ClinkServer → ClinkServer} (s : ClinkServer)
    (hkept : (f s).wallet.lnworker = s.wallet.lnworker) :
    Computes now (update f) s [] (some ()) (f s) := by
  rintro t hsteady rfl
  exact ⟨_, rfl, hsteady.after 0 0 hkept, rfl, (List.append_nil _).symm⟩

/-- A call that is no response is listed, and that is all. -/
theorem computes_note (s : ClinkServer) {call : ServerCall} (hcall : call.payload = none) :
    Computes now (note call) s [] (some ()) s := by
  intro t hsteady hs
  refine ⟨_, note_apply t call, ⟨hsteady.clock, hsteady.capacity⟩, hs, ?_⟩
  rw [sends, trace_noting, List.filterMap_append, List.filterMap_cons_none hcall]
  rfl

/-- What `send_response` returns to its caller. -/
def outcome (reply : Reply) : Option Unit :=
  if reply.delivery = .raised then none else some ()

theorem computes_sendResponse (calls : Calls) (payload : Payload) (s : ClinkServer) :
    Computes now (sendResponse calls payload) s [payload] (outcome (s.sendResponse calls payload))
      s := by
  rintro t hsteady rfl
  refine ⟨_, sendResponse_apply t calls payload, ⟨hsteady.clock, hsteady.capacity⟩, rfl, ?_⟩
  rw [sends, trace_noting, List.filterMap_append]
  rfl

end Rules

/-! ## The components -/

section Components

variable {now : Time} (s : ClinkServer)

theorem computes_sweep :
    Computes now sweep s [] (some ()) { s with reserver := s.reserver.sweep now } :=
  (computes_time s).then (computes_update s rfl)

theorem computes_availableSat :
    Computes now availableSat s [] (some (s.reserver.availableSat s.capacity now))
      { s with reserver := s.reserver.sweep now } :=
  (computes_sweep s).then ((computes_self _).then ((computes_capacity _).then
    (computes_pure _ _)))

theorem computes_tryReserve (key : PaymentHash) (amountSat : ℤ) (expiresAt : Time) :
    Computes now (tryReserve key amountSat expiresAt) s []
      (some (s.reserver.tryReserve s.capacity now key amountSat expiresAt).1)
      { s with reserver :=
        (s.reserver.tryReserve s.capacity now key amountSat expiresAt).2 } := by
  unfold tryReserve LiquidityReserver.tryReserve
  refine (computes_sweep s).then (.ite (fun hpos => ?_) fun hpos => ?_)
  · simp only [hpos, if_true]
    exact computes_pure false _
  · simp only [hpos, if_false]
    refine (computes_availableSat _).then (.ite (fun hfits => ?_) fun hfits => ?_)
    · have hfits : amountSat > (s.reserver.sweep now).availableSat s.capacity now := hfits
      rw [if_pos hfits]
      exact computes_pure false _
    · have hfits : ¬ amountSat > (s.reserver.sweep now).availableSat s.capacity now := hfits
      rw [if_neg hfits]
      exact (computes_update _ rfl).then (computes_pure true _)

theorem computes_record (offerId : String) (amount : Option ℤ) (result : String) :
    Computes now (record offerId amount result) s [] (some ())
      (s.record now offerId amount result) :=
  (computes_time s).then (computes_update s rfl)

theorem computes_isSelftestPayer (pubkey : Pubkey) :
    Computes now (isSelftestPayer pubkey) s [] (some (s.isSelftestPayer now pubkey).1)
      (s.isSelftestPayer now pubkey).2 :=
  (computes_time s).then ((computes_self s).then ((computes_update s rfl).then
    (computes_pure _ _)))

theorem computes_pendingCountFor (pubkey : Pubkey) :
    Computes now (pendingCountFor pubkey) s [] (some (s.receipts.pendingCountFor now pubkey)) s :=
  (computes_time s).then ((computes_self s).then (computes_pure _ s))

theorem computes_overPayerCap (selftest : Bool) (pubkey : Pubkey) :
    Computes now (overPayerCap selftest pubkey) s []
      (some (!selftest &&
        decide (s.receipts.pendingCountFor now pubkey ≥ maxPendingPerPayer))) s := by
  cases selftest with
  | true => exact computes_pure false s
  | false => exact (computes_pendingCountFor s pubkey).then (computes_pure _ s)

theorem computes_markIssued (rhash : PaymentHash) :
    Computes now (markIssued rhash) s [] (some ())
      { s with devfee := s.devfee.markIssued now rhash } :=
  (computes_time s).then ((computes_note s rfl).then (computes_update s rfl))

/-- The payer is remembered for the receipt, and the requests behind evicted entries are deleted. -/
theorem computes_rememberPayer (calls : Calls) (event : Event) (rhash : PaymentHash) (expiry : ℤ) :
    Computes now (rememberPayer calls event rhash expiry) s [] (some ())
      { s with
        receipts := (s.receipts.remember rhash event.pubkey event.id (now + expiry)).2
        wallet := s.wallet.deleteStaleRequests calls
          (s.receipts.remember rhash event.pubkey event.id (now + expiry)).1 } :=
  (computes_time s).then ((computes_self s).then (computes_update s
    (Wallet.deleteStaleRequests_lnworker _ _ _)))

end Components

/-! ## The handlers -/

/-- At steady readings `x` sends the reply of `r` and leaves its server. -/
def Replies (now : Time) (x : Handler Unit) (s : ClinkServer) (r : Reply × ClinkServer) : Prop :=
  Computes now x s [r.1.payload] (outcome r.1) r.2

theorem replies_sendResponse {now : Time} (calls : Calls) (payload : Payload) (s : ClinkServer) :
    Replies now (sendResponse calls payload) s (s.sendResponse calls payload, s) :=
  computes_sendResponse calls payload s

section Handlers

variable {now : Time} (env : Env) (calls : Calls) (event : Event) (offer : Option Offer)
  (amountSat : ℤ) (selftest : Bool) (bolt11 : Bolt11) (s : ClinkServer)

/-- What `handOut` does once the side effects of an invoice are in `s`. -/
theorem handOut_eq : ClinkServer.handOut calls now event offer amountSat selftest bolt11 s =
    (if !selftest then
        ((s.rememberInvoice calls now event offer amountSat bolt11.paymentHash).sendResponse calls
          (successPayload bolt11),
          s.rememberInvoice calls now event offer amountSat bolt11.paymentHash)
      else (s.sendResponse calls (successPayload bolt11),
        if (s.sendResponse calls (successPayload bolt11)).delivery = .raised then s
        else s.unwindSelftest now offer amountSat bolt11.paymentHash)) := by
  cases selftest with
  | false =>
    simp [ClinkServer.handOut]
  | true =>
    simp only [ClinkServer.handOut, Bool.not_true, Bool.false_eq_true, if_false, if_true]
    split <;> rfl

theorem replies_handOut :
    Replies now (handOut calls event offer amountSat selftest s.invoiceExpirySec bolt11) s
      (ClinkServer.handOut calls now event offer amountSat selftest bolt11 s) := by
  rw [handOut_eq]
  unfold handOut
  cases selftest with
  | false =>
    simp only [Bool.not_false, if_true, Bool.false_eq_true, if_false]
    refine (computes_markIssued s _).then ?_
    refine (computes_rememberPayer _ calls event _ _).then ?_
    refine (computes_record _ _ _ _).then ?_
    exact (computes_sendResponse calls _ _).done
  | true =>
    simp only [Bool.not_true, if_true, Bool.false_eq_true, if_false]
    have hsend : Replies now _ s _ := replies_sendResponse calls (successPayload bolt11) s
    unfold Replies at hsend ⊢
    by_cases hraised : (s.sendResponse calls (successPayload bolt11)).delivery = .raised
    -- the exception leaves the run before the unwinding
    · simp only [outcome, hraised, if_true] at hsend ⊢
      exact hsend.raise
    · simp only [outcome, hraised, if_false] at hsend ⊢
      refine hsend.bind ?_
      refine (computes_update s rfl).then ?_
      exact (computes_update _ rfl).then (computes_record _ _ _ _)

theorem replies_lockInvoice :
    Replies now (lockInvoice calls event offer amountSat selftest s.invoiceExpirySec bolt11) s
      (ClinkServer.lockInvoice calls now event offer amountSat selftest s.invoiceExpirySec bolt11
        s) := by
  unfold lockInvoice ClinkServer.lockInvoice
  dsimp only
  have hreserve : Computes now _ s _ _ _ := computes_tryReserve s bolt11.paymentHash amountSat
    (now + s.invoiceExpirySec)
  refine (computes_time s).then (hreserve.then ((computes_note _ rfl).then ?_))
  rcases s.reserver.tryReserve s.capacity now bolt11.paymentHash amountSat
    (now + s.invoiceExpirySec) with ⟨_ | _, reserver⟩
  · simp only [Bool.not_false, if_true]
    refine (computes_update _ rfl).then ?_
    refine (computes_record _ _ _ _).then ?_
    refine (computes_availableSat _).then ?_
    exact computes_sendResponse calls _ _
  · simp only [Bool.not_true, Bool.false_eq_true, if_false]
    exact replies_handOut calls event offer amountSat selftest bolt11 _

theorem replies_issueInvoice (description : Option String) :
    Replies now (issueInvoice env calls event offer amountSat description selftest) s
      (ClinkServer.issueInvoice env calls now event offer amountSat description selftest s) := by
  unfold issueInvoice ClinkServer.issueInvoice
  dsimp only
  refine (computes_self s).then ((computes_time s).then ((computes_self s).then ?_))
  have hkept := Wallet.createInvoice_lnworker s.wallet calls now amountSat
    (invoiceMessage env.tables (offer.map Offer.label) description) s.invoiceExpirySec
  generalize s.wallet.createInvoice calls now amountSat
    (invoiceMessage env.tables (offer.map Offer.label) description) s.invoiceExpirySec =
    created at hkept ⊢
  rcases created with ⟨_ | bolt11, wallet⟩
  · exact (computes_update s hkept).then (computes_sendResponse calls _ _)
  · refine (computes_update s hkept).then ?_
    exact replies_lockInvoice calls event offer amountSat selftest bolt11
      { s with wallet := wallet }

theorem replies_conclude (req : Request) (resolution : Resolution) :
    Replies now (conclude env calls event req selftest offer resolution) s
      (s.conclude env calls now event req selftest offer resolution) := by
  unfold conclude ClinkServer.conclude
  dsimp only
  cases resolution with
  | sendError payload => exact (computes_record _ _ _ _).then (computes_sendResponse calls _ _)
  | issueInvoice amountSat =>
    refine (computes_overPayerCap s selftest event.pubkey).then ?_
    dsimp only
    split
    · exact (computes_record _ _ _ _).then (computes_sendResponse calls _ _)
    · exact replies_issueInvoice env calls event offer amountSat selftest s _

theorem replies_answer (req : Request) :
    Replies now (answer env calls event req) s (s.answer env calls now event req) := by
  unfold answer ClinkServer.answer
  dsimp only
  refine (computes_isSelftestPayer s event.pubkey).then ((computes_self _).then ?_)
  exact (computes_availableSat _).then (replies_conclude env calls event _ _ _ req _)

/-- `_dispatch`, with and without an answer. -/
theorem computes_dispatch :
    Computes now (dispatch env calls event) s
      ((s.dispatch env calls now event).1.toList.map Reply.payload)
      ((s.dispatch env calls now event).1.elim (some ()) outcome)
      (s.dispatch env calls now event).2 := by
  unfold dispatch ClinkServer.dispatch ClinkServer.accept
  refine (computes_self s).then (.ite (fun hping => ?_) fun hping => ?_)
  · rw [if_pos hping]
    exact (computes_update s rfl).then (computes_pure () _)
  rw [if_neg hping]
  refine .ite (fun hkind => ?_) fun hkind => ?_
  · rw [if_pos hkind]
    exact computes_pure () s
  rw [if_neg hkind]
  refine .ite (fun hown => ?_) fun hown => ?_
  · rw [if_pos hown]
    exact computes_pure () s
  rw [if_neg hown]
  refine (computes_time s).then (.ite (fun hexpired => ?_) fun hexpired => ?_)
  · rw [if_pos hexpired]
    exact computes_pure () s
  rw [if_neg hexpired]
  refine (computes_time s).then (.ite (fun hwindow => ?_) fun hwindow => ?_)
  · rw [if_pos hwindow]
    exact computes_pure () s
  rw [if_neg hwindow]
  rcases ClinkServer.decryptRequest env event with _ | req
  · exact computes_pure () s
  -- the replay guard
  dsimp only
  refine (computes_self s).then ?_
  have hkept : (s.alreadySeen event.id).2.wallet.lnworker = s.wallet.lnworker := by
    unfold ClinkServer.alreadySeen
    split <;> rfl
  generalize s.alreadySeen event.id = guarded at hkept ⊢
  rcases guarded with ⟨_ | _, server⟩
  · refine (computes_update s hkept).then ?_
    exact replies_answer env calls event server req
  · refine (computes_update s hkept).then ?_
    exact computes_pure () server

/-- `on_event_request_status`: it sends nothing. -/
theorem computes_onEventRequestStatus (key : PaymentHash) (status : InvoiceStatus) :
    Computes now (onEventRequestStatus key status) s [] (some ())
      (s.onEventRequestStatus now key status).2 := by
  unfold onEventRequestStatus ClinkServer.onEventRequestStatus
  refine .ite (fun hstatus => ?_) fun hstatus => ?_
  · rw [if_pos hstatus]
    exact computes_pure () s
  rw [if_neg hstatus]
  refine (computes_self s).then ?_
  rcases s.wallet.requests.get? key with _ | request
  · exact computes_pure () s
  dsimp only
  refine .ite (fun hlight => ?_) fun hlight => ?_
  · rw [if_pos hlight]
    exact computes_pure () s
  rw [if_neg hlight]
  refine (computes_update s rfl).then ((computes_time _).then ((computes_update _ rfl).then
    ((computes_self _).then ((computes_update _ rfl).then ?_))))
  cases hissued : (s.devfee.takeIssued key).1 with
  | false =>
    rw [if_neg (show ¬ (false && decide (request.amountSat > 0)) = true from Bool.false_ne_true)]
    exact computes_pure () _
  | true =>
    rw [Bool.true_and, if_pos rfl]
    refine .ite (fun hpos => ?_) fun hpos => ?_
    · have hpays : (decide (request.amountSat > 0)) = true := decide_eq_true hpos
      rw [if_pos hpays]
      exact (computes_note _ rfl).then (computes_update _ rfl)
    · have hfree : ¬ (decide (request.amountSat > 0)) = true := by simpa using hpos
      rw [if_neg hfree]
      exact computes_pure () _

end Handlers

/-! ## A whole turn -/

section Steady

variable {now : Time} {t : Turn} (h : t.Steady now)
include h

/-- When the readings of a turn agree, `_dispatch` does what it does at one reading: it leaves the
same server, sends the same response if any, and raises where the taskgroup refuses it. -/
theorem dispatch_steady (env : Env) (calls : Calls) (event : Event) :
    (dispatch env calls event t).2.server = (t.server.dispatch env calls now event).2 ∧
      (dispatch env calls event t).2.sends =
        t.sends ++ (t.server.dispatch env calls now event).1.toList.map Reply.payload ∧
      (dispatch env calls event t).1 =
        (t.server.dispatch env calls now event).1.elim (some ()) outcome := by
  obtain ⟨t', hrun, -, hserver, hsends⟩ := computes_dispatch env calls event t.server t h rfl
  rw [hrun]
  exact ⟨hserver, hsends, rfl⟩

/-- When the readings of a turn agree, `on_event_request_status` does what it does at one
reading. -/
theorem onEventRequestStatus_steady (key : PaymentHash) (status : InvoiceStatus) :
    (onEventRequestStatus key status t).2.server =
        (t.server.onEventRequestStatus now key status).2 ∧
      (onEventRequestStatus key status t).2.sends = t.sends ∧
      (onEventRequestStatus key status t).1 = some () := by
  obtain ⟨t', hrun, -, hserver, hsends⟩ :=
    computes_onEventRequestStatus t.server key status t h rfl
  rw [hrun]
  exact ⟨hserver, hsends.trans (List.append_nil _), rfl⟩

end Steady

/-- Readings of the clock that all say `now`, and a capacity that is always the wallet's, are
steady. -/
theorem steady_begin (server : ClinkServer) (now : Time) (receivable : ℤ)
    (h : server.wallet.lnworker = some receivable) :
    (begin server (fun _ => now) fun _ => receivable).Steady now := by
  refine ⟨fun _ => rfl, fun _ => ?_⟩
  show receivableCapacitySat (server.wallet.lnworker.map fun _ => receivable) =
    receivableCapacitySat server.wallet.lnworker
  rw [h]
  rfl

end Turn

end ElectrumClink
