import ElectrumClink.Server.Issue
import ElectrumClink.Server.Turn

/-!
# What a turn of the event loop calls

The evaluation of the handlers, component by component. `IssueTurn` lists the four ways a run of
`_issue_invoice` can go, with the calls it makes in each, and `issueInvoice_turn` finds every run in
the list.
-/

namespace ElectrumClink

namespace Turn

variable (t : Turn)

/-- The turn after so many readings, with the server as it is by then. -/
def after (ticks asks : ℕ) (server : ClinkServer) : Turn :=
  { t with server := server, ticks := t.ticks + ticks, asks := t.asks + asks }

/-- The turn after one more call. -/
def noting (call : ServerCall) : Turn := { t with log := t.log ++ [(call, t.server)] }

theorem trace_noting (call : ServerCall) : (t.noting call).trace = t.trace ++ [call] := by
  rw [trace, trace, noting, List.map_append]
  rfl

/-- The server without the reservations that had lapsed when the clock was read for the `n`-th
time. -/
def swept (n : ℕ) (s : ClinkServer) : ClinkServer :=
  { s with reserver := s.reserver.sweep (t.clock n) }

/-! ## The components -/

theorem self_apply : self t = (some t.server, t) := rfl

theorem time_apply : time t = (some (t.clock t.ticks), t.after 1 0 t.server) := rfl

theorem note_apply (call : ServerCall) : note call t = (some (), t.noting call) := rfl

theorem update_apply (f : ClinkServer → ClinkServer) :
    update f t = (some (), t.after 0 0 (f t.server)) := rfl

theorem sweep_apply : sweep t = (some (), t.after 1 0 (t.swept t.ticks t.server)) := rfl

theorem availableSat_apply : availableSat t =
    (some (t.server.reserver.availableSat (t.capacityAt t.asks) (t.clock t.ticks)),
      t.after 1 1 (t.swept t.ticks t.server)) := rfl

theorem record_apply (offerId : String) (amount : Option ℤ) (result : String) :
    record offerId amount result t =
      (some (), t.after 1 0 (t.server.record (t.clock t.ticks) offerId amount result)) := rfl

/-- Whether a payer has reached the ceiling, by the `n`-th reading of the clock. -/
def overCap (n : ℕ) (selftest : Bool) (pubkey : Pubkey) : Bool :=
  !selftest && decide (t.server.receipts.pendingCountFor (t.clock n) pubkey ≥ maxPendingPerPayer)

/-- The readings that `overPayerCap` makes. -/
def capTicks (selftest : Bool) : ℕ := if selftest then 0 else 1

theorem overPayerCap_apply (selftest : Bool) (pubkey : Pubkey) : overPayerCap selftest pubkey t =
    (some (t.overCap t.ticks selftest pubkey), t.after (capTicks selftest) 0 t.server) := by
  cases selftest <;> rfl

/-- Whether a reservation that begins at the `n`-th reading of the clock fits. -/
def LocksAt (n : ℕ) (amountSat : ℤ) : Prop :=
  0 < amountSat ∧ amountSat ≤
    (t.swept n t.server).reserver.availableSat (t.capacityAt t.asks) (t.clock (n + 1))

instance (n : ℕ) (amountSat : ℤ) : Decidable (t.LocksAt n amountSat) :=
  inferInstanceAs (Decidable (0 < amountSat ∧ amountSat ≤
    (t.swept n t.server).reserver.availableSat (t.capacityAt t.asks) (t.clock (n + 1))))

/-- A reservation changes nothing but the reserver, which holds it if it fits. -/
theorem tryReserve_apply (key : PaymentHash) (amountSat : ℤ) (expiresAt : Time) :
    ∃ ticks asks reserver, tryReserve key amountSat expiresAt t =
      (some (decide (t.LocksAt t.ticks amountSat)),
        t.after ticks asks { t.server with reserver := reserver }) ∧
      (t.LocksAt t.ticks amountSat →
        reserver.reservations.get? key = some ⟨key, amountSat, expiresAt⟩) := by
  unfold tryReserve
  rw [Act.bind_of_returned (sweep_apply t)]
  by_cases hpos : amountSat ≤ 0
  · have hlocks : ¬ t.LocksAt t.ticks amountSat := fun h => absurd h.1 (not_lt.2 hpos)
    refine ⟨1, 0, (t.swept t.ticks t.server).reserver, ?_, fun h => absurd h hlocks⟩
    rw [if_pos hpos, decide_eq_false hlocks]
    rfl
  · rw [if_neg hpos, Act.bind_of_returned (availableSat_apply _), Act.ite_apply]
    by_cases hfits : amountSat >
        (t.swept t.ticks t.server).reserver.availableSat (t.capacityAt t.asks)
          (t.clock (t.ticks + 1))
    · have hlocks : ¬ t.LocksAt t.ticks amountSat := fun h => absurd h.2 (not_le.2 hfits)
      refine ⟨2, 1, (t.swept (t.ticks + 1) (t.swept t.ticks t.server)).reserver, ?_,
        fun h => absurd h hlocks⟩
      rw [decide_eq_false hlocks]
      exact if_pos hfits
    · have hlocks : t.LocksAt t.ticks amountSat := ⟨not_le.1 hpos, not_lt.1 hfits⟩
      refine ⟨2, 1, ⟨(t.swept (t.ticks + 1) (t.swept t.ticks t.server)).reserver.reservations.set
        key ⟨key, amountSat, expiresAt⟩⟩, ?_, fun _ => Dict.get?_set_self _ _ _⟩
      rw [decide_eq_true hlocks]
      exact if_neg hfits

/-- A response is listed, whatever the taskgroup does with it. -/
theorem sendResponse_apply (calls : Calls) (payload : Payload) :
    sendResponse calls payload t =
      (if (t.server.sendResponse calls payload).delivery = .raised then none else some (),
        t.noting (.sendResponse payload)) := by
  have htg : sendResponse calls payload t =
      (if !t.server.taskgroup then (pure () : Handler Unit)
        else if !calls.spawn then Act.raise else pure ()) (t.noting (.sendResponse payload)) := rfl
  rw [htg]
  cases hgroup : t.server.taskgroup with
  | false => simp [ClinkServer.sendResponse, hgroup]
  | true => cases hspawn : calls.spawn <;> simp [ClinkServer.sendResponse, hgroup, hspawn]

/-- The server once a hash is marked, by the current reading of the clock. -/
def marked (rhash : PaymentHash) : ClinkServer :=
  { t.server with devfee := t.server.devfee.markIssued (t.clock t.ticks) rhash }

theorem markIssued_apply (rhash : PaymentHash) :
    markIssued rhash t = (some (), (t.noting (.markIssued rhash)).after 1 0 (t.marked rhash)) :=
  rfl

/-- The server once the payer of an invoice is remembered. -/
def remembered (calls : Calls) (event : Event) (rhash : PaymentHash) (expiry : ℤ) : ClinkServer :=
  let r := t.server.receipts.remember rhash event.pubkey event.id (t.clock t.ticks + expiry)
  { t.server with receipts := r.2, wallet := t.server.wallet.deleteStaleRequests calls r.1 }

theorem rememberPayer_apply (calls : Calls) (event : Event) (rhash : PaymentHash) (expiry : ℤ) :
    rememberPayer calls event rhash expiry t =
      (some (), t.after 1 0 (t.remembered calls event rhash expiry)) := rfl

/-- From `t` to `t'` exactly these calls are made, and none of them touches the dev-fee ledger. -/
structure Leads (t : Turn) (calls : List ServerCall) (t' : Turn) : Prop where
  log : ∃ entries, t'.log = t.log ++ entries ∧ entries.map Prod.fst = calls
  ticks : t.ticks ≤ t'.ticks
  clock : t'.clock = t.clock
  devfee : t'.server.devfee = t.server.devfee

theorem Leads.trace {t t' : Turn} {calls : List ServerCall} (h : t.Leads calls t') :
    t'.trace = t.trace ++ calls := by
  obtain ⟨entries, hlog, rfl⟩ := h.log
  rw [Turn.trace, hlog, List.map_append]
  rfl

theorem Leads.trans {t t' t'' : Turn} {calls calls' : List ServerCall} (h : t.Leads calls t')
    (h' : t'.Leads calls' t'') : t.Leads (calls ++ calls') t'' := by
  obtain ⟨entries, hlog, rfl⟩ := h.log
  obtain ⟨entries', hlog', rfl⟩ := h'.log
  refine ⟨⟨entries ++ entries', ?_, List.map_append⟩, h.ticks.trans h'.ticks,
    h'.clock.trans h.clock, h'.devfee.trans h.devfee⟩
  rw [hlog', hlog, List.append_assoc]

theorem leads_after (ticks asks : ℕ) (server : ClinkServer)
    (h : server.devfee = t.server.devfee) : t.Leads [] (t.after ticks asks server) :=
  ⟨⟨[], (List.append_nil _).symm, rfl⟩, Nat.le_add_right _ _, rfl, h⟩

theorem leads_noting (call : ServerCall) : t.Leads [call] (t.noting call) :=
  ⟨⟨[(call, t.server)], rfl, rfl⟩, le_rfl, rfl, rfl⟩

/-- The computation returns, and makes no call that is listed. -/
def Quiet {α : Type} (x : Handler α) : Prop :=
  ∀ t, ∃ a t', x t = (some a, t') ∧ t.Leads [] t'

theorem quiet_record (offerId : String) (amount : Option ℤ) (result : String) :
    Quiet (record offerId amount result) :=
  fun t => ⟨_, _, record_apply t offerId amount result, leads_after t 1 0 _ rfl⟩

theorem quiet_availableSat : Quiet availableSat :=
  fun t => ⟨_, _, availableSat_apply t, leads_after t 1 1 _ rfl⟩

theorem quiet_update {f : ClinkServer → ClinkServer} (h : ∀ s, (f s).devfee = s.devfee) :
    Quiet (update f) :=
  fun t => ⟨_, _, update_apply t f, leads_after t 0 0 _ (h t.server)⟩

/-- After a quiet computation the rest runs. -/
theorem Quiet.bind {α β : Type} {x : Handler α} (h : Quiet x) (f : α → Handler β) (t : Turn) :
    ∃ a t', (x >>= f) t = f a t' ∧ t.Leads [] t' := by
  obtain ⟨a, t', hx, hleads⟩ := h t
  exact ⟨a, t', Act.bind_of_returned hx, hleads⟩

/-! ## Issuing an invoice -/

/-- From `t` to `t'` these calls are made and then the invoice is sent, by a server that holds its
liquidity until `expiresAt`. -/
def SendsReserved (t : Turn) (calls : List ServerCall) (bolt11 : Bolt11) (expiresAt : Time)
    (t' : Turn) : Prop :=
  ∃ entries s, t'.log = t.log ++ entries ++ [(.sendResponse (successPayload bolt11), s)] ∧
    entries.map Prod.fst = calls ∧
    s.reserver.reservations.get? bolt11.paymentHash =
      some ⟨bolt11.paymentHash, bolt11.amountSat, expiresAt⟩

theorem SendsReserved.trace {t t' : Turn} {calls : List ServerCall} {bolt11 : Bolt11}
    {expiresAt : Time} (h : t.SendsReserved calls bolt11 expiresAt t') :
    t'.trace = t.trace ++ (calls ++ [.sendResponse (successPayload bolt11)]) := by
  obtain ⟨entries, s, hlog, rfl, -⟩ := h
  rw [Turn.trace, hlog, List.map_append, List.map_append, List.append_assoc]
  rfl

/-- How a run of `_issue_invoice` can go, with the calls it makes. -/
inductive IssueTurn (calls : Calls) (amountSat : ℤ) (selftest : Bool) (t t' : Turn) : Prop
  /-- A wallet call raised. -/
  | raised
      (hcalls : calls.createRequest = none ∨ calls.answered t.server.wallet = false)
      (hleads : t.Leads
        [.sendResponse (errorPayload errTemporaryFailure "Temporary Failure")] t')
  /-- The liquidity was gone when the invoice was ready. -/
  | lostRace (rhash : PaymentHash) (maxSat : ℤ) (hcreated : calls.createRequest = some rhash)
      (hanswered : calls.answered t.server.wallet = true)
      (hlost : ¬ t.LocksAt (t.ticks + 2) amountSat)
      (hleads : t.Leads [.tryReserve rhash amountSat false,
        .sendResponse (invalidAmountPayload 1 maxSat)] t')
  /-- The invoice was locked, marked for the dev fee at the `n`-th reading of the clock and sent. -/
  | issued (bolt11 : Bolt11) (n : ℕ) (hcreated : calls.createRequest = some bolt11.paymentHash)
      (hamount : bolt11.amountSat = amountSat)
      (hanswered : calls.answered t.server.wallet = true)
      (hlocked : t.LocksAt (t.ticks + 2) amountSat) (hselftest : selftest = false)
      (hn : t.ticks ≤ n ∧ n ≤ t'.ticks) (hclock : t'.clock = t.clock)
      (hsent : t.SendsReserved [.tryReserve bolt11.paymentHash bolt11.amountSat true,
        .markIssued bolt11.paymentHash] bolt11
        (t.clock (t.ticks + 1) + t.server.invoiceExpirySec) t')
      (hdevfee : t'.server.devfee = t.server.devfee.markIssued (t.clock n) bolt11.paymentHash)
  /-- The invoice of a self-test was locked and sent. -/
  | selftest (bolt11 : Bolt11) (hcreated : calls.createRequest = some bolt11.paymentHash)
      (hamount : bolt11.amountSat = amountSat)
      (hanswered : calls.answered t.server.wallet = true)
      (hlocked : t.LocksAt (t.ticks + 2) amountSat) (hselftest : selftest = true)
      (hsent : t.SendsReserved [.tryReserve bolt11.paymentHash bolt11.amountSat true] bolt11
        (t.clock (t.ticks + 1) + t.server.invoiceExpirySec) t')
      (hleads : t.Leads [.tryReserve bolt11.paymentHash bolt11.amountSat true,
        .sendResponse (successPayload bolt11)] t')

/-- An invoice that is not a self-test's is marked before it is sent, and nothing comes after. -/
theorem handOut_issued (calls : Calls) (event : Event) (offer : Option Offer) (amountSat : ℤ)
    (expiry : ℤ) (bolt11 : Bolt11) :
    ∃ server, (handOut calls event offer amountSat false expiry bolt11 t).2 =
        ((t.noting (.markIssued bolt11.paymentHash)).after 3 0 server).noting
          (.sendResponse (successPayload bolt11)) ∧
      server.devfee = t.server.devfee.markIssued (t.clock t.ticks) bolt11.paymentHash ∧
      server.reserver = t.server.reserver := by
  unfold handOut
  simp only [Bool.not_false, if_true, Bool.false_eq_true, if_false]
  rw [Act.bind_of_returned (markIssued_apply t _),
    Act.bind_of_returned (rememberPayer_apply _ _ _ _ _),
    Act.bind_of_returned (record_apply _ _ _ _), Act.bind_pure_snd, sendResponse_apply]
  exact ⟨_, rfl, rfl, rfl⟩

/-- The invoice of a self-test is sent, and unwound if the taskgroup took the response. -/
theorem handOut_selftest (calls : Calls) (event : Event) (offer : Option Offer) (amountSat : ℤ)
    (expiry : ℤ) (bolt11 : Bolt11) :
    ∃ ticks server, (handOut calls event offer amountSat true expiry bolt11 t).2 =
        (t.noting (.sendResponse (successPayload bolt11))).after ticks 0 server ∧
      server.devfee = t.server.devfee := by
  have hsend := sendResponse_apply t calls (successPayload bolt11)
  unfold handOut
  simp only [Bool.not_true, if_true, Bool.false_eq_true, if_false]
  by_cases hraised : (t.server.sendResponse calls (successPayload bolt11)).delivery = .raised
  · rw [if_pos hraised] at hsend
    rw [Act.bind_of_raised hsend]
    exact ⟨0, t.server, rfl, rfl⟩
  · rw [if_neg hraised] at hsend
    rw [Act.bind_of_returned hsend]
    exact ⟨1, _, rfl, rfl⟩

section LockInvoice

variable (calls : Calls) (event : Event) (offer : Option Offer) (amountSat : ℤ) (selftest : Bool)
  (expiry : ℤ) (bolt11 : Bolt11)

/-- The reservation is in the reserver, if it fits, and the attempt is listed; then either the
request is cancelled or the invoice is handed out. -/
theorem lockInvoice_apply :
    ∃ t', t.Leads [.tryReserve bolt11.paymentHash amountSat
        (decide (t.LocksAt (t.ticks + 1) amountSat))] t' ∧
      (t.LocksAt (t.ticks + 1) amountSat →
        t'.server.reserver.reservations.get? bolt11.paymentHash =
          some ⟨bolt11.paymentHash, amountSat, t.clock t.ticks + expiry⟩) ∧
      lockInvoice calls event offer amountSat selftest expiry bolt11 t =
        (if !decide (t.LocksAt (t.ticks + 1) amountSat) then do
          update fun s => { s with wallet := s.wallet.deleteRequest bolt11.paymentHash }
          record (ClinkServer.reqOfferId offer) (some amountSat) "error 5 (lost race)"
          let available ← availableSat
          sendResponse calls (invalidAmountPayload 1 (quantizeAvailableSat available 2))
        else handOut calls event offer amountSat selftest expiry bolt11) t' := by
  obtain ⟨ticks, asks, reserver, hreserve, hheld⟩ := tryReserve_apply (t.after 1 0 t.server)
    bolt11.paymentHash amountSat (t.clock t.ticks + expiry)
  unfold lockInvoice
  rw [Act.bind_of_returned (time_apply t), Act.bind_of_returned hreserve,
    Act.bind_of_returned (note_apply _ _)]
  refine ⟨_, ?_, fun hlocks => ?_, rfl⟩
  swap
  · exact hheld hlocks
  have hreserved : t.Leads [] ((t.after 1 0 t.server).after ticks asks
      { t.server with reserver := reserver }) :=
    (leads_after t 1 0 _ rfl).trans (leads_after _ ticks asks _ rfl)
  exact hreserved.trans (leads_noting _ _)

theorem lockInvoice_locked (hlocks : t.LocksAt (t.ticks + 1) amountSat) :
    ∃ t', t.Leads [.tryReserve bolt11.paymentHash amountSat true] t' ∧
      t'.server.reserver.reservations.get? bolt11.paymentHash =
        some ⟨bolt11.paymentHash, amountSat, t.clock t.ticks + expiry⟩ ∧
      lockInvoice calls event offer amountSat selftest expiry bolt11 t =
        handOut calls event offer amountSat selftest expiry bolt11 t' := by
  obtain ⟨t', hleads, hheld, hrun⟩ := lockInvoice_apply t calls event offer amountSat selftest
    expiry bolt11
  simp only [hlocks, decide_true, Bool.not_true, Bool.false_eq_true, if_false] at hleads hrun
  exact ⟨t', hleads, hheld hlocks, hrun⟩

theorem lockInvoice_lost (hlost : ¬ t.LocksAt (t.ticks + 1) amountSat) :
    ∃ maxSat, t.Leads [.tryReserve bolt11.paymentHash amountSat false,
        .sendResponse (invalidAmountPayload 1 maxSat)]
      (lockInvoice calls event offer amountSat selftest expiry bolt11 t).2 := by
  obtain ⟨t', hleads, -, hrun⟩ := lockInvoice_apply t calls event offer amountSat selftest expiry
    bolt11
  simp only [hlost, decide_false, Bool.not_false, if_true] at hleads hrun
  obtain ⟨_, t₁, hdelete, hleads₁⟩ := (quiet_update (f := fun s => { s with
    wallet := s.wallet.deleteRequest bolt11.paymentHash }) fun _ => rfl).bind _ t'
  rw [hrun, hdelete]
  obtain ⟨_, t₂, hrecord, hleads₂⟩ := (quiet_record _ _ _).bind _ t₁
  rw [hrecord]
  obtain ⟨available, t₃, havailable, hleads₃⟩ := quiet_availableSat.bind _ t₂
  rw [havailable, sendResponse_apply]
  exact ⟨_, hleads.trans (hleads₁.trans (hleads₂.trans (hleads₃.trans (leads_noting t₃ _))))⟩

end LockInvoice

/-- The server with another wallet. -/
def withWallet (wallet : Wallet) : ClinkServer := { t.server with wallet := wallet }

/-- Whether a reservation fits does not depend on the requests of the wallet. -/
theorem locksAt_withWallet {wallet : Wallet} (h : wallet.lnworker = t.server.wallet.lnworker)
    (ticks n : ℕ) (amountSat : ℤ) :
    (t.after ticks 0 (t.withWallet wallet)).LocksAt n amountSat ↔ t.LocksAt n amountSat := by
  have hcapacity : (t.after ticks 0 (t.withWallet wallet)).capacityAt t.asks =
      t.capacityAt t.asks := by
    show receivableCapacitySat (wallet.lnworker.map fun _ => t.receivable t.asks) = _
    rw [h]
    rfl
  show 0 < amountSat ∧ amountSat ≤ LiquidityReserver.availableSat _
    ((t.after ticks 0 (t.withWallet wallet)).capacityAt t.asks) _ ↔ _
  rw [hcapacity]
  rfl

/-- The guarded wallet calls come first. -/
theorem issueInvoice_apply (env : Env) (calls : Calls) (event : Event) (offer : Option Offer)
    (amountSat : ℤ) (description : Option String) (selftest : Bool)
    {bolt11 : Option Bolt11} {wallet : Wallet}
    (hcreated : t.server.wallet.createInvoice calls (t.clock t.ticks) amountSat
      (invoiceMessage env.tables (offer.map Offer.label) description)
      t.server.invoiceExpirySec = (bolt11, wallet)) :
    issueInvoice env calls event offer amountSat description selftest t =
      bolt11.elim (sendResponse calls (errorPayload errTemporaryFailure "Temporary Failure"))
        (fun bolt11 => lockInvoice calls event offer amountSat selftest t.server.invoiceExpirySec
          bolt11) (t.after 1 0 (t.withWallet wallet)) := by
  have hserver : (t.after 1 0 t.server).server = t.server := rfl
  unfold issueInvoice
  rw [Act.bind_of_returned (self_apply t), Act.bind_of_returned (time_apply t),
    Act.bind_of_returned (self_apply _), hserver, hcreated]
  cases bolt11 <;> rfl

/-- A wallet call that raised is answered with an error. -/
theorem issueInvoice_raised (env : Env) (calls : Calls) (event : Event) (offer : Option Offer)
    (amountSat : ℤ) (description : Option String) (selftest : Bool) {wallet : Wallet}
    (hcreated : t.server.wallet.createInvoice calls (t.clock t.ticks) amountSat
      (invoiceMessage env.tables (offer.map Offer.label) description)
      t.server.invoiceExpirySec = (none, wallet)) :
    t.Leads [.sendResponse (errorPayload errTemporaryFailure "Temporary Failure")]
      (issueInvoice env calls event offer amountSat description selftest t).2 := by
  rw [issueInvoice_apply t env calls event offer amountSat description selftest hcreated,
    Option.elim_none, sendResponse_apply]
  exact (leads_after t 1 0 (t.withWallet wallet) rfl).trans (leads_noting _ _)

/-- Every run of `_issue_invoice` goes one of the four ways. -/
theorem issueInvoice_turn (env : Env) (calls : Calls) (event : Event) (offer : Option Offer)
    (amountSat : ℤ) (description : Option String) (selftest : Bool) :
    IssueTurn calls amountSat selftest t
      (issueInvoice env calls event offer amountSat description selftest t).2 := by
  rcases hcreate : calls.createRequest with _ | rhash
  · have hcreated : t.server.wallet.createInvoice calls (t.clock t.ticks) amountSat
        (invoiceMessage env.tables (offer.map Offer.label) description)
        t.server.invoiceExpirySec = (none, t.server.wallet) := by
      rw [Wallet.createInvoice, hcreate]
    exact .raised (.inl hcreate) (issueInvoice_raised t env calls event offer amountSat description
      selftest hcreated)
  · obtain ⟨wallet, hcreated, hlnworker⟩ : ∃ wallet : Wallet,
        t.server.wallet.createInvoice calls (t.clock t.ticks) amountSat
          (invoiceMessage env.tables (offer.map Offer.label) description)
          t.server.invoiceExpirySec =
            (if calls.answered t.server.wallet then
              some ⟨rhash, amountSat, invoiceMessage env.tables (offer.map Offer.label)
                description, t.clock t.ticks, t.server.invoiceExpirySec⟩
            else none, wallet) ∧
        wallet.lnworker = t.server.wallet.lnworker :=
      ⟨_, Wallet.createInvoice_of_some hcreate _ _ _ _, rfl⟩
    set bolt11 : Bolt11 := ⟨rhash, amountSat, invoiceMessage env.tables (offer.map Offer.label)
      description, t.clock t.ticks, t.server.invoiceExpirySec⟩ with hbolt11
    have hlocks := t.locksAt_withWallet hlnworker 1 (t.ticks + 2) amountSat
    by_cases hanswered : calls.answered t.server.wallet = true
    · rw [if_pos hanswered] at hcreated
      -- the invoice exists; it remains to lock its liquidity
      have hrun := issueInvoice_apply t env calls event offer amountSat description selftest
        hcreated
      rw [Option.elim_some] at hrun
      have hstart := leads_after t 1 0 (t.withWallet wallet) rfl
      by_cases hlocked : t.LocksAt (t.ticks + 2) amountSat
      · obtain ⟨t', hleads, hheld, hlock⟩ := lockInvoice_locked
          (t.after 1 0 (t.withWallet wallet)) calls event offer amountSat selftest
          t.server.invoiceExpirySec bolt11 (hlocks.2 hlocked)
        have hleads := hstart.trans hleads
        rw [hrun, hlock]
        cases hself : selftest with
        | false =>
          -- a payer's invoice is marked for the dev fee before it is sent
          obtain ⟨server, hout, hdevfee, hreserver⟩ := handOut_issued t' calls event offer
            amountSat t.server.invoiceExpirySec bolt11
          rw [hout]
          refine .issued bolt11 t'.ticks hcreate rfl hanswered hlocked rfl
            ⟨hleads.ticks, Nat.le_add_right _ _⟩ hleads.clock ?_ ?_
          · obtain ⟨entries, hlog, hcalls⟩ := hleads.log
            refine ⟨entries ++ [(.markIssued bolt11.paymentHash, t'.server)], server, ?_, ?_, ?_⟩
            · show (t'.log ++ [_]) ++ [_] = _
              rw [hlog, ← List.append_assoc t.log]
              rfl
            · rw [List.map_append, hcalls]
              rfl
            · rw [hreserver]
              exact hheld
          · show server.devfee = _
            rw [hdevfee, hleads.devfee, hleads.clock]
        | true =>
          -- the invoice of a self-test is sent first and unwound afterwards
          obtain ⟨ticks, server, hout, hdevfee⟩ := handOut_selftest t' calls event offer amountSat
            t.server.invoiceExpirySec bolt11
          obtain ⟨entries, hlog, hcalls⟩ := hleads.log
          rw [hout]
          refine .selftest bolt11 hcreate rfl hanswered hlocked rfl
            ⟨entries, t'.server, ?_, hcalls, hheld⟩
            (hleads.trans ((leads_noting _ _).trans (leads_after _ ticks 0 _ hdevfee)))
          show t'.log ++ [_] = _
          rw [hlog]
      · obtain ⟨maxSat, hleads⟩ := lockInvoice_lost (t.after 1 0 (t.withWallet wallet)) calls
          event offer amountSat selftest t.server.invoiceExpirySec bolt11 (mt hlocks.1 hlocked)
        rw [hrun]
        exact .lostRace rhash maxSat hcreate hanswered hlocked (hstart.trans hleads)
    · rw [if_neg hanswered] at hcreated
      exact .raised (.inr (by simpa using hanswered)) (issueInvoice_raised t env calls event offer
        amountSat description selftest hcreated)

/-! ## Reporting a payment -/

section RequestStatus

variable (key : PaymentHash)

/-- Only the payment of a lightning request that the wallet holds is reacted to. -/
theorem onEventRequestStatus_ignored {status : InvoiceStatus}
    (h : status = .paid → ∀ request, t.server.wallet.requests.get? key = some request →
      request.isLightning = false) : (onEventRequestStatus key status t).2 = t := by
  unfold onEventRequestStatus
  by_cases hstatus : status = .paid
  swap
  · rw [if_pos hstatus]
    rfl
  rw [if_neg (not_not.2 hstatus), Act.bind_of_returned (self_apply t)]
  rcases hget : t.server.wallet.requests.get? key with _ | request
  · rfl
  · have hlight := h hstatus request hget
    simp only [hlight, Bool.not_false, if_true]
    rfl

/-- The hash of a paid request is taken from the ledger, and its fee accrues if it was there. -/
theorem onEventRequestStatus_paid {request : WalletRequest}
    (hget : t.server.wallet.requests.get? key = some request)
    (hlight : request.isLightning = true) :
    (onEventRequestStatus key .paid t).2.server.devfee.pending =
        t.server.devfee.pending.erase key ∧
      (onEventRequestStatus key .paid t).2.trace = t.trace ++
        (if key ∈ t.server.devfee.pending ∧ 0 < request.amountSat then
          [.accrue key request.amountSat] else []) := by
  -- the reservation is released and the receipt owed before the ledger is looked at
  set s : ClinkServer := { t.server with
    reserver := t.server.reserver.release key
    receipts := (t.server.receipts.markDue (t.clock t.ticks) key).2 } with hs
  have hrun : onEventRequestStatus key .paid t =
      (if (t.server.devfee.takeIssued key).1 then
        if request.amountSat > 0 then do
          note (.accrue key request.amountSat)
          update fun s => { s with devfee :=
            (s.devfee.accrue s.devfeeEnabled s.devfeeRatePercent request.amountSat).2 }
        else pure ()
      else (pure () : Handler Unit))
        (t.after 1 0 { s with devfee := (t.server.devfee.takeIssued key).2 }) := by
    unfold onEventRequestStatus
    rw [if_neg (not_not.2 rfl), Act.bind_of_returned (self_apply t), hget]
    simp only [hlight, Bool.not_true, Bool.false_eq_true, if_false]
    rfl
  rw [hrun]
  by_cases hmem : key ∈ t.server.devfee.pending
  · have htake : t.server.devfee.takeIssued key =
        (true, { t.server.devfee with pending := t.server.devfee.pending.erase key }) :=
      if_pos hmem
    rw [htake]
    by_cases hpos : 0 < request.amountSat
    · obtain ⟨balance, -, haccrue⟩ := DevFeeLedger.accrue_snd
        { t.server.devfee with pending := t.server.devfee.pending.erase key }
        t.server.devfeeEnabled t.server.devfeeRatePercent request.amountSat
      simp only [hmem, hpos, and_self]
      refine ⟨?_, trace_noting _ _⟩
      exact congrArg DevFeeLedger.pending haccrue
    · simp only [hpos, and_false, if_false, List.append_nil]
      exact ⟨rfl, rfl⟩
  · have htake : t.server.devfee.takeIssued key = (false, t.server.devfee) := if_neg hmem
    rw [htake]
    simp only [hmem, false_and, if_false, List.append_nil]
    refine ⟨?_, rfl⟩
    rw [Dict.erase_of_notMem hmem]
    rfl

end RequestStatus

end Turn

end ElectrumClink
