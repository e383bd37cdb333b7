import ElectrumClink.Protocol.Memo
import ElectrumClink.Server.Overcommit
import ElectrumClink.Settings
import Mathlib.Data.Fintype.EquivFin

/-!
# Which settings lock liquidity

An invoice locks its amount from the moment it is answered with until it expires, that is for
`invoice_expiry_sec`. A reservation that expires at once is swept by the next read, so an expiry of
zero, which `WalletSettings.set` accepts as it does any integer, locks nothing.

`Burst` is a server that answers one request after the other while the clock stands still.
`reservedSat_withReservation` says what one answer does to the reserved total, and
`accepted_expiry_locks_iff` for which accepted values the amounts answered with stay within what was
available.
-/

namespace ElectrumClink

namespace LiquidityReserver

theorem total_congr {r r' : LiquidityReserver}
    (h : ∀ k, r.reservations.get? k = r'.reservations.get? k) : r.total = r'.total :=
  Dict.sum_eq_of_get? h _

/-- Dropping reservations that have expired changes nothing about what is reserved. -/
theorem Lapses.reservedSat {now : Time} {r r' : LiquidityReserver} (h : r.Lapses now r') :
    r'.reservedSat now = r.reservedSat now := by
  apply total_congr
  intro k
  ext res
  rw [get?_sweep, get?_sweep]
  constructor
  · rintro ⟨hk, hlive⟩
    exact ⟨h.subset k res hk, hlive⟩
  · rintro ⟨hk, hlive⟩
    exact ⟨h.kept k res hk hlive, hlive⟩

/-- A new reservation counts until it expires, which may be at once. -/
theorem reservedSat_set {r : LiquidityReserver} {key : PaymentHash}
    (hfresh : key ∉ r.reservations) (now : Time) (res : Reservation) :
    (LiquidityReserver.mk ((r.sweep now).reservations.set key res)).reservedSat now =
      r.reservedSat now + if now < res.expiresAt then res.amountSat else 0 := by
  have hswept : key ∉ (r.sweep now).reservations := by
    -- sweeping only drops keys
    intro hmem
    obtain ⟨old, hold⟩ := Dict.mem_iff_exists_get?.1 hmem
    exact hfresh (Dict.mem_of_get? (get?_sweep.1 hold).1)
  split
  next hlive =>
    have hsame : (LiquidityReserver.mk ((r.sweep now).reservations.set key res)).reservedSat now =
        (LiquidityReserver.mk ((r.sweep now).reservations.set key res)).total := by
      apply total_congr
      intro k
      ext old
      rw [get?_sweep, Dict.get?_set]
      split
      next =>
        rw [Option.some.injEq, and_iff_left_iff_imp]
        rintro rfl
        exact hlive
      next =>
        rw [get?_sweep, and_assoc, and_self]
    rw [hsame, total, Dict.sum_set_of_notMem hswept, LiquidityReserver.reservedSat, total]
  next hexpired =>
    -- the next read sweeps it
    rw [add_zero]
    apply total_congr
    intro k
    ext old
    rw [get?_sweep, Dict.get?_set]
    split
    next hk =>
      subst hk
      rw [get?_sweep, Dict.get?_eq_none_iff.2 hfresh]
      constructor
      · rintro ⟨hold, hlive⟩
        obtain rfl := Option.some.inj hold
        exact absurd hlive hexpired
      · rintro ⟨⟨⟩, -⟩
    next => rw [get?_sweep, and_assoc, and_self]

end LiquidityReserver

namespace ClinkServer

variable {env : Env} {calls : Calls} {now : Time} {event : Event} {s : ClinkServer}
  {bolt11 : Bolt11}

/-- `available_sat()` of the server's reserver. -/
def availableSat (s : ClinkServer) (now : Time) : ℤ := s.reserver.availableSat s.capacity now

/-- A dispatch leaves the invoice expiry alone. -/
theorem dispatch_invoiceExpirySec (env : Env) (calls : Calls) (now : Time) (event : Event)
    (s : ClinkServer) :
    (s.dispatch env calls now event).2.invoiceExpirySec = s.invoiceExpirySec := by
  have hdispatch := dispatch_outcome env calls now event s
  generalize s.dispatch env calls now event = result at hdispatch ⊢
  cases hdispatch with
  | dropped => rfl
  | refused => simp only [record, gated]
  | issuing req offer amountSat description reply s' haccepts hamount hcap hissue =>
    have hkept := (issueInvoice_keeps env calls now event offer amountSat description
      (s.isSelftestPayer now event.pubkey).1 (s.gated now event)).invoiceExpirySec
    rw [hissue] at hkept
    simpa only [gated] using hkept

theorem capacity_dispatch (env : Env) (calls : Calls) (now : Time) (event : Event)
    (s : ClinkServer) : (s.dispatch env calls now event).2.capacity = s.capacity := by
  rw [capacity, capacity, dispatch_lnworker]

/-- A request that is answered with an invoice gets its amount reserved for the configured time, and
changes no more of the server than any invoice does. -/
theorem dispatch_answered (hself : (s.isSelftestPayer now event.pubkey).1 = false)
    (h : World.handedOut false (s.dispatch env calls now event).1 = some bolt11) :
    calls.createRequest = some bolt11.paymentHash ∧
      bolt11.expiresAt = now + s.invoiceExpirySec ∧ s.Fits now bolt11.amountSat ∧
      (s.dispatch env calls now event).2.reserver = (s.withReservation now bolt11).reserver ∧
      (s.gated now event).IssueKeeps (s.dispatch env calls now event).2 := by
  have hdispatch := dispatch_outcome env calls now event s
  generalize s.dispatch env calls now event = result at h hdispatch ⊢
  cases hdispatch with
  | dropped => cases h
  | refused req payload offerId amount result haccepts herror =>
    rw [handedOut_sendResponse _ calls _ herror] at h
    cases h
  | issuing req offer amountSat description reply s' haccepts hamount hcap hissue =>
    have hout := issueInvoice_outcome env calls now event offer amountSat description false
      (s.gated now event)
    have hkeeps := issueInvoice_keeps env calls now event offer amountSat description false
      (s.gated now event)
    rw [hself] at hissue
    rw [hissue] at hout hkeeps
    obtain ⟨payload, delivery⟩ := reply
    cases payload with
    | success issued =>
      obtain rfl := Option.some.inj h
      obtain ⟨hnew, rfl⟩ := issued_of_success hout
      refine ⟨hnew.created, hnew.expiresAt, ?_, ?_, hkeeps⟩
      · rw [hnew.amount]
        refine ⟨hamount.1, ?_⟩
        -- a positive amount within what is available is within what is left of the capacity
        have hle := hamount.2
        rw [LiquidityReserver.availableSat] at hle
        omega
      · simp only [rememberInvoice_reserver, withReservation, withRequest_reserver, gated_reserver,
          LiquidityReserver.sweep_sweep]
    | _ => cases h

/-- What is reserved once an invoice is locked: its amount is added if it does not expire at
once. -/
theorem reservedSat_withReservation (hfresh : bolt11.paymentHash ∉ s.reserver.reservations)
    (hexpires : bolt11.expiresAt = now + s.invoiceExpirySec) :
    (s.withReservation now bolt11).reserver.reservedSat now =
      s.reserver.reservedSat now + if 0 < s.invoiceExpirySec then bolt11.amountSat else 0 := by
  have hset := LiquidityReserver.reservedSat_set hfresh now
    ⟨bolt11.paymentHash, bolt11.amountSat, bolt11.expiresAt⟩
  have hlive : now < bolt11.expiresAt ↔ 0 < s.invoiceExpirySec := by
    rw [hexpires, lt_add_iff_pos_right, Int.cast_pos]
  simp only [hlive] at hset
  exact hset

end ClinkServer

/-! ## Requests at one moment -/

/-- A relay event, with what the wallet and the taskgroup answer while it is dispatched. -/
structure Arrival where
  event : Event
  calls : Calls

/-- A server at one moment, with the amounts of the invoices that it has answered with. -/
structure Burst where
  server : ClinkServer
  answered : List ℤ

namespace Burst

/-- No request has been dispatched yet. -/
def start (s : ClinkServer) : Burst := ⟨s, []⟩

/-- The invoice that a request is answered with, if it is. -/
def answer (env : Env) (now : Time) (b : Burst) (a : Arrival) : Option Bolt11 :=
  World.handedOut false (b.server.dispatch env a.calls now a.event).1

/-- Dispatch one request. -/
def step (env : Env) (now : Time) (b : Burst) (a : Arrival) : Option Burst :=
  some ⟨(b.server.dispatch env a.calls now a.event).2,
    b.answered ++ ((b.answer env now a).map Bolt11.amountSat).toList⟩

/-- A request that is no self-test. The wallet draws a random preimage for it, so its payment hash
is none of those with a reservation. -/
structure Genuine (now : Time) (b : Burst) (a : Arrival) : Prop where
  notSelftest : (b.server.isSelftestPayer now a.event.pubkey).1 = false
  fresh : ∀ rhash ∈ a.calls.createRequest, rhash ∉ b.server.reserver.reservations

instance (now : Time) (b : Burst) (a : Arrival) : Decidable (b.Genuine now a) :=
  decidable_of_iff ((b.server.isSelftestPayer now a.event.pubkey).1 = false ∧
    ∀ rhash ∈ a.calls.createRequest, rhash ∉ b.server.reserver.reservations)
    ⟨fun ⟨h₁, h₂⟩ => ⟨h₁, h₂⟩, fun h => ⟨h.1, h.2⟩⟩

/-- The states that requests reach, one dispatched after the other. -/
abbrev Reachable (env : Env) (now : Time) (s : ClinkServer) (b : Burst) : Prop :=
  Transition.Reachable (step env now) (Genuine now) (start s) b

variable {env : Env} {now : Time} {s : ClinkServer} {b b' : Burst} {a : Arrival}

/-- What answering a request does to the reserved total. -/
theorem reservedSat_of_answer {bolt11 : Bolt11} (hgenuine : b.Genuine now a)
    (hanswer : b.answer env now a = some bolt11) :
    b.server.Fits now bolt11.amountSat ∧
      (b.server.dispatch env a.calls now a.event).2.reserver.reservedSat now =
        b.server.reserver.reservedSat now +
          if 0 < b.server.invoiceExpirySec then bolt11.amountSat else 0 := by
  obtain ⟨hcreated, hexpires, hfits, hreserver, -⟩ :=
    ClinkServer.dispatch_answered hgenuine.notSelftest hanswer
  refine ⟨hfits, ?_⟩
  rw [hreserver]
  exact ClinkServer.reservedSat_withReservation (hgenuine.fresh _ hcreated) hexpires

/-- A request that is not answered with an invoice takes nothing away from what is reserved. -/
theorem reservedSat_of_not_answered (hgenuine : b.Genuine now a)
    (hanswer : b.answer env now a = none) :
    b.server.reserver.reservedSat now ≤
      (b.server.dispatch env a.calls now a.event).2.reserver.reservedSat now := by
  have hchange := ClinkServer.dispatch_liquidity env now a.event hgenuine.fresh
  rw [hgenuine.notSelftest] at hchange
  have hnone : World.handedOut false (b.server.dispatch env a.calls now a.event).1 = none := hanswer
  rw [hnone] at hchange
  generalize (b.server.dispatch env a.calls now a.event).2.reserver = reserver at hchange ⊢
  cases hchange with
  | lapsed hlapses => exact hlapses.reservedSat.ge
  | locked bolt11 _ hcreated hfits =>
    have hset := LiquidityReserver.reservedSat_set (hgenuine.fresh _ hcreated) now
      ⟨bolt11.paymentHash, bolt11.amountSat, bolt11.expiresAt⟩
    have hle : b.server.reserver.reservedSat now ≤ b.server.reserver.reservedSat now +
        if now < bolt11.expiresAt then bolt11.amountSat else 0 := by
      have hpos := hfits.1
      split <;> omega
    exact hle.trans hset.ge

/-- What holds while requests arrive: capacity and expiry stay, nothing that was reserved is given
up, and with a positive expiry the amounts answered with are reserved beside it. Where they are, or
where nothing was left to begin with, they fit into the capacity. -/
structure BurstInv (now : Time) (s : ClinkServer) (b : Burst) : Prop where
  capacity : b.server.capacity = s.capacity
  expiry : b.server.invoiceExpirySec = s.invoiceExpirySec
  reserved : s.reserver.reservedSat now + (if 0 < s.invoiceExpirySec then b.answered.sum else 0) ≤
    b.server.reserver.reservedSat now
  fits : 0 < s.invoiceExpirySec ∨ s.capacity ≤ s.reserver.reservedSat now →
    b.answered = [] ∨ s.reserver.reservedSat now + b.answered.sum ≤ s.capacity

theorem burstInv_start : BurstInv now s (start s) where
  capacity := rfl
  expiry := rfl
  reserved := by
    show _ + (if 0 < s.invoiceExpirySec then 0 else 0) ≤ s.reserver.reservedSat now
    rw [ite_self, add_zero]
  fits _ := .inl rfl

theorem burstInv_step (hinv : BurstInv now s b) (hgenuine : b.Genuine now a)
    (h : step env now b a = some b') : BurstInv now s b' := by
  obtain rfl := Option.some.inj h
  have hcapacity := ClinkServer.capacity_dispatch env a.calls now a.event b.server
  have hexpiry := ClinkServer.dispatch_invoiceExpirySec env a.calls now a.event b.server
  have hreserved := hinv.reserved
  rcases hanswer : b.answer env now a with _ | bolt11
  · have hkept := reservedSat_of_not_answered hgenuine hanswer
    refine ⟨hcapacity.trans hinv.capacity, hexpiry.trans hinv.expiry, ?_, ?_⟩
    · simpa using hreserved.trans hkept
    · simpa using hinv.fits
  · obtain ⟨⟨hpos, hfits⟩, hadded⟩ := reservedSat_of_answer hgenuine hanswer
    rw [hinv.expiry] at hadded
    rw [hinv.capacity] at hfits
    refine ⟨hcapacity.trans hinv.capacity, hexpiry.trans hinv.expiry, ?_, fun hcase => ?_⟩
    · simp only [hadded, Option.map_some, Option.toList_some, List.sum_append, List.sum_singleton]
      by_cases hexpires : 0 < s.invoiceExpirySec
      · simp only [if_pos hexpires] at hreserved ⊢
        omega
      · simpa only [if_neg hexpires, add_zero] using hreserved
    · right
      simp only [Option.map_some, Option.toList_some, List.sum_append, List.sum_singleton]
      -- the amount fitted beside all that was reserved when it was answered
      rcases hcase with hexpires | hfull
      · rw [if_pos hexpires] at hreserved
        omega
      · split at hreserved <;> omega

theorem burstInv_of_reachable (h : Reachable env now s b) : BurstInv now s b :=
  h.invariant burstInv_start fun _ _ _ => burstInv_step

/-- One answer lowers what is available by its amount if and only if the expiry is positive. -/
theorem availableSat_of_answer {bolt11 : Bolt11} (hgenuine : b.Genuine now a)
    (hanswer : b.answer env now a = some bolt11) :
    (b.server.dispatch env a.calls now a.event).2.availableSat now =
        b.server.availableSat now - bolt11.amountSat ↔ 0 < b.server.invoiceExpirySec := by
  obtain ⟨⟨hpos, hfits⟩, hadded⟩ := reservedSat_of_answer hgenuine hanswer
  have hcapacity := ClinkServer.capacity_dispatch env a.calls now a.event b.server
  simp only [ClinkServer.availableSat, LiquidityReserver.availableSat, hadded, hcapacity]
  split <;> omega

/-! ## A server that answers -/

/-- An environment in which every event carries a request for one sat. -/
def asking : Env :=
  { Env.sample with
    decryptFrom := fun _ _ => some sampleRequest
    jsonLoads := fun _ => some (.object [("offer", .str "o"), ("amount_sats", .int 1)]) }

/-- A server that has the offer asked for, channels, and neither pings nor self-tests under way. -/
structure Serving (s : ClinkServer) : Prop where
  offer : s.offers.get "o" = some { offerId := "o" }
  channels : s.wallet.lnworker.isSome = true
  noPings : s.pendingPings = []
  noSelftests : s.selftestPayers = ∅

/-- A request for one sat, and an event that carries it. -/
def oneSat : Request := ((∅ : Request).set "offer" (.str "o")).set "amount_sats" (.int 1)

def oneSatEvent (now : Time) (payer : Pubkey) (id : EventId) : Event :=
  ⟨id, payer, clinkEventKind, wholeSeconds now, [], ""⟩

theorem Serving.notSelftest (hserving : Serving s) (now : Time) (payer : Pubkey) :
    (s.isSelftestPayer now payer).1 = false := by
  simp only [ClinkServer.isSelftestPayer, hserving.noSelftests]
  rfl

/-- A new event passes the checks, unless it is the server's own. -/
theorem Serving.accepts (hserving : Serving s) {payer : Pubkey} {id : EventId}
    (hpayer : payer ≠ "server") (hid : id ∉ s.seenEvents.items) :
    s.Accepts asking now (oneSatEvent now payer id) oneSat := by
  refine ⟨?_, rfl, hpayer, rfl, ?_, rfl, hid⟩
  · rw [hserving.noPings]
    exact List.not_mem_nil
  · rw [oneSatEvent, InWindow, maxRequestAgeSec, maxClockSkewSec]
    constructor <;> dsimp only <;> omega

theorem resolveRequest_oneSat (hleft : s.reserver.reservedSat now < s.capacity) :
    resolveRequest oneSat (some { offerId := "o" }) (s.reserver.availableSat s.capacity now) 1 =
      .issueInvoice 1 := by
  apply resolveRequest_eq_issueInvoice_iff.2
  refine ⟨⟨_, rfl, rfl, rfl⟩, by decide, le_rfl, ?_⟩
  rw [LiquidityReserver.availableSat]
  omega

/-- Where the wallet calls succeed the invoice is created, and one sat fits. -/
theorem Serving.handedOut_issueInvoice (hserving : Serving s)
    (hleft : s.reserver.reservedSat now < s.capacity) (rhash : PaymentHash) (event : Event)
    (offer : Option Offer) (description : Option String) :
    ∃ bolt11, World.handedOut false (ClinkServer.issueInvoice asking (.succeeding rhash) now event
      offer 1 description false (s.gated now event)).1 = some bolt11 ∧ bolt11.amountSat = 1 := by
  have hout := ClinkServer.issueInvoice_outcome asking (.succeeding rhash) now event offer 1
    description false (s.gated now event)
  generalize ClinkServer.issueInvoice asking (.succeeding rhash) now event offer 1 description false
    (s.gated now event) = result at hout ⊢
  cases hout with
  | notCreated hcreate => cases hcreate
  | failed bolt11 hnew hraised =>
    rw [ClinkServer.gated_wallet, Calls.answered, hserving.channels] at hraised
    cases hraised
  | lostRace bolt11 maxSat hnew hanswered hfits =>
    refine absurd ⟨one_pos, ?_⟩ hfits
    rw [ClinkServer.gated_reserver, ClinkServer.gated_capacity,
      (s.reserver.lapses_sweep now).reservedSat]
    omega
  | issued bolt11 hnew => exact ⟨bolt11, rfl, hnew.amount⟩
  | selftestRaised _ _ _ _ hselftest => cases hselftest
  | selftestUnwound _ _ _ _ hselftest => cases hselftest

/-- While a sat is left, there is a request for it that is answered. -/
theorem exists_answer (hserving : Serving b.server)
    (hleft : b.server.reserver.reservedSat now < b.server.capacity) :
    ∃ a bolt11, b.Genuine now a ∧ b.answer asking now a = some bolt11 ∧ bolt11.amountSat = 1 := by
  -- a new payer, a new event and a new payment hash
  obtain ⟨payer, hpayer⟩ := Infinite.exists_notMem_finset
    (insert "server" (b.server.receipts.pending.entries.map fun e => e.2.payer).toFinset)
  obtain ⟨id, hid⟩ := Infinite.exists_notMem_finset b.server.seenEvents.items.toFinset
  obtain ⟨rhash, hrhash⟩ := Infinite.exists_notMem_finset
    b.server.reserver.reservations.keys.toFinset
  simp only [Finset.mem_insert, List.mem_toFinset, not_or] at hpayer hid hrhash
  set event := oneSatEvent now payer id with hevent
  have haccepts : b.server.Accepts asking now event oneSat := hserving.accepts hpayer.1 hid
  have hself := hserving.notSelftest now event.pubkey
  have hoffer : (requestOfferId oneSat).bind b.server.offers.get = some { offerId := "o" } := by
    have hrequested : requestOfferId oneSat = some "o" := by decide
    rw [hrequested, Option.bind_some, hserving.offer]
  have hcap : ¬ (!(b.server.isSelftestPayer now event.pubkey).1 && decide
      ((b.server.gated now event).receipts.pendingCountFor now event.pubkey ≥
        maxPendingPerPayer)) = true := by
    have hnone : b.server.receipts.pendingCountFor now payer = 0 :=
      ReceiptRegistry.pendingCountFor_eq_zero now fun e he hsame =>
        hpayer.2 (List.mem_map.2 ⟨e, he, hsame⟩)
    simp [hnone, maxPendingPerPayer, event, oneSatEvent]
  obtain ⟨bolt11, hissued, hone⟩ := hserving.handedOut_issueInvoice hleft rhash event
    (some { offerId := "o" }) (effectiveDescription asking.tables (some { offerId := "o" }) oneSat)
  refine ⟨⟨event, .succeeding rhash⟩, bolt11, ⟨hself, ?_⟩, ?_, hone⟩
  · rintro _ ⟨⟩
    exact hrhash
  · rw [answer, ClinkServer.dispatch_of_accepts haccepts]
    simp only [hoffer, resolveRequest_oneSat hleft]
    rw [ClinkServer.conclude_of_underCap hcap, hself]
    exact hissued

/-- The server serves on, whatever it has answered. -/
theorem Serving.answered {bolt11 : Bolt11} (hserving : Serving b.server)
    (hgenuine : b.Genuine now a) (hanswer : b.answer env now a = some bolt11) :
    Serving (b.server.dispatch env a.calls now a.event).2 := by
  obtain ⟨-, -, -, -, hkeeps⟩ := ClinkServer.dispatch_answered hgenuine.notSelftest hanswer
  refine ⟨?_, ?_, ?_, ?_⟩
  · rw [hkeeps.offers]
    exact hserving.offer
  · rw [hkeeps.lnworker]
    exact hserving.channels
  · rw [hkeeps.pendingPings]
    exact hserving.noPings
  · rw [hkeeps.selftestPayers, ClinkServer.gated, hserving.noSelftests]
    rfl

/-- Without a positive expiry, a server that has a sat left answers any number of requests. -/
theorem exists_reachable_sum (hserving : Serving s) (hexpired : ¬ 0 < s.invoiceExpirySec)
    (hleft : s.reserver.reservedSat now < s.capacity) (n : ℕ) :
    ∃ b, Reachable asking now s b ∧ Serving b.server ∧
      b.server.reserver.reservedSat now = s.reserver.reservedSat now ∧ b.answered.sum = n := by
  induction n with
  | zero => exact ⟨start s, .init, hserving, rfl, rfl⟩
  | succ n ih =>
    obtain ⟨b, hb, hserves, hsame, hsum⟩ := ih
    have hinv := burstInv_of_reachable hb
    have hstill : b.server.reserver.reservedSat now < b.server.capacity := by
      rw [hsame, hinv.capacity]
      exact hleft
    obtain ⟨a, bolt11, hgenuine, hanswer, hone⟩ := exists_answer hserves hstill
    refine ⟨_, .next hb hgenuine rfl, hserves.answered hgenuine hanswer, ?_, ?_⟩
    · have hadded := (reservedSat_of_answer hgenuine hanswer).2
      rw [hinv.expiry, if_neg hexpired, add_zero, hsame] at hadded
      exact hadded
    · simp [hanswer, hone, hsum]

end Burst

/-! ## The settings -/

section Settings

variable {env : Env} {now : Time} {s : ClinkServer}

/-- The amounts of the invoices that requests at one moment are answered with add up to at most what
the reservations leave of the capacity. -/
def SumWithin (env : Env) (now : Time) (s : ClinkServer) : Prop :=
  ∀ b, Burst.Reachable env now s b →
    b.answered.sum ≤ max 0 (s.capacity - s.reserver.reservedSat now)

/-- Each invoice that a request is answered with lowers what is available by its amount. -/
def EachLowers (env : Env) (now : Time) (s : ClinkServer) : Prop :=
  ∀ b, Burst.Reachable env now s b → ∀ a, b.Genuine now a → ∀ bolt11,
    b.answer env now a = some bolt11 →
      (b.server.dispatch env a.calls now a.event).2.availableSat now =
        b.server.availableSat now - bolt11.amountSat

/-- A positive expiry locks, and where nothing is left no invoice is answered with. -/
theorem sumWithin_of_pos_or_full
    (h : 0 < s.invoiceExpirySec ∨ s.capacity ≤ s.reserver.reservedSat now) :
    SumWithin env now s := by
  intro b hb
  rcases (Burst.burstInv_of_reachable hb).fits h with hnone | hle
  · rw [hnone]
    exact le_max_left _ _
  · omega

theorem eachLowers_of_pos_or_full
    (h : 0 < s.invoiceExpirySec ∨ s.capacity ≤ s.reserver.reservedSat now) :
    EachLowers env now s := by
  intro b hb a hgenuine bolt11 hanswer
  have hinv := Burst.burstInv_of_reachable hb
  apply (Burst.availableSat_of_answer hgenuine hanswer).2
  rw [hinv.expiry]
  by_contra hexpired
  -- then nothing was left, and no amount fits
  have hfull := h.resolve_left hexpired
  have hreserved := hinv.reserved
  obtain ⟨⟨hpos, hfits⟩, -⟩ := Burst.reservedSat_of_answer hgenuine hanswer
  rw [if_neg hexpired, add_zero] at hreserved
  rw [hinv.capacity] at hfits
  omega

/-- Otherwise requests for one sat go on being answered. -/
theorem not_sumWithin (hserving : Burst.Serving s) (hexpired : ¬ 0 < s.invoiceExpirySec)
    (hleft : s.reserver.reservedSat now < s.capacity) : ¬ SumWithin Burst.asking now s := by
  intro hsum
  obtain ⟨b, hb, -, -, htotal⟩ := Burst.exists_reachable_sum hserving hexpired hleft
    ((s.capacity - s.reserver.reservedSat now).toNat + 1)
  have hle := hsum b hb
  rw [htotal] at hle
  omega

theorem not_eachLowers (hserving : Burst.Serving s) (hexpired : ¬ 0 < s.invoiceExpirySec)
    (hleft : s.reserver.reservedSat now < s.capacity) : ¬ EachLowers Burst.asking now s := by
  intro hlowers
  obtain ⟨a, bolt11, hgenuine, hanswer, -⟩ := Burst.exists_answer (b := .start s) hserving hleft
  have hlowered := hlowers _ .init a hgenuine bolt11 hanswer
  exact hexpired ((Burst.availableSat_of_answer hgenuine hanswer).1 hlowered)

end Settings

/-- A server with these reservations and this capacity, whose invoice expiry is the one that is
set. -/
structure SetUp (py : PyTables) (settings : WalletSettings) (reserver : LiquidityReserver)
    (numSatsCanReceive : ℤ) (s : ClinkServer) : Prop where
  reserver : s.reserver = reserver
  capacity : s.capacity = receivableCapacitySat (some numSatsCanReceive)
  expiry : settings.invoiceExpirySec py = .ok s.invoiceExpirySec

/-- Whatever value is accepted as the invoice expiry, it locks if and only if it is positive or
there is nothing to lock: then the amounts that any server with that expiry, these reservations and
this capacity answers with at one moment stay within what was left, and each answer lowers what is
available; and for no other value does either hold of every server. -/
theorem accepted_expiry_locks_iff {py : PyTables} {settings settings' : WalletSettings}
    {raw : Option SettingValue} {value : SettingValue}
    (hset : settings.set py "invoice_expiry_sec" raw = .ok (value, settings'))
    (reserver : LiquidityReserver) (numSatsCanReceive : ℤ) (now : Time) :
    ((∀ env s, SetUp py settings' reserver numSatsCanReceive s → SumWithin env now s) ↔
      (∃ expiry, value = .int expiry ∧ 0 < expiry) ∨
        receivableCapacitySat (some numSatsCanReceive) ≤ reserver.reservedSat now) ∧
    ((∀ env s, SetUp py settings' reserver numSatsCanReceive s → EachLowers env now s) ↔
      (∃ expiry, value = .int expiry ∧ 0 < expiry) ∨
        receivableCapacitySat (some numSatsCanReceive) ≤ reserver.reservedSat now) := by
  obtain ⟨expiry, rfl, hread⟩ := WalletSettings.invoiceExpirySec_set hset
  set condition := (∃ n, SettingValue.int expiry = .int n ∧ 0 < n) ∨
    receivableCapacitySat (some numSatsCanReceive) ≤ reserver.reservedSat now with hcondition
  have hlocks : condition → ∀ s, SetUp py settings' reserver numSatsCanReceive s →
      0 < s.invoiceExpirySec ∨ s.capacity ≤ s.reserver.reservedSat now := by
    rintro (⟨n, hn, hpos⟩ | hfull) s hs
    · left
      obtain rfl := SettingValue.int.inj hn
      obtain rfl := Except.ok.inj (hread.symm.trans hs.expiry)
      exact hpos
    · right
      rwa [hs.capacity, hs.reserver]
  -- a server over the same reservations that goes on answering
  set s : ClinkServer := { ClinkServer.sample numSatsCanReceive expiry with reserver := reserver }
  have hs : SetUp py settings' reserver numSatsCanReceive s := ⟨rfl, rfl, hread⟩
  have hserving : Burst.Serving s := ⟨rfl, rfl, rfl, rfl⟩
  have hleft : ¬ condition →
      ¬ 0 < s.invoiceExpirySec ∧ s.reserver.reservedSat now < s.capacity := by
    intro hnot
    obtain ⟨hexpiry, hleft⟩ := not_or.1 hnot
    exact ⟨fun hpos => hexpiry ⟨expiry, rfl, hpos⟩, not_le.1 hleft⟩
  constructor
  · refine ⟨fun h => ?_, fun h env s hs => sumWithin_of_pos_or_full (hlocks h s hs)⟩
    by_contra hnot
    exact not_sumWithin hserving (hleft hnot).1 (hleft hnot).2 (h _ s hs)
  · refine ⟨fun h => ?_, fun h env s hs => eachLowers_of_pos_or_full (hlocks h s hs)⟩
    by_contra hnot
    exact not_eachLowers hserving (hleft hnot).1 (hleft hnot).2 (h _ s hs)

/-- Python over ASCII texts, without texts of floats. -/
def PyTables.ascii : PyTables where
  toCharTables := .ascii
  decimal c := if c.isDigit then some (c.toNat - '0'.toNat) else none
  lower := String.toLower
  reprFloat _ := ""
  floatOfStr _ := none
  floatOfInt n := some (.finite n)

/-- A wallet that never set anything. -/
def WalletSettings.unset : WalletSettings := ⟨none, false, fun _ => none⟩

/-- With an expiry of 60 seconds nobody is promised more than the 150 sats there are. -/
theorem accepted_expiry_locks_iff_minute :
    ∃ settings', WalletSettings.unset.set .ascii "invoice_expiry_sec" (some (.str "60")) =
        .ok (.int 60, settings') ∧
      ∀ env s, SetUp .ascii settings' .init 150 s → SumWithin env 0 s := by
  have hset : ∃ settings', WalletSettings.unset.set .ascii "invoice_expiry_sec" (some (.str "60")) =
      .ok (.int 60, settings') := ⟨_, rfl⟩
  obtain ⟨settings', hset⟩ := hset
  exact ⟨settings', hset,
    (accepted_expiry_locks_iff hset .init 150 0).1.2 (.inl ⟨60, rfl, by decide⟩)⟩

/-- With an expiry of zero, which is accepted, two payers are promised the same 100 sats. -/
theorem zero_expiry_promises_twice :
    ∃ settings', WalletSettings.unset.set .ascii "invoice_expiry_sec" (some (.str "0")) =
        .ok (.int 0, settings') ∧
      settings'.invoiceExpirySec .ascii = .ok (ClinkServer.sample 100 0).invoiceExpirySec ∧
      ∃ b, Burst.Reachable .sample 0 (.sample 100 0) b ∧ b.answered = [100, 100] ∧
        (ClinkServer.sample 100 0).availableSat 0 = 100 := by
  refine ⟨_, rfl, rfl, ?_⟩
  have hrun : (Transition.exec (Transition.guarded (Burst.step .sample 0) (Burst.Genuine 0))
      (.start (.sample 100 0)) [⟨.sample "e" 0, .succeeding "r"⟩, ⟨.sample "f" 0,
        .succeeding "q"⟩]).any (fun b => decide (b.answered = [100, 100])) = true := by
    decide +kernel
  obtain ⟨b, hb, hanswered⟩ := Transition.exists_reachable_of_exec_guarded hrun
  exact ⟨b, hb, of_decide_eq_true hanswered, by decide +kernel⟩

end ElectrumClink
