import ElectrumClink.Server.Issue

/-!
# What a dispatched event leaves behind

`_dispatch` drops an event, refuses the request it carries or issues an invoice for it.
`dispatch_outcome` gives the state in each of the three cases; `Accepts` spells out the checks
that an event passes before it is answered.
-/

namespace ElectrumClink

/-- The acceptance window: `created_at` is neither stale nor too far in the future. -/
def InWindow (now : Time) (createdAt : ℤ) : Prop :=
  wholeSeconds now - maxRequestAgeSec ≤ createdAt ∧ createdAt ≤ wholeSeconds now + maxClockSkewSec

instance (now : Time) (createdAt : ℤ) : Decidable (InWindow now createdAt) :=
  inferInstanceAs (Decidable (wholeSeconds now - maxRequestAgeSec ≤ createdAt ∧
    createdAt ≤ wholeSeconds now + maxClockSkewSec))

/-- A window that is open at two moments is open in between. -/
theorem InWindow.between {t₁ t t₂ : Time} {createdAt : ℤ} (h₁ : InWindow t₁ createdAt)
    (h₂ : InWindow t₂ createdAt) (hle₁ : t₁ ≤ t) (hle₂ : t ≤ t₂) : InWindow t createdAt := by
  have hfloor₁ := wholeSeconds_mono hle₁
  have hfloor₂ := wholeSeconds_mono hle₂
  unfold InWindow at *
  omega

namespace ClinkServer

/-- The checks an event passes on its way to being answered as `req`. -/
structure Accepts (env : Env) (now : Time) (event : Event) (req : Request) (s : ClinkServer) :
    Prop where
  notPing : event.id ∉ s.pendingPings
  kind : event.kind = clinkEventKind
  notOwn : event.pubkey ≠ env.pubkeyHex
  unexpired : env.isExpired event now = some false
  inWindow : InWindow now event.createdAt
  request : decryptRequest env event = some req
  unseen : event.id ∉ s.seenEvents.items

/-- The state in which an accepted event is resolved: its id is remembered, lapsed self-test payers
and reservations are gone. -/
def gated (s : ClinkServer) (now : Time) (event : Event) : ClinkServer :=
  { s with
    seenEvents := s.seenEvents.push event.id
    selftestPayers := s.selftestPayers.filter fun _ exp => !decide (exp ≤ now)
    reserver := s.reserver.sweep now }

section Gated

variable (s : ClinkServer) (now : Time) (event : Event)

@[simp]
theorem gated_receipts : (s.gated now event).receipts = s.receipts := by
  simp only [gated]

@[simp]
theorem gated_reserver : (s.gated now event).reserver = s.reserver.sweep now := by
  simp only [gated]

@[simp]
theorem gated_wallet : (s.gated now event).wallet = s.wallet := by
  simp only [gated]

@[simp]
theorem gated_seenEvents :
    (s.gated now event).seenEvents = s.seenEvents.push event.id := by
  simp only [gated]

@[simp]
theorem gated_capacity : (s.gated now event).capacity = s.capacity := by
  simp only [gated, capacity]

end Gated

variable {env : Env} {calls : Calls} {now : Time} {event : Event} {s : ClinkServer}

/-- An event that passes every check is answered, and its id remembered. -/
theorem accept_of_accepts {req : Request} (h : s.Accepts env now event req) :
    s.accept env now event =
      (some req, { s with seenEvents := s.seenEvents.push event.id }) := by
  have hwindow : wholeSeconds now - maxRequestAgeSec ≤ event.createdAt ∧
      event.createdAt ≤ wholeSeconds now + maxClockSkewSec := h.inWindow
  simp [accept, alreadySeen, h.notPing, h.kind, h.notOwn, h.unexpired, hwindow, h.request,
    h.unseen]

/-- An event that fails a check is dropped; only a self-ping leaves a trace, and not among the
remembered ids. -/
theorem accept_of_not_accepts (h : ∀ req, ¬ s.Accepts env now event req) :
    ∃ pings, s.accept env now event = (none, { s with pendingPings := pings }) := by
  unfold accept
  split
  next => exact ⟨_, rfl⟩
  next hping =>
    refine ⟨s.pendingPings, ?_⟩
    split
    next => rfl
    next hkind =>
      split
      next => rfl
      next hown =>
        split
        next => rfl
        next hexpired =>
          split
          next => rfl
          next hwindow =>
            split
            next => rfl
            next req hreq =>
              -- every check but the replay guard was passed
              have hseen : event.id ∈ s.seenEvents.items := by
                by_contra hunseen
                exact h req ⟨hping, not_not.1 hkind, hown, not_not.1 hexpired, not_not.1 hwindow,
                  hreq, hunseen⟩
              simp [alreadySeen, hseen]

section Conclude

variable {req : Request} {selftest : Bool} {offer : Option Offer}

theorem conclude_sendError (code : ℤ) (message : String) (range : Option (ℤ × ℤ)) :
    s.conclude env calls now event req selftest offer (.sendError (.error code message range)) =
      let s := s.record now ((requestOfferId req).getD "") (requestAmountSat req)
        ("error " ++ toString code ++ if selftest then " (self-test)" else "")
      (s.sendResponse calls (.error code message range), s) := rfl

theorem conclude_of_overCap {amountSat : ℤ}
    (h : (!selftest &&
      decide (s.receipts.pendingCountFor now event.pubkey ≥ maxPendingPerPayer)) = true) :
    s.conclude env calls now event req selftest offer (.issueInvoice amountSat) =
      let s := s.record now ((requestOfferId req).getD "") (some amountSat)
        "error 2 (payer request cap)"
      (s.sendResponse calls (errorPayload errTemporaryFailure "Temporary Failure"), s) :=
  if_pos h

theorem conclude_of_underCap {amountSat : ℤ}
    (h : ¬ (!selftest &&
      decide (s.receipts.pendingCountFor now event.pubkey ≥ maxPendingPerPayer)) = true) :
    s.conclude env calls now event req selftest offer (.issueInvoice amountSat) =
      issueInvoice env calls now event offer amountSat
        (effectiveDescription env.tables offer req) selftest s :=
  if_neg h

end Conclude

/-- An accepted request is resolved against the liquidity available once lapsed reservations are
gone. -/
theorem dispatch_of_accepts {req : Request} (h : s.Accepts env now event req) :
    s.dispatch env calls now event =
      let offer := (requestOfferId req).bind s.offers.get
      let r := (s.gated now event).conclude env calls now event req
        (s.isSelftestPayer now event.pubkey).1 offer
        (resolveRequest req offer (s.reserver.availableSat s.capacity now) 1)
      (some r.1, r.2) := by
  have hanswer : answer env calls now event req
      { s with seenEvents := s.seenEvents.push event.id } =
        (s.gated now event).conclude env calls now event req
          (s.isSelftestPayer now event.pubkey).1 ((requestOfferId req).bind s.offers.get)
          (resolveRequest req ((requestOfferId req).bind s.offers.get)
            (s.reserver.availableSat s.capacity now) 1) := by
    simp only [answer, isSelftestPayer, gated, capacity]
  rw [dispatch, accept_of_accepts h]
  dsimp only
  rw [hanswer]

/-- What `_dispatch` can do with an event. -/
inductive DispatchOutcome (env : Env) (calls : Calls) (now : Time) (event : Event)
    (s : ClinkServer) : Option Reply × ClinkServer → Prop
  /-- The event fails a check and gets no answer. -/
  | dropped (pings : List EventId) (hdropped : ∀ req, ¬ s.Accepts env now event req) :
      DispatchOutcome env calls now event s (none, { s with pendingPings := pings })
  /-- The request is answered with an error. -/
  | refused (req : Request) (payload : Payload) (offerId : String) (amount : Option ℤ)
      (result : String) (haccepts : s.Accepts env now event req)
      (herror : ∀ bolt11, payload ≠ .success bolt11) :
      DispatchOutcome env calls now event s
        (some (((s.gated now event).record now offerId amount result).sendResponse calls payload),
          (s.gated now event).record now offerId amount result)
  /-- An invoice is issued for an amount within the available liquidity, to a payer below the cap
  unless the request is a self-test. -/
  | issuing (req : Request) (offer : Option Offer) (amountSat : ℤ) (description : Option String)
      (reply : Reply) (s' : ClinkServer) (haccepts : s.Accepts env now event req)
      (hamount : 0 < amountSat ∧ amountSat ≤ s.reserver.availableSat s.capacity now)
      (hcap : (s.isSelftestPayer now event.pubkey).1 = false →
        s.receipts.pendingCountFor now event.pubkey < maxPendingPerPayer)
      (hissue : issueInvoice env calls now event offer amountSat description
        (s.isSelftestPayer now event.pubkey).1 (s.gated now event) = (reply, s')) :
      DispatchOutcome env calls now event s (some reply, s')

/-- Every dispatched event has one of the three outcomes. -/
theorem dispatch_outcome (env : Env) (calls : Calls) (now : Time) (event : Event)
    (s : ClinkServer) : DispatchOutcome env calls now event s (s.dispatch env calls now event) := by
  by_cases haccepts : ∃ req, s.Accepts env now event req
  · obtain ⟨req, haccepts⟩ := haccepts
    set offer := (requestOfferId req).bind s.offers.get with hoffer
    rw [dispatch_of_accepts haccepts, ← hoffer]
    dsimp only
    -- an accepted request fails the resolution, fails the cap or gets its invoice
    rcases hresolve : resolveRequest req offer (s.reserver.availableSat s.capacity now) 1
      with amountSat | payload
    · obtain ⟨-, -, hmin, hmax⟩ := resolveRequest_eq_issueInvoice_iff.1 hresolve
      by_cases hover : (!(s.isSelftestPayer now event.pubkey).1 &&
          decide ((s.gated now event).receipts.pendingCountFor now event.pubkey ≥
            maxPendingPerPayer)) = true
      · rw [conclude_of_overCap hover]
        exact .refused req _ _ _ _ haccepts fun bolt11 => by simp [errorPayload]
      · rw [conclude_of_underCap hover]
        refine .issuing req offer amountSat _ _ _ haccepts ⟨by omega, hmax⟩ (fun hself => ?_)
          Prod.mk.eta.symm
        by_contra hle
        exact hover (by simpa [hself] using hle)
    · obtain ⟨code, message, range, rfl⟩ := exists_error_of_resolveRequest hresolve
      rw [conclude_sendError]
      exact .refused req _ _ _ _ haccepts fun bolt11 => by simp
  · obtain ⟨pings, hdropped⟩ := accept_of_not_accepts (not_exists.1 haccepts)
    rw [dispatch, hdropped]
    exact .dropped pings (not_exists.1 haccepts)

end ClinkServer

end ElectrumClink
