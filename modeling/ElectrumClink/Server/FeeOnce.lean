import ElectrumClink.Data.GrowingList
import ElectrumClink.Data.Transition
import ElectrumClink.Server.TurnTrace

/-!
# One fee per paid invoice

`_issue_invoice` marks the hash of its invoice in a bounded, persisted map, and the notification
that a request was paid takes the hash out again and accrues. A run here is any sequence of the
two, of new sessions over the same storage and of changes of the wallet, over a clock that does not
go back.

`fee_accrues_once` shows that no hash accrues twice, that none accrues that was not marked, and that
a marked hash accrues when its payment is reported, unless `pendingMax` more were marked by then.
-/

namespace ElectrumClink

/-- The hash that a call marks, if any. -/
def ServerCall.marks : ServerCall → Option PaymentHash
  | .markIssued rhash => some rhash
  | .tryReserve .. | .sendResponse _ | .accrue .. => none

/-- The hash that a call accrues for, if any. -/
def ServerCall.accrues : ServerCall → Option PaymentHash
  | .accrue rhash _ => some rhash
  | .tryReserve .. | .markIssued _ | .sendResponse _ => none

/-- A handler that was run, and the calls it made. -/
inductive HandlerRun
  | issueInvoice (selftest : Bool) (calls : List ServerCall)
  | requestStatus (key : PaymentHash) (status : InvoiceStatus) (calls : List ServerCall)

namespace HandlerRun

def calls : HandlerRun → List ServerCall
  | issueInvoice _ calls => calls
  | requestStatus _ _ calls => calls

/-- The hashes marked in these runs. -/
def marked (log : List HandlerRun) : List PaymentHash :=
  (log.flatMap calls).filterMap ServerCall.marks

/-- The hashes accrued for in these runs, once for each time. -/
def accrued (log : List HandlerRun) : List PaymentHash :=
  (log.flatMap calls).filterMap ServerCall.accrues

theorem marked_append (log log' : List HandlerRun) :
    marked (log ++ log') = marked log ++ marked log' := by
  simp [marked]

theorem accrued_append (log log' : List HandlerRun) :
    accrued (log ++ log') = accrued log ++ accrued log' := by
  simp [accrued]

theorem mem_marked_singleton {run : HandlerRun} {rhash : PaymentHash} :
    rhash ∈ marked [run] ↔ .markIssued rhash ∈ run.calls := by
  simp only [marked, List.flatMap_cons, List.flatMap_nil, List.append_nil, List.mem_filterMap]
  constructor
  · rintro ⟨call, hmem, hmarks⟩
    cases call with
    | markIssued k =>
      obtain rfl : k = rhash := Option.some.inj hmarks
      exact hmem
    | tryReserve | sendResponse | accrue => simp [ServerCall.marks] at hmarks
  · intro hmem
    exact ⟨_, hmem, rfl⟩

/-- The run reports the payment of `rhash`. -/
def ReportsPaid (rhash : PaymentHash) (run : HandlerRun) : Prop :=
  ∃ calls, run = requestStatus rhash .paid calls

end HandlerRun

/-- A server, the last reading of the clock, and what was run so far. -/
structure FeeRun where
  now : Time
  server : ClinkServer
  /-- The payment hashes the wallet drew. -/
  drawn : List PaymentHash
  log : List HandlerRun

namespace FeeRun

/-- What can happen next. A handler brings its own readings of the clock. -/
inductive Action
  | issueInvoice (env : Env) (calls : Calls) (event : Event) (offer : Option Offer)
      (amountSat : ℤ) (description : Option String) (selftest : Bool) (clock : ℕ → Time)
      (receivable : ℕ → ℤ)
  | requestStatus (key : PaymentHash) (status : InvoiceStatus) (clock : ℕ → Time)
  /-- A new session reads the storage. -/
  | reload (offers : OfferStore)
  /-- The wallet changes. -/
  | wallet (wallet : Wallet)
  | settings (devfeeEnabled : Bool) (devfeeRatePercent : ℚ)
  | advance (t : Time)

/-- The readings do not go back: not during the action, and not behind an earlier one. -/
def Timely (r : FeeRun) : Action → Prop
  | .issueInvoice _ _ _ _ _ _ _ clock _ | .requestStatus _ _ clock =>
    Monotone clock ∧ r.now ≤ clock 0
  | .advance t => r.now ≤ t
  | .reload _ | .wallet _ | .settings .. => True

/-- A payment hash is drawn once. -/
def Enabled (r : FeeRun) : Action → Prop
  | .issueInvoice _ calls _ _ _ _ _ _ _ => ∀ rhash ∈ calls.createRequest, rhash ∉ r.drawn
  | .requestStatus .. | .reload _ | .wallet _ | .settings .. | .advance _ => True

instance (r : FeeRun) (a : Action) : Decidable (r.Enabled a) := by
  cases a <;> unfold Enabled <;> infer_instance

/-- The turn in which a handler begins. -/
def turn (r : FeeRun) (clock : ℕ → Time) (receivable : ℕ → ℤ) : Turn :=
  ⟨r.server, clock, 0, receivable, 0, []⟩

def perform (r : FeeRun) : Action → FeeRun
  | .issueInvoice env calls event offer amountSat description selftest clock receivable =>
    let t := (Turn.issueInvoice env calls event offer amountSat description selftest
      (r.turn clock receivable)).2
    ⟨clock t.ticks, t.server, calls.createRequest.toList ++ r.drawn,
      r.log ++ [.issueInvoice selftest t.trace]⟩
  | .requestStatus key status clock =>
    let t := (Turn.onEventRequestStatus key status (r.turn clock fun _ => 0)).2
    ⟨clock t.ticks, t.server, r.drawn, r.log ++ [.requestStatus key status t.trace]⟩
  | .reload offers => { r with server := r.server.restart offers }
  | .wallet wallet => { r with server := { r.server with wallet := wallet } }
  | .settings devfeeEnabled devfeeRatePercent =>
    { r with server := { r.server with
      devfeeEnabled := devfeeEnabled
      devfeeRatePercent := devfeeRatePercent } }
  | .advance t => { r with now := t }

/-- Perform one action, if it is enabled. -/
def step (r : FeeRun) (a : Action) : Option FeeRun :=
  if r.Enabled a then some (r.perform a) else none

/-- Nothing was run yet. -/
def start (now : Time) (server : ClinkServer) : FeeRun := ⟨now, server, [], []⟩

/-- What a run reaches while the clock does not go back. -/
abbrev Reachable (r₀ r : FeeRun) : Prop := Transition.Reachable step Timely r₀ r

variable {r r' : FeeRun} {a : Action}

/-! ## What a step does to the ledger -/

/-- The effect of a step on the remembered hashes and on the log. -/
inductive Effect (r r' : FeeRun) : Prop
  /-- The ledger is left alone, and nothing is marked or accrued. -/
  | idle (runs : List HandlerRun) (hlog : r'.log = r.log ++ runs)
      (hmarked : HandlerRun.marked runs = []) (haccrued : HandlerRun.accrued runs = [])
      (hpending : r'.server.devfee.pending = r.server.devfee.pending)
      (hdrawn : ∀ k ∈ r.drawn, k ∈ r'.drawn)
  /-- A fresh hash is marked. -/
  | mark (rhash : PaymentHash) (ts : Time) (calls : List ServerCall)
      (hfresh : rhash ∉ r.drawn) (hdrawn : r'.drawn = rhash :: r.drawn)
      (hts : r.now ≤ ts ∧ ts ≤ r'.now)
      (hlog : r'.log = r.log ++ [.issueInvoice false calls])
      (hmarked : HandlerRun.marked [.issueInvoice false calls] = [rhash])
      (haccrued : HandlerRun.accrued [.issueInvoice false calls] = [])
      (hpending : r'.server.devfee.pending = (r.server.devfee.markIssued ts rhash).pending)
  /-- A reported payment takes its hash, and accrues if it was there and the amount is positive. -/
  | take (rhash : PaymentHash) (amountSat : ℤ) (hdrawn : r'.drawn = r.drawn)
      (hlog : r'.log = r.log ++ [.requestStatus rhash .paid
        (if rhash ∈ r.server.devfee.pending ∧ 0 < amountSat then
          [.accrue rhash amountSat] else [])])
      (hpending : r'.server.devfee.pending = r.server.devfee.pending.erase rhash)

theorem step_eq_some_iff : step r a = some r' ↔ r.Enabled a ∧ r' = r.perform a := by
  rw [step, Option.ite_none_right_eq_some, Option.some.injEq, eq_comm (a := r')]

/-- A turn that touched no dev-fee ledger leaves the remembered hashes as they are. -/
theorem effect_of_leads {calls : List ServerCall} {t' : Turn} {run : HandlerRun}
    {clock : ℕ → Time} {receivable : ℕ → ℤ}
    (hleads : (r.turn clock receivable).Leads calls t') (hserver : r'.server = t'.server)
    (hlog : r'.log = r.log ++ [run]) (hcalls : run.calls = t'.trace)
    (hmarks : calls.filterMap ServerCall.marks = [])
    (haccrues : calls.filterMap ServerCall.accrues = []) (hdrawn : ∀ k ∈ r.drawn, k ∈ r'.drawn) :
    Effect r r' := by
  have htrace : run.calls = calls := by
    rw [hcalls, hleads.trace]
    exact List.nil_append _
  refine .idle [run] hlog ?_ ?_ ?_ hdrawn
  · simpa [HandlerRun.marked, htrace] using hmarks
  · simpa [HandlerRun.accrued, htrace] using haccrues
  · rw [hserver, hleads.devfee]
    rfl

/-- Every step has one of the three effects. -/
theorem effect_of_step (htimely : r.Timely a) (h : step r a = some r') : Effect r r' := by
  obtain ⟨henabled, rfl⟩ := step_eq_some_iff.1 h
  cases a with
  | issueInvoice env calls event offer amountSat description selftest clock receivable =>
    obtain ⟨hmono, hnow⟩ := htimely
    have hturn := Turn.issueInvoice_turn (r.turn clock receivable) env calls event offer amountSat
      description selftest
    have hdrawn : ∀ k ∈ r.drawn, k ∈ (r.perform (.issueInvoice env calls event offer amountSat
        description selftest clock receivable)).drawn := fun k hk => List.mem_append_right _ hk
    -- only an invoice that is no self-test's is marked
    cases hturn with
    | raised _ hleads | lostRace _ _ _ _ _ hleads | selftest _ _ _ _ _ _ _ hleads =>
      exact effect_of_leads hleads rfl rfl rfl rfl rfl hdrawn
    | issued bolt11 n hcreated hamount _ _ hselftest hn hclock hsent hdevfee =>
      have htrace : (Turn.issueInvoice env calls event offer amountSat description selftest
          (r.turn clock receivable)).2.trace = [.tryReserve bolt11.paymentHash amountSat true,
            .markIssued bolt11.paymentHash, .sendResponse (successPayload bolt11)] :=
        hamount ▸ hsent.trace
      have hcalls : (r.perform (.issueInvoice env calls event offer amountSat description selftest
          clock receivable)).log = r.log ++ [.issueInvoice false
            [.tryReserve bolt11.paymentHash amountSat true, .markIssued bolt11.paymentHash,
              .sendResponse (successPayload bolt11)]] := by
        rw [← htrace, ← hselftest]
        rfl
      -- the wallet draws a hash it never drew before
      refine .mark bolt11.paymentHash (clock n) _ (henabled _ hcreated) ?_
        ⟨hnow.trans (hmono (Nat.zero_le n)), hmono hn.2⟩ hcalls rfl rfl
        (congrArg DevFeeLedger.pending hdevfee)
      show calls.createRequest.toList ++ r.drawn = _
      rw [hcreated]
      rfl
  | requestStatus key status clock =>
    -- a report counts if it is of the payment of a lightning request that the wallet holds
    by_cases hpaid : status = .paid ∧ ∃ request,
        r.server.wallet.requests.get? key = some request ∧ request.isLightning = true
    · obtain ⟨rfl, request, hget, hlight⟩ := hpaid
      obtain ⟨hpending, htrace⟩ := Turn.onEventRequestStatus_paid (r.turn clock fun _ => 0)
        key hget hlight
      refine .take key request.amountSat rfl ?_ hpending
      show r.log ++ [.requestStatus key .paid _] = _
      rw [htrace]
      rfl
    · have hignored : (Turn.onEventRequestStatus key status (r.turn clock fun _ => 0)).2 =
          r.turn clock fun _ => 0 := by
        refine Turn.onEventRequestStatus_ignored _ _ fun hstatus request hget => ?_
        by_contra hlight
        exact hpaid ⟨hstatus, request, hget, by simpa using hlight⟩
      have hperform : r.perform (.requestStatus key status clock) =
          ⟨clock 0, r.server, r.drawn, r.log ++ [.requestStatus key status []]⟩ := by
        unfold perform
        simp only [hignored]
        rfl
      rw [hperform]
      exact .idle _ rfl rfl rfl rfl fun _ hk => hk
  | reload | wallet | settings | advance =>
    exact .idle [] (List.append_nil _).symm rfl rfl rfl fun _ hk => hk

/-- The clock does not go back. -/
theorem now_le_of_step (htimely : r.Timely a) (h : step r a = some r') : r.now ≤ r'.now := by
  obtain ⟨-, rfl⟩ := step_eq_some_iff.1 h
  cases a with
  | issueInvoice | requestStatus => exact htimely.2.trans (htimely.1 (Nat.zero_le _))
  | advance => exact htimely
  | reload | wallet | settings => exact le_rfl

/-! ## What every run keeps -/

/-- The remembered hashes were marked in their order and none of them has accrued; a marked hash is
remembered until its payment is reported or too many others were marked. -/
structure FeeInv (r : FeeRun) : Prop where
  orderly : r.server.devfee.Orderly r.now
  drawn : ∀ k ∈ HandlerRun.marked r.log, k ∈ r.drawn
  nodup : (HandlerRun.marked r.log).Nodup
  keys : r.server.devfee.pending.keys.Sublist (HandlerRun.marked r.log)
  once : (HandlerRun.accrued r.log ++ r.server.devfee.pending.keys).Nodup
  genuine : ∀ run ∈ r.log, ∀ k ∈ HandlerRun.marked [run],
    HandlerRun.marked [run] = [k] ∧ ∃ calls, run = .issueInvoice false calls
  earned : ∀ earlier run later, r.log = earlier ++ run :: later →
    ∀ k ∈ HandlerRun.accrued [run], k ∈ HandlerRun.marked earlier
  kept : ∀ earlier run later, r.log = earlier ++ run :: later → ∀ k ∈ HandlerRun.marked [run],
    (∀ run' ∈ later, ¬ run'.ReportsPaid k) → (HandlerRun.marked later).length < pendingMax →
      k ∈ r.server.devfee.pending

/-- What comes after the first element of a sublist comes after it in the list. -/
theorem sublist_of_cons_sublist_append {α : Type} {a : α} {l before later : List α}
    (h : (a :: l).Sublist (before ++ a :: later)) (hnodup : (before ++ a :: later).Nodup) :
    l.Sublist later := by
  induction before with
  | nil => exact List.cons_sublist_cons.1 h
  | cons b before ih =>
    rw [List.cons_append, List.nodup_cons] at hnodup
    have hne : a ≠ b := by
      rintro rfl
      exact hnodup.1 (List.mem_append_right _ List.mem_cons_self)
    exact ih (h.of_cons_of_ne hne) hnodup.2

/-- A hash that has accrued was marked. -/
theorem FeeInv.mem_marked_of_mem_accrued (hinv : FeeInv r) {k : PaymentHash}
    (hk : k ∈ HandlerRun.accrued r.log) : k ∈ HandlerRun.marked r.log := by
  obtain ⟨call, hcall, haccrues⟩ := List.mem_filterMap.1 hk
  obtain ⟨run, hrun, hmem⟩ := List.mem_flatMap.1 hcall
  obtain ⟨earlier, later, hlog⟩ := List.append_of_mem hrun
  have hone : k ∈ HandlerRun.accrued [run] := by
    refine List.mem_filterMap.2 ⟨call, ?_, haccrues⟩
    simpa using hmem
  rw [hlog, HandlerRun.marked_append]
  exact List.mem_append_left _ (hinv.earned earlier run later hlog k hone)

theorem feeInv_start (now : Time) {server : ClinkServer} (hempty : server.devfee.pending = ∅) :
    FeeInv (start now server) where
  orderly := DevFeeLedger.orderly_of_pending_eq_empty hempty now
  drawn := by simp [start, HandlerRun.marked]
  nodup := by simp [start, HandlerRun.marked]
  keys := by simp [start, hempty, Dict.keys]
  once := by simp [start, hempty, Dict.keys, HandlerRun.accrued]
  genuine := by simp [start]
  earned := by simp [start]
  kept := by simp [start]

/-- A step that marks nothing and accrues nothing. -/
theorem feeInv_idle (hinv : FeeInv r) (hnow : r.now ≤ r'.now) {runs : List HandlerRun}
    (hlog : r'.log = r.log ++ runs) (hmarked : HandlerRun.marked runs = [])
    (haccrued : HandlerRun.accrued runs = [])
    (hpending : r'.server.devfee.pending = r.server.devfee.pending)
    (hdrawn : ∀ k ∈ r.drawn, k ∈ r'.drawn) : FeeInv r' := by
  have hmarked' : HandlerRun.marked r'.log = HandlerRun.marked r.log := by
    rw [hlog, HandlerRun.marked_append, hmarked, List.append_nil]
  -- the runs of the step take part in nothing
  have hnone : ∀ earlier run later, runs = earlier ++ run :: later →
      HandlerRun.marked [run] = [] ∧ HandlerRun.accrued [run] = [] := by
    rintro earlier run later rfl
    rw [← List.singleton_append, HandlerRun.marked_append, HandlerRun.marked_append] at hmarked
    rw [← List.singleton_append, HandlerRun.accrued_append, HandlerRun.accrued_append] at haccrued
    simp only [List.append_eq_nil_iff] at hmarked haccrued
    exact ⟨hmarked.2.1, haccrued.2.1⟩
  constructor
  case orderly => exact (hinv.orderly.mono hnow).sublist (by rw [hpending])
  case drawn =>
    rw [hmarked']
    exact fun k hk => hdrawn k (hinv.drawn k hk)
  case nodup =>
    rw [hmarked']
    exact hinv.nodup
  case keys =>
    rw [hmarked', hpending]
    exact hinv.keys
  case once =>
    rw [hlog, HandlerRun.accrued_append, haccrued, List.append_nil, hpending]
    exact hinv.once
  case genuine =>
    intro run hrun k hk
    rw [hlog] at hrun
    rcases List.mem_append.1 hrun with hrun | hrun
    · exact hinv.genuine run hrun k hk
    · obtain ⟨earlier, later, heq⟩ := List.append_of_mem hrun
      rw [(hnone earlier run later heq).1] at hk
      exact absurd hk List.not_mem_nil
  case earned =>
    intro earlier run later heq k hk
    rw [hlog] at heq
    rcases GrowingList.eq_append_cons_cases heq with ⟨rest, hold, -⟩ | ⟨rest, -, hnew⟩
    · exact hinv.earned earlier run rest hold k hk
    · rw [(hnone rest run later hnew).2] at hk
      exact absurd hk List.not_mem_nil
  case kept =>
    intro earlier run later heq k hk hunpaid hfew
    rw [hlog] at heq
    rw [hpending]
    rcases GrowingList.eq_append_cons_cases heq with ⟨rest, hold, rfl⟩ | ⟨rest, -, hnew⟩
    · rw [HandlerRun.marked_append, hmarked, List.append_nil] at hfew
      exact hinv.kept earlier run rest hold k hk
        (fun run' hrun' => hunpaid run' (List.mem_append_left _ hrun')) hfew
    · rw [(hnone rest run later hnew).1] at hk
      exact absurd hk List.not_mem_nil

/-- Marking one more hash evicts no hash that has fewer than `pendingMax` marked after it. -/
theorem FeeInv.survives (hinv : FeeInv r) {earlier later : List HandlerRun} {run : HandlerRun}
    (hlog : r.log = earlier ++ run :: later) {k rhash : PaymentHash} {ts : Time}
    (hk : k ∈ HandlerRun.marked [run]) (hts : r.now ≤ ts)
    (hfresh : rhash ∉ r.server.devfee.pending) (hmem : k ∈ r.server.devfee.pending)
    (hfew : (HandlerRun.marked later).length + 1 < pendingMax) :
    k ∈ (r.server.devfee.markIssued ts rhash).pending := by
  have hentries := (hinv.orderly.mono hts).entries_markIssued hfresh
  have hbounded := hinv.orderly.bounded
  have hmarked : HandlerRun.marked r.log =
      HandlerRun.marked earlier ++ k :: HandlerRun.marked later := by
    have hone := (hinv.genuine run (by simp [hlog]) k hk).1
    rw [hlog, ← List.singleton_append, HandlerRun.marked_append, HandlerRun.marked_append, hone,
      List.singleton_append]
  have hkeys := hinv.keys
  have hnodup := hinv.nodup
  rw [hmarked] at hkeys hnodup
  rw [Dict.mem_def, Dict.keys] at hmem ⊢
  rw [hentries]
  rw [Dict.size] at hbounded ⊢
  rw [Dict.keys] at hkeys
  -- from here on it is a matter of the entries and their order
  generalize r.server.devfee.pending.entries = entries at hkeys hbounded hmem ⊢
  rcases entries with _ | ⟨e, rest⟩
  · simp at hmem
  rw [List.length_cons] at hbounded ⊢
  by_cases hroom : rest.length + 1 + 1 ≤ pendingMax
  · rw [Nat.sub_eq_zero_of_le hroom, List.drop_zero, List.map_append]
    exact List.mem_append_left _ hmem
  · -- the map is full: its first entry goes, and the others were all marked after that one
    have hone : rest.length + 1 + 1 - pendingMax = 1 := by omega
    rw [hone, List.cons_append, List.drop_succ_cons, List.drop_zero, List.map_append]
    rw [List.map_cons] at hmem hkeys
    rcases List.mem_cons.1 hmem with rfl | hmem
    · have hlater := (sublist_of_cons_sublist_append hkeys hnodup).length_le
      rw [List.length_map] at hlater
      omega
    · exact List.mem_append_left _ hmem

/-- A step that marks a fresh hash. -/
theorem feeInv_mark (hinv : FeeInv r) {rhash : PaymentHash} {ts : Time} {calls : List ServerCall}
    (hfresh : rhash ∉ r.drawn) (hdrawn : r'.drawn = rhash :: r.drawn)
    (hts : r.now ≤ ts ∧ ts ≤ r'.now) (hlog : r'.log = r.log ++ [.issueInvoice false calls])
    (hmarked : HandlerRun.marked [.issueInvoice false calls] = [rhash])
    (haccrued : HandlerRun.accrued [.issueInvoice false calls] = [])
    (hpending : r'.server.devfee.pending = (r.server.devfee.markIssued ts rhash).pending) :
    FeeInv r' := by
  -- a hash that was never drawn was never marked, and so is not remembered
  have hunmarked : rhash ∉ HandlerRun.marked r.log := fun hmem => hfresh (hinv.drawn _ hmem)
  have hnew : rhash ∉ r.server.devfee.pending := fun hmem => hunmarked (hinv.keys.subset hmem)
  have horderly := hinv.orderly.mono hts.1
  have hkeys : r'.server.devfee.pending.keys.Sublist (r.server.devfee.pending.keys ++ [rhash]) := by
    rw [hpending, Dict.keys, horderly.entries_markIssued hnew, List.map_drop, List.map_append]
    exact List.drop_sublist _ _
  have hmarked' : HandlerRun.marked r'.log = HandlerRun.marked r.log ++ [rhash] := by
    rw [hlog, HandlerRun.marked_append, hmarked]
  constructor
  case orderly => exact ((horderly.markIssued hnew).mono hts.2).sublist (by rw [hpending])
  case drawn =>
    rw [hmarked', hdrawn]
    intro k hk
    rcases List.mem_append.1 hk with hk | hk
    · exact List.mem_cons_of_mem _ (hinv.drawn k hk)
    · rw [List.mem_singleton.1 hk]
      exact List.mem_cons_self
  case nodup =>
    rw [hmarked', ← List.concat_eq_append, List.nodup_concat]
    exact ⟨hunmarked, hinv.nodup⟩
  case keys =>
    rw [hmarked']
    exact hkeys.trans (hinv.keys.append (List.Sublist.refl _))
  case once =>
    rw [hlog, HandlerRun.accrued_append, haccrued, List.append_nil]
    refine List.Nodup.sublist ((List.Sublist.refl _).append hkeys) ?_
    rw [← List.append_assoc, ← List.concat_eq_append, List.nodup_concat]
    refine ⟨?_, hinv.once⟩
    rw [List.mem_append, not_or]
    exact ⟨fun hmem => hunmarked (hinv.mem_marked_of_mem_accrued hmem), hnew⟩
  case genuine =>
    intro run hrun k hk
    rw [hlog] at hrun
    rcases List.mem_append.1 hrun with hrun | hrun
    · exact hinv.genuine run hrun k hk
    · obtain rfl := List.mem_singleton.1 hrun
      rw [hmarked] at hk ⊢
      exact ⟨by rw [List.mem_singleton.1 hk], calls, rfl⟩
  case earned =>
    intro earlier run later heq k hk
    rw [hlog] at heq
    rcases GrowingList.eq_append_cons_cases_singleton heq with ⟨rest, hold, -⟩ | ⟨-, rfl, -⟩
    · exact hinv.earned earlier run rest hold k hk
    · rw [haccrued] at hk
      exact absurd hk List.not_mem_nil
  case kept =>
    intro earlier run later heq k hk hunpaid hfew
    rw [hlog] at heq
    rw [hpending]
    rcases GrowingList.eq_append_cons_cases_singleton heq with ⟨rest, hold, rfl⟩ | ⟨-, rfl, rfl⟩
    · rw [HandlerRun.marked_append, hmarked, List.length_append, List.length_singleton] at hfew
      refine hinv.survives hold hk hts.1 hnew ?_ hfew
      exact hinv.kept earlier run rest hold k hk
        (fun run' hrun' => hunpaid run' (List.mem_append_left _ hrun')) (by omega)
    · rw [hmarked, List.mem_singleton] at hk
      rw [hk, Dict.mem_def, Dict.keys, horderly.entries_markIssued hnew]
      -- at most one entry goes, and it is not the last
      refine List.mem_map.2 ⟨(rhash, wholeSeconds ts), ?_, rfl⟩
      rw [List.drop_append_of_le_length]
      · exact List.mem_append_right _ List.mem_cons_self
      · have hbounded := hinv.orderly.bounded
        unfold Dict.size at hbounded ⊢
        unfold pendingMax at hbounded ⊢
        omega

/-- A step that reports a payment. -/
theorem feeInv_take (hinv : FeeInv r) (hnow : r.now ≤ r'.now) {rhash : PaymentHash}
    {amountSat : ℤ} (hdrawn : r'.drawn = r.drawn)
    (hlog : r'.log = r.log ++ [.requestStatus rhash .paid
      (if rhash ∈ r.server.devfee.pending ∧ 0 < amountSat then [.accrue rhash amountSat] else [])])
    (hpending : r'.server.devfee.pending = r.server.devfee.pending.erase rhash) : FeeInv r' := by
  set calls : List ServerCall :=
    if rhash ∈ r.server.devfee.pending ∧ 0 < amountSat then [.accrue rhash amountSat] else []
    with hcalls
  have hmarked : HandlerRun.marked [.requestStatus rhash .paid calls] = [] := by
    rw [hcalls]
    split <;> rfl
  have haccrued : HandlerRun.accrued [.requestStatus rhash .paid calls] =
      if rhash ∈ r.server.devfee.pending ∧ 0 < amountSat then [rhash] else [] := by
    rw [hcalls]
    split <;> rfl
  have hmarked' : HandlerRun.marked r'.log = HandlerRun.marked r.log := by
    rw [hlog, HandlerRun.marked_append, hmarked, List.append_nil]
  have hentries : r'.server.devfee.pending.entries.Sublist r.server.devfee.pending.entries := by
    rw [hpending]
    exact List.filter_sublist
  have hkeys : r'.server.devfee.pending.keys.Sublist r.server.devfee.pending.keys :=
    hentries.map _
  constructor
  case orderly => exact (hinv.orderly.mono hnow).sublist hentries
  case drawn =>
    rw [hmarked', hdrawn]
    exact hinv.drawn
  case nodup =>
    rw [hmarked']
    exact hinv.nodup
  case keys =>
    rw [hmarked']
    exact hkeys.trans hinv.keys
  case once =>
    rw [hlog, HandlerRun.accrued_append, haccrued]
    split
    next htaken =>
      -- the hash moves from the remembered ones to those that have accrued
      have honce := List.nodup_append.1 hinv.once
      rw [List.append_assoc, List.nodup_append]
      refine ⟨honce.1, ?_, ?_⟩
      · rw [List.singleton_append, List.nodup_cons, hpending]
        exact ⟨Dict.notMem_erase_self _ _, hpending ▸ honce.2.1.sublist hkeys⟩
      · intro k hk k' hk'
        rcases List.mem_append.1 hk' with hk' | hk'
        · rw [List.mem_singleton.1 hk']
          exact honce.2.2 k hk rhash htaken.1
        · exact honce.2.2 k hk k' (hkeys.subset hk')
    next =>
      rw [List.append_nil]
      exact hinv.once.sublist ((List.Sublist.refl _).append hkeys)
  case genuine =>
    intro run hrun k hk
    rw [hlog] at hrun
    rcases List.mem_append.1 hrun with hrun | hrun
    · exact hinv.genuine run hrun k hk
    · rw [List.mem_singleton.1 hrun, hmarked] at hk
      exact absurd hk List.not_mem_nil
  case earned =>
    intro earlier run later heq k hk
    rw [hlog] at heq
    rcases GrowingList.eq_append_cons_cases_singleton heq with ⟨rest, hold, -⟩ | ⟨rfl, rfl, -⟩
    · exact hinv.earned earlier run rest hold k hk
    · rw [haccrued, List.mem_ite_nil_right] at hk
      rw [List.mem_singleton.1 hk.2]
      exact hinv.keys.subset hk.1.1
  case kept =>
    intro earlier run later heq k hk hunpaid hfew
    rw [hlog] at heq
    rcases GrowingList.eq_append_cons_cases_singleton heq with ⟨rest, hold, rfl⟩ | ⟨-, rfl, -⟩
    · rw [HandlerRun.marked_append, hmarked, List.append_nil] at hfew
      have hmem := hinv.kept earlier run rest hold k hk
        (fun run' hrun' => hunpaid run' (List.mem_append_left _ hrun')) hfew
      have hne : k ≠ rhash := by
        rintro rfl
        exact hunpaid _ (List.mem_append_right _ List.mem_cons_self) ⟨_, rfl⟩
      rw [hpending]
      exact Dict.mem_erase.2 ⟨hne, hmem⟩
    · rw [hmarked] at hk
      exact absurd hk List.not_mem_nil

theorem feeInv_step (hinv : FeeInv r) (htimely : r.Timely a) (h : step r a = some r') :
    FeeInv r' := by
  have hnow := now_le_of_step htimely h
  cases effect_of_step htimely h with
  | idle runs hlog hmarked haccrued hpending hdrawn =>
    exact feeInv_idle hinv hnow hlog hmarked haccrued hpending hdrawn
  | mark rhash ts calls hfresh hdrawn hts hlog hmarked haccrued hpending =>
    exact feeInv_mark hinv hfresh hdrawn hts hlog hmarked haccrued hpending
  | take rhash amountSat hdrawn hlog hpending =>
    exact feeInv_take hinv hnow hdrawn hlog hpending

/-- From an empty ledger, while the clock does not go back: no hash accrues twice; a hash accrues
only after an `_issue_invoice` that was no self-test marked it; and when fewer than `pendingMax`
hashes were marked since, the first report of its payment accrues the amount the wallet holds. -/
theorem fee_accrues_once {now : Time} {server : ClinkServer} {r : FeeRun}
    (hempty : server.devfee.pending = ∅) (hrun : Reachable (start now server) r) :
    (HandlerRun.accrued r.log).Nodup ∧
    (∀ earlier run later, r.log = earlier ++ run :: later →
      ∀ rhash ∈ HandlerRun.accrued [run],
        ∃ calls, .issueInvoice false calls ∈ earlier ∧ .markIssued rhash ∈ calls) ∧
    ∀ earlier calls later rhash, r.log = earlier ++ .issueInvoice false calls :: later →
      .markIssued rhash ∈ calls → (∀ run ∈ later, ¬ run.ReportsPaid rhash) →
      (HandlerRun.marked later).length < pendingMax →
      ∀ request, r.server.wallet.requests.get? rhash = some request →
        request.isLightning = true → 0 < request.amountSat →
        ∀ clock, ∃ r', step r (.requestStatus rhash .paid clock) = some r' ∧
          r'.log = r.log ++
            [.requestStatus rhash .paid [.accrue rhash request.amountSat]] := by
  have hinv : FeeInv r :=
    hrun.invariant (feeInv_start now hempty) fun _ _ _ hinv htimely h =>
      feeInv_step hinv htimely h
  refine ⟨(List.nodup_append.1 hinv.once).1, ?_, ?_⟩
  · intro earlier run later hlog rhash hmem
    have hmarked := hinv.earned earlier run later hlog rhash hmem
    -- the call that marked it belongs to one of the earlier runs
    obtain ⟨call, hcall, hmarks⟩ := List.mem_filterMap.1 hmarked
    obtain ⟨run', hrun', hmem'⟩ := List.mem_flatMap.1 hcall
    have hone : rhash ∈ HandlerRun.marked [run'] := by
      refine List.mem_filterMap.2 ⟨call, ?_, hmarks⟩
      simpa using hmem'
    obtain ⟨-, calls, rfl⟩ := hinv.genuine run' (by rw [hlog]; simp [hrun']) rhash hone
    exact ⟨calls, hrun', HandlerRun.mem_marked_singleton.1 hone⟩
  · intro earlier calls later rhash hlog hmem hunpaid hfew request hget hlight hpos clock
    -- the hash is still remembered, so this report takes it
    have hpending := hinv.kept earlier _ later hlog rhash
      (HandlerRun.mem_marked_singleton.2 hmem) hunpaid hfew
    obtain ⟨-, htrace⟩ := Turn.onEventRequestStatus_paid (r.turn clock fun _ => 0)
      rhash hget hlight
    refine ⟨_, step_eq_some_iff.2 ⟨trivial, rfl⟩, ?_⟩
    show r.log ++ [.requestStatus rhash .paid _] = _
    rw [htrace, if_pos ⟨hpending, hpos⟩]
    rfl

/-- One invoice is issued, and its payment accrues. -/
theorem fee_accrues_once_one_invoice :
    let r₀ := start 0 (.sample 150 300)
    let issue : Action := .issueInvoice .sample (.succeeding "r") (.sample "e" 0) none 100 none
      false (fun _ => 0) fun _ => 150
    ∃ r', step (r₀.perform issue) (.requestStatus "r" .paid fun _ => 0) = some r' ∧
      r'.log = (r₀.perform issue).log ++ [.requestStatus "r" .paid [.accrue "r" 100]] := by
  intro r₀ issue
  have htimely : r₀.Timely issue := ⟨monotone_const, le_rfl⟩
  have hstep : step r₀ issue = some (r₀.perform issue) :=
    step_eq_some_iff.2 ⟨by decide, rfl⟩
  exact (fee_accrues_once rfl (.next .init htimely hstep)).2.2 [] _ [] "r" rfl
    (by decide +kernel) (by simp) (by decide) ⟨100, "CLINK offer", 300, true, .unpaid⟩
    (by decide +kernel) rfl (by decide) fun _ => 0

end FeeRun

end ElectrumClink
