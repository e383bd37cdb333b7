import ElectrumClink.Server.Footprint

/-!
# The self-test of a noffer, and its traces

`check_noffer` plays payer against our own listener: it registers a throwaway payer, publishes a
request and waits for the reply; whatever comes of it, it then unregisters the payer. The listener
unwinds the request of a registered payer, so that a self-test leaves nothing behind.

But a relay may deliver the request when the check has given up already, within the minute in which
requests are accepted. Nobody knows the payer then, and an invoice is issued to it for good
(`late_selftest_leaves_trace`). The other causes are those of any request that fails half-way.

`selftest_leaves_no_trace` is about the deliveries that avoid both.
-/

namespace ElectrumClink

/-- Where `check_noffer` is. -/
inductive CheckPhase
  /-- It has not registered its payer. -/
  | before
  /-- It registered its payer, at this moment and with the server that still runs or with an earlier
  one. -/
  | running (registeredAt : Time) (sameServer : Bool)
  /-- It is over: the payer is unregistered. -/
  | over
deriving DecidableEq

/-- A check and the world in which it takes place. -/
structure SelfTestRun where
  world : World
  phase : CheckPhase
  /-- The request, once it is published. -/
  request : Option Event
  /-- The payment hashes that were drawn when the request was handled; no step reads them. -/
  drawn : List PaymentHash

/-- What can happen next. -/
inductive SelfTestAction
  | registerPayer
  /-- The check publishes its request. -/
  | publish (event : Event)
  /-- The check has its reply, or gives up. -/
  | finish
  /-- The relay delivers the request, and the listener handles it. -/
  | deliver (calls : Calls)
  /-- Anything that is not about this payer. -/
  | other (a : Action)

/-- Whether an action is about another payer. Nobody else has the key of this one. -/
def Action.Foreign (payer : Pubkey) : Action → Prop
  | .dispatch event _ => event.pubkey ≠ payer
  | .registerSelftestPayer pubkey | .unregisterSelftestPayer pubkey => pubkey ≠ payer
  | _ => True

instance (payer : Pubkey) : (a : Action) → Decidable (a.Foreign payer)
  | .dispatch event _ => inferInstanceAs (Decidable (event.pubkey ≠ payer))
  | .registerSelftestPayer pubkey | .unregisterSelftestPayer pubkey =>
    inferInstanceAs (Decidable (pubkey ≠ payer))
  | .advance _ | .settle _ | .walletStatus _ _ | .requestPaid _ | .capacity _ _ | .redeliver _
  | .recordAttempt _ | .recordSend _ | .ping _ | .taskgroup _ | .settings _ _ _ | .offers _ | .stop
  | .start _ => inferInstanceAs (Decidable True)

/-- A check outlives the server that its payer is registered with. -/
def CheckPhase.after (phase : CheckPhase) : Action → CheckPhase
  | .start _ =>
    match phase with
    | .running registeredAt _ => .running registeredAt false
    | _ => phase
  | _ => phase

namespace SelfTestRun

/-- Before the check. -/
def start (world : World) : SelfTestRun := ⟨world, .before, none, []⟩

/-- Perform an action, if it is enabled. -/
def step (env : Env) (payer : Pubkey) (s : SelfTestRun) : SelfTestAction → Option SelfTestRun
  | .registerPayer =>
    if s.phase = .before then
      (s.world.step env (.registerSelftestPayer payer)).map fun world =>
        { s with world := world, phase := .running s.world.now true }
    else none
  | .publish event =>
    match s.phase, s.request with
    | .running _ _, none =>
      if event.pubkey = payer ∧ event.kind = clinkEventKind ∧
          event.createdAt = wholeSeconds s.world.now then
        some { s with request := some event }
      else none
    | _, _ => none
  | .finish =>
    match s.phase with
    | .running _ _ =>
      (s.world.step env (.unregisterSelftestPayer payer)).map fun world =>
        { s with world := world, phase := .over }
    | _ => none
  | .deliver calls =>
    s.request.bind fun event =>
      -- the wallet draws a hash at random
      if ∀ k ∈ calls.createRequest, s.world.server.Unknown k then
        (s.world.step env (.dispatch event calls)).map fun world =>
          { s with world := world, drawn := s.drawn ++ calls.createRequest.toList }
      else none
  | .other a =>
    if a.Foreign payer then
      (s.world.step env a).map fun world => { s with world := world, phase := s.phase.after a }
    else none

/-- The runs of actions that meet `P`. -/
abbrev Reachable (env : Env) (payer : Pubkey) (P : SelfTestRun → SelfTestAction → Prop)
    (init : SelfTestRun) : SelfTestRun → Prop :=
  Transition.Reachable (step env payer) P init

/-- The payer is still registered: the check is under way, its registration has not lapsed, and the
server was not restarted since. -/
def InTime (s : SelfTestRun) : Prop :=
  ∃ registeredAt, s.phase = .running registeredAt true ∧
    s.world.now < registeredAt + selftestPayerTtlSec

/-- The request is handled in time and to the end: unless it gets no further than an error, or the
wallet raises before it creates anything, the other wallet calls answer and the taskgroup takes the
reply, if there is one. -/
def HandledInTime (env : Env) (s : SelfTestRun) : SelfTestAction → Prop
  | .deliver calls =>
    ∀ event k, s.request = some event →
      ClinkServer.Issues env s.world.now event s.world.server → calls.createRequest = some k →
        s.InTime ∧ calls.answered s.world.server.wallet = true ∧
          (s.world.server.taskgroup = false ∨ calls.spawn = true)
  | _ => True

variable {env : Env} {payer : Pubkey} {s s' : SelfTestRun} {a : SelfTestAction}

/-! ## Steps of the check -/

/-- The request is signed by the payer, which is registered before it is published. -/
theorem step_publish {event : Event} (h : step env payer s (.publish event) = some s') :
    s.phase ≠ .before ∧ event.pubkey = payer ∧ s' = { s with request := some event } := by
  unfold step at h
  dsimp only at h
  split at h
  next hrunning _ =>
    obtain ⟨⟨hpubkey, -⟩, hstep⟩ := Option.ite_none_right_eq_some.1 h
    refine ⟨fun hbefore => ?_, hpubkey, (Option.some.inj hstep).symm⟩
    cases hrunning.symm.trans hbefore
  next => cases h

/-- The check ends with the payer unregistered. -/
theorem step_finish (h : step env payer s .finish = some s') :
    ∃ world, s.world.step env (.unregisterSelftestPayer payer) = some world ∧
      s' = { s with world := world, phase := .over } := by
  unfold step at h
  dsimp only at h
  split at h
  next =>
    obtain ⟨world, hworld, rfl⟩ := Option.map_eq_some_iff.1 h
    exact ⟨world, hworld, rfl⟩
  next => cases h

/-! ## The registration -/

/-- The server knows the payer while its registration lasts, and only then. -/
structure RegistrationInv (payer : Pubkey) (s : SelfTestRun) : Prop where
  registered : ∀ exp, s.phase ≠ .before →
    s.world.server.selftestPayers.get? payer = some exp →
      ∃ registeredAt, s.phase = .running registeredAt true ∧
        exp = registeredAt + selftestPayerTtlSec
  kept : ∀ registeredAt, s.phase = .running registeredAt true →
    s.world.now < registeredAt + selftestPayerTtlSec →
      s.world.server.selftestPayers.get? payer = some (registeredAt + selftestPayerTtlSec)
  published : s.request.isSome = true → s.phase ≠ .before
  signed : ∀ event, s.request = some event → event.pubkey = payer

/-- `is_selftest_payer` answers for this payer. -/
theorem RegistrationInv.isSelftestPayer_iff (hinv : RegistrationInv payer s)
    (hphase : s.phase ≠ .before) :
    (s.world.server.isSelftestPayer s.world.now payer).1 = true ↔ s.InTime := by
  have hmem : (s.world.server.isSelftestPayer s.world.now payer).1 = true ↔
      ∃ exp, s.world.server.selftestPayers.get? payer = some exp ∧ s.world.now < exp := by
    unfold ClinkServer.isSelftestPayer
    rw [decide_eq_true_eq, Dict.mem_filter]
    simp
  rw [hmem]
  constructor
  -- a registration that has not lapsed is that of the running check
  · rintro ⟨exp, hexp, hlive⟩
    obtain ⟨registeredAt, hrunning, rfl⟩ := hinv.registered exp hphase hexp
    exact ⟨registeredAt, hrunning, hlive⟩
  · rintro ⟨registeredAt, hrunning, hlive⟩
    exact ⟨_, hinv.kept registeredAt hrunning hlive, hlive⟩

/-- What an action of the world does to the registration of a payer that it is not about: nothing,
except that a registration may be dropped once it has lapsed, and that a new server has none. -/
theorem registration_step (payer : Pubkey) {w w' : World} {b : Action}
    (h : World.step env w b = some w') :
    (∃ offers, b = .start offers ∧ w'.server.selftestPayers.get? payer = none) ∨
    (∀ offers, b ≠ .start offers) ∧ w.now ≤ w'.now ∧
      ((∃ event calls, b = .dispatch event calls) ∨ b.Foreign payer →
        (∀ exp, w'.server.selftestPayers.get? payer = some exp →
          w.server.selftestPayers.get? payer = some exp) ∧
        ∀ exp, w.server.selftestPayers.get? payer = some exp → w'.now < exp →
          w'.server.selftestPayers.get? payer = some exp) := by
  have hnow := World.now_le_of_step h
  obtain ⟨-, rfl⟩ := World.step_eq_some_iff.1 h
  cases b with
  | start offers => exact .inl ⟨offers, rfl, Dict.get?_empty payer⟩
  | dispatch event calls =>
    refine .inr ⟨by rintro offers ⟨⟩, hnow, fun _ => ?_⟩
    have hpayers := ClinkServer.dispatch_selftestPayers env calls w.now event w.server
    have hserver : (w.perform env (.dispatch event calls)).server.selftestPayers =
        (w.server.dispatch env calls w.now event).2.selftestPayers := rfl
    rw [hserver]
    -- `is_selftest_payer` sweeps the lapsed registrations, if the event gets that far
    rcases hpayers with hsame | hfiltered
    · rw [hsame]
      exact ⟨fun _ hexp => hexp, fun _ hexp _ => hexp⟩
    · rw [hfiltered]
      refine ⟨fun exp hexp => (Dict.get?_filter_eq_some.1 hexp).1, fun exp hexp hlive => ?_⟩
      refine Dict.get?_filter_eq_some.2 ⟨hexp, ?_⟩
      have hnot : ¬ exp ≤ w.now := not_le.2 hlive
      simpa using hnot
  | registerSelftestPayer pubkey =>
    refine .inr ⟨by rintro offers ⟨⟩, hnow, ?_⟩
    rintro (⟨event, calls, ⟨⟩⟩ | hforeign)
    have hsame : (w.perform env (.registerSelftestPayer pubkey)).server.selftestPayers.get? payer =
        w.server.selftestPayers.get? payer := Dict.get?_set_of_ne _ (Ne.symm hforeign) _
    rw [hsame]
    exact ⟨fun _ hexp => hexp, fun _ hexp _ => hexp⟩
  | unregisterSelftestPayer pubkey =>
    refine .inr ⟨by rintro offers ⟨⟩, hnow, ?_⟩
    rintro (⟨event, calls, ⟨⟩⟩ | hforeign)
    have hsame : (w.perform env
        (.unregisterSelftestPayer pubkey)).server.selftestPayers.get? payer =
          w.server.selftestPayers.get? payer := Dict.get?_erase_of_ne _ (Ne.symm hforeign)
    rw [hsame]
    exact ⟨fun _ hexp => hexp, fun _ hexp _ => hexp⟩
  | requestPaid rhash =>
    refine .inr ⟨by rintro offers ⟨⟩, hnow, fun _ => ?_⟩
    rcases World.perform_requestPaid env w rhash with ⟨-, heq⟩ | ⟨-, -, heq⟩ | ⟨-, -, devfee, heq⟩
    all_goals
      rw [heq]
      exact ⟨fun _ hexp => hexp, fun _ hexp _ => hexp⟩
  | _ =>
    refine .inr ⟨by rintro offers ⟨⟩, hnow, fun _ => ?_⟩
    exact ⟨fun _ hexp => hexp, fun _ hexp _ => hexp⟩

/-- A step of the world that keeps the registration as long as it has not lapsed. -/
theorem RegistrationInv.withWorld (hinv : RegistrationInv payer s) (hphase : s'.phase = s.phase)
    (hrequest : s'.request = s.request) (hnow : s.world.now ≤ s'.world.now)
    (hsame : (∀ exp, s'.world.server.selftestPayers.get? payer = some exp →
        s.world.server.selftestPayers.get? payer = some exp) ∧
      ∀ exp, s.world.server.selftestPayers.get? payer = some exp → s'.world.now < exp →
        s'.world.server.selftestPayers.get? payer = some exp) : RegistrationInv payer s' := by
  constructor
  case registered =>
    intro exp hbefore hexp
    rw [hphase] at hbefore ⊢
    exact hinv.registered exp hbefore (hsame.1 exp hexp)
  case kept =>
    intro registeredAt hrunning hlive
    rw [hphase] at hrunning
    exact hsame.2 _ (hinv.kept registeredAt hrunning (hnow.trans_lt hlive)) hlive
  case published =>
    rw [hphase, hrequest]
    exact hinv.published
  case signed =>
    rw [hrequest]
    exact hinv.signed

/-- A new server has no registrations, and the check no server. -/
theorem RegistrationInv.newServer (hinv : RegistrationInv payer s) {world : World}
    {offers : OfferStore} (hnone : world.server.selftestPayers.get? payer = none) :
    RegistrationInv payer { s with world := world, phase := s.phase.after (.start offers) } := by
  have hafter : ∀ phase : CheckPhase,
      (∀ registeredAt, phase.after (.start offers) ≠ .running registeredAt true) ∧
        (phase ≠ .before → phase.after (.start offers) ≠ .before) := by
    rintro (_ | _ | _)
    · exact ⟨by rintro registeredAt ⟨⟩, id⟩
    · exact ⟨by rintro registeredAt ⟨⟩, by rintro - ⟨⟩⟩
    · exact ⟨by rintro registeredAt ⟨⟩, by rintro - ⟨⟩⟩
  constructor
  case registered =>
    intro exp _ hexp
    rw [hnone] at hexp
    cases hexp
  case kept =>
    intro registeredAt hrunning
    exact absurd hrunning ((hafter s.phase).1 registeredAt)
  case published => exact fun hrequest => (hafter s.phase).2 (hinv.published hrequest)
  case signed => exact hinv.signed

/-- Every step keeps it. -/
theorem registrationInv_step (hinv : RegistrationInv payer s)
    (h : step env payer s a = some s') : RegistrationInv payer s' := by
  rcases a with _ | event | _ | calls | b
  case registerPayer =>
    obtain ⟨hbefore, hstep⟩ := Option.ite_none_right_eq_some.1 h
    obtain ⟨world, hworld, rfl⟩ := Option.map_eq_some_iff.1 hstep
    obtain ⟨-, rfl⟩ := World.step_eq_some_iff.1 hworld
    -- the registration is stamped with the clock that the phase records
    have hset : (s.world.perform env
        (.registerSelftestPayer payer)).server.selftestPayers.get? payer =
          some (s.world.now + selftestPayerTtlSec) := Dict.get?_set_self _ _ _
    constructor
    case registered =>
      intro exp _ hexp
      exact ⟨s.world.now, rfl, (Option.some.inj (hset.symm.trans hexp)).symm⟩
    case kept =>
      rintro registeredAt ⟨⟩ -
      exact hset
    case published => rintro - ⟨⟩
    case signed => exact hinv.signed
  case publish =>
    obtain ⟨hregistered, hpubkey, rfl⟩ := step_publish h
    refine ⟨hinv.registered, hinv.kept, fun _ => hregistered, ?_⟩
    rintro _ ⟨⟩
    exact hpubkey
  case finish =>
    obtain ⟨world, hworld, rfl⟩ := step_finish h
    obtain ⟨-, rfl⟩ := World.step_eq_some_iff.1 hworld
    -- the end of the check takes the entry away, and no phase is left that needs it
    have hnone : (s.world.perform env
        (.unregisterSelftestPayer payer)).server.selftestPayers.get? payer = none :=
      Dict.get?_erase_self _ _
    constructor
    case registered =>
      intro exp _ hexp
      cases hnone.symm.trans hexp
    case kept => rintro registeredAt ⟨⟩
    case published => rintro - ⟨⟩
    case signed => exact hinv.signed
  case deliver =>
    obtain ⟨event, -, hstep⟩ := Option.bind_eq_some_iff.1 h
    obtain ⟨-, hstep⟩ := Option.ite_none_right_eq_some.1 hstep
    obtain ⟨world, hworld, rfl⟩ := Option.map_eq_some_iff.1 hstep
    rcases registration_step payer hworld with ⟨offers, ⟨⟩, -⟩ | ⟨-, hnow, hsame⟩
    exact hinv.withWorld rfl rfl hnow (hsame (.inl ⟨event, calls, rfl⟩))
  case other =>
    obtain ⟨hforeign, hstep⟩ := Option.ite_none_right_eq_some.1 h
    obtain ⟨world, hworld, rfl⟩ := Option.map_eq_some_iff.1 hstep
    rcases registration_step payer hworld with ⟨offers, rfl, hnone⟩ |
      ⟨hstart, hnow, hsame⟩
    · exact hinv.newServer hnone
    · -- only a new server takes the self-test with it
      have hafter : s.phase.after b = s.phase := by
        cases b with
        | start offers => exact absurd rfl (hstart offers)
        | _ => rfl
      exact hinv.withWorld hafter rfl hnow (hsame (.inr hforeign))

theorem registrationInv_start (payer : Pubkey) (world : World) :
    RegistrationInv payer (start world) := by
  refine ⟨fun _ hbefore => absurd rfl hbefore, ?_, ?_, ?_⟩
  · rintro registeredAt ⟨⟩
  · rintro ⟨⟩
  · rintro event ⟨⟩

/-! ## The traces -/

/-- A delivery that draws a hash leaves it unknown to all stores exactly when it is handled in
time. -/
theorem unknown_deliver_iff (hinv : RegistrationInv payer s) {event : Event} {calls : Calls}
    {k : PaymentHash} (hrequest : s.request = some event) (hcreated : calls.createRequest = some k)
    (hnew : s.world.server.Unknown k) :
    (s.world.server.dispatch env calls s.world.now event).2.Unknown k ↔
      s.HandledInTime env (.deliver calls) := by
  have hphase : s.phase ≠ .before := hinv.published (by rw [hrequest]; rfl)
  have hself := hinv.isSelftestPayer_iff hphase
  rw [← hinv.signed event hrequest] at hself
  rw [ClinkServer.dispatch_unknown_drawn_iff hcreated hnew]
  constructor
  · intro hunwinds event' k' hrequest' hissues _
    obtain rfl := Option.some.inj (hrequest.symm.trans hrequest')
    obtain ⟨hanswered, hselftest, hsent⟩ := hunwinds hissues
    exact ⟨hself.1 hselftest, hanswered, hsent⟩
  · intro hhandled hissues
    obtain ⟨hintime, hanswered, hsent⟩ := hhandled event k hrequest hissues hcreated
    exact ⟨hanswered, hself.2 hintime, hsent⟩

/-- What was drawn for the self-test was drawn by the wallet, and no store knows it any more. -/
structure TraceInv (s : SelfTestRun) : Prop where
  created : ∀ k ∈ s.drawn, k ∈ s.world.history.created
  unknown : ∀ k ∈ s.drawn, s.world.server.Unknown k

/-- A step of the world that is not about the request. -/
theorem TraceInv.withWorld (hinv : TraceInv s) {b : Action}
    (h : World.step env s.world b = some s'.world) (hdrawn : s'.drawn = s.drawn) :
    TraceInv s' := by
  refine ⟨fun k hk => ?_, fun k hk => ?_⟩
  · rw [hdrawn] at hk
    exact (World.mem_created_step h).2 (.inl (hinv.created k hk))
  · rw [hdrawn] at hk
    refine World.unknown_step (hinv.unknown k hk) ?_ h
    -- the wallet draws no hash twice
    rintro event calls rfl hcreated
    exact ((World.step_eq_some_iff.1 h).1.2 k hcreated).created (hinv.created k hk)

/-- Steps in which the request is handled in time, if it is, leave no trace. -/
theorem traceInv_step (hregistered : RegistrationInv payer s) (hinv : TraceInv s)
    (hhandled : HandledInTime env s a) (h : step env payer s a = some s') : TraceInv s' := by
  rcases a with _ | event | _ | calls | b
  case registerPayer =>
    obtain ⟨-, hstep⟩ := Option.ite_none_right_eq_some.1 h
    obtain ⟨world, hworld, rfl⟩ := Option.map_eq_some_iff.1 hstep
    exact hinv.withWorld hworld rfl
  case publish =>
    obtain ⟨-, -, rfl⟩ := step_publish h
    exact ⟨hinv.created, hinv.unknown⟩
  case finish =>
    obtain ⟨world, hworld, rfl⟩ := step_finish h
    exact hinv.withWorld hworld rfl
  case deliver =>
    obtain ⟨event, hrequest, hstep⟩ := Option.bind_eq_some_iff.1 h
    obtain ⟨hnew, hstep⟩ := Option.ite_none_right_eq_some.1 hstep
    obtain ⟨world, hworld, rfl⟩ := Option.map_eq_some_iff.1 hstep
    have hold : TraceInv { s with world := world } := hinv.withWorld hworld rfl
    obtain ⟨henabled, rfl⟩ := World.step_eq_some_iff.1 hworld
    refine ⟨fun k hk => ?_, fun k hk => ?_⟩
    · rcases List.mem_append.1 hk with hk | hk
      · exact hold.created k hk
      · exact List.mem_append_right _ hk
    · rcases List.mem_append.1 hk with hk | hk
      · exact hold.unknown k hk
      -- the hash drawn in this delivery; the earlier ones are not drawn again
      · have hcreated : calls.createRequest = some k := Option.mem_toList.1 hk
        exact (unknown_deliver_iff hregistered hrequest hcreated (hnew k hcreated)).2 hhandled
  case other =>
    obtain ⟨-, hstep⟩ := Option.ite_none_right_eq_some.1 h
    obtain ⟨world, hworld, rfl⟩ := Option.map_eq_some_iff.1 hstep
    exact hinv.withWorld hworld rfl

/-- A delivery that is not handled in time leaves a trace. -/
theorem exists_known_of_not_handledInTime (hregistered : RegistrationInv payer s)
    (hlate : ¬ HandledInTime env s a) (h : step env payer s a = some s') :
    ∃ k ∈ s'.drawn, ¬ s'.world.server.Unknown k := by
  rcases a with _ | event | _ | calls | b
  case deliver =>
    obtain ⟨event, hrequest, hstep⟩ := Option.bind_eq_some_iff.1 h
    obtain ⟨hnew, hstep⟩ := Option.ite_none_right_eq_some.1 hstep
    obtain ⟨world, hworld, rfl⟩ := Option.map_eq_some_iff.1 hstep
    obtain ⟨-, rfl⟩ := World.step_eq_some_iff.1 hworld
    rcases hcreated : calls.createRequest with _ | k
    · refine absurd ?_ hlate
      intro event' k _ _ hk
      cases hcreated.symm.trans hk
    · refine ⟨k, List.mem_append_right _ (Option.mem_toList.2 rfl), fun hunknown => hlate ?_⟩
      exact (unknown_deliver_iff hregistered hrequest hcreated (hnew k hcreated)).1 hunknown
  all_goals exact absurd trivial hlate

/-- If the request of a self-test is handled while its payer is registered, and neither a wallet
call nor the taskgroup refuses, no store knows its payment hash afterwards; otherwise one does. -/
theorem selftest_leaves_no_trace (env : Env) (payer : Pubkey) (world : World) :
    (∀ s, Reachable env payer (HandledInTime env) (start world) s →
      ∀ k ∈ s.drawn, s.world.server.Unknown k) ∧
    ∀ s a s', Reachable env payer (fun _ _ => True) (start world) s →
      step env payer s a = some s' → ¬ HandledInTime env s a →
        ∃ k ∈ s'.drawn, ¬ s'.world.server.Unknown k := by
  refine ⟨fun s hs => ?_, fun s a s' hs hstep hlate => ?_⟩
  · have hinv : RegistrationInv payer s ∧ TraceInv s := by
      refine hs.invariant (I := fun s => RegistrationInv payer s ∧ TraceInv s)
        ⟨registrationInv_start payer world, ?_, ?_⟩ ?_
      · rintro k ⟨⟩
      · rintro k ⟨⟩
      · rintro s a t ⟨hregistered, htrace⟩ hhandled hstep
        exact ⟨registrationInv_step hregistered hstep,
          traceInv_step hregistered htrace hhandled hstep⟩
    exact hinv.2.unknown
  · have hregistered : RegistrationInv payer s := by
      refine hs.invariant (registrationInv_start payer world) ?_
      exact fun _ _ _ hinv _ hstep => registrationInv_step hinv hstep
    exact exists_known_of_not_handledInTime hregistered hlate hstep

end SelfTestRun

/-- An environment in which a request for one sat decrypts. -/
def Env.selftest : Env :=
  { Env.sample with
    jsonLoads := fun text =>
      if text = sampleRequest then some (.object [("offer", .str "o"), ("amount_sats", .int 1)])
      else none }

namespace SelfTestRun

/-- The relay delivers the request three seconds after it was published: an invoice is issued, and
unwound. -/
theorem timely_selftest_leaves_no_trace :
    ∃ s, Reachable .selftest "payer" (HandledInTime .selftest)
        (start (.start 0 true (.sample 150 300))) s ∧ "r" ∈ s.drawn ∧
      s.world.server.recentActivity.items.getLast?.map Activity.result = some "self-test ✓" ∧
      s.world.server.Unknown "r" := by
  have hexec : (Transition.exec (step .selftest "payer") (start (.start 0 true (.sample 150 300)))
      [.registerPayer, .publish (.sample "e" 0), .other (.advance 3)]).any (fun s =>
      decide (s.phase = .running 0 true ∧ s.world.now = 3 ∧
        s.world.server.wallet.lnworker.isSome) &&
        (step .selftest "payer" s (.deliver (.succeeding "r"))).any fun t =>
          t.drawn == ["r"] && decide
            (t.world.server.recentActivity.items.getLast?.map Activity.result =
              some "self-test ✓")) = true := by decide +kernel
  obtain ⟨s, hs, hat⟩ := (Option.any_eq_true _ _).1 hexec
  simp only [Bool.and_eq_true, decide_eq_true_eq] at hat
  obtain ⟨⟨hphase, hnow, hlnworker⟩, hat⟩ := hat
  obtain ⟨t, hdeliver, hat⟩ := (Option.any_eq_true _ _).1 hat
  obtain ⟨hdrawn, hfed⟩ := Bool.and_eq_true_iff.1 hat
  have hdrawn : "r" ∈ t.drawn := by
    rw [eq_of_beq hdrawn]
    exact List.mem_singleton.2 rfl
  have hbefore : Reachable .selftest "payer" (HandledInTime .selftest)
      (start (.start 0 true (.sample 150 300))) s := by
    refine Transition.Reachable.init.exec (fun a ha s => ?_) hs
    simp only [List.mem_cons, List.not_mem_nil, or_false] at ha
    rcases ha with rfl | rfl | rfl <;> trivial
  have hintime : HandledInTime .selftest s (.deliver (.succeeding "r")) := by
    intro event k _ _ _
    exact ⟨⟨0, hphase, by rw [hnow]; decide +kernel⟩,
      by simp [Calls.answered, Calls.succeeding, hlnworker], .inr rfl⟩
  have ht := hbefore.next hintime hdeliver
  exact ⟨t, ht, hdrawn, of_decide_eq_true hfed,
    (selftest_leaves_no_trace _ _ _).1 t ht "r" hdrawn⟩

/-- The relay delivers the request right after the check has given up on it: the invoice is issued
like any other. -/
theorem late_selftest_leaves_trace :
    ∃ s, Transition.exec (step .selftest "payer") (start (.start 0 true (.sample 150 300)))
        [.registerPayer, .publish (.sample "e" 0), .other (.advance 13), .finish,
          .deliver (.succeeding "r")] = some s ∧
      s.phase = .over ∧ "r" ∈ s.drawn ∧
      "r" ∈ s.world.server.reserver.reservations ∧ "r" ∈ s.world.server.wallet.requests ∧
      "r" ∈ s.world.server.receipts.pending ∧ "r" ∈ s.world.server.devfee.pending := by
  have hexec : (Transition.exec (step .selftest "payer")
      (start (.start 0 true (.sample 150 300)))
      [.registerPayer, .publish (.sample "e" 0), .other (.advance 13), .finish,
        .deliver (.succeeding "r")]).any (fun s =>
      s.phase == .over && s.drawn == ["r"] && decide ("r" ∈ s.world.server.reserver.reservations) &&
        decide ("r" ∈ s.world.server.wallet.requests) &&
        decide ("r" ∈ s.world.server.receipts.pending) &&
        decide ("r" ∈ s.world.server.devfee.pending)) = true := by decide +kernel
  obtain ⟨s, hs, hat⟩ := (Option.any_eq_true _ _).1 hexec
  simp only [Bool.and_eq_true, beq_iff_eq, decide_eq_true_eq] at hat
  obtain ⟨⟨⟨⟨⟨hphase, hdrawn⟩, hreserved⟩, hrequest⟩, hreceipt⟩, hdevfee⟩ := hat
  refine ⟨s, hs, hphase, ?_, hreserved, hrequest, hreceipt, hdevfee⟩
  rw [hdrawn]
  exact List.mem_singleton.2 rfl

end SelfTestRun

end ElectrumClink
