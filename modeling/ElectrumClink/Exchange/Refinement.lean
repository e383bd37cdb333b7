import ElectrumClink.Exchange.Conclusion

/-!
# The exchange refines the self-test run

A `SelfTestRun` sees a check from the server: its payer is registered, its request is published and
delivered any number of times, and its payer is unregistered. Everything that the payer, the relays
and others do is one of these or nothing to the server (`exists_run_of_step`), so whatever holds of
all self-test runs holds of the server of an exchange (`exchange_refines_selftest`).
-/

namespace ElectrumClink

namespace Exchange

variable {ch : Channel} {s t : Exchange} {s' : SelfTestRun}

/-- Where the check is, seen from the server. -/
def PhaseOf (stage : PayerStage) (phase : CheckPhase) : Prop :=
  match stage with
  | .idle => phase = .before
  | .ended _ => phase = .over
  | .connecting | .settling | .publishing | .awaiting | .closing _ =>
    ∃ registeredAt sameServer, phase = .running registeredAt sameServer

/-- The exchange looks like this self-test run to the server, and the run drew every payment hash
that was drawn for a reply to the request. -/
structure Matches (s : Exchange) (s' : SelfTestRun) : Prop where
  world : s'.world = s.world
  phase : PhaseOf s.payer.stage s'.phase
  request : s'.request = s.payer.request
  drawn : ∀ x ∈ s.served, s.payer.request = some x.event → ∀ k ∈ x.calls.createRequest,
    k ∈ s'.drawn

/-- Between its registration and its end a check is running. -/
theorem PhaseOf.running {stage : PayerStage} {phase : CheckPhase} (h : PhaseOf stage phase)
    (hidle : stage ≠ .idle) (hended : ∀ result, stage ≠ .ended result) :
    ∃ registeredAt sameServer, phase = .running registeredAt sameServer := by
  cases stage with
  | idle => exact absurd rfl hidle
  | ended result => exact absurd rfl (hended result)
  | connecting | settling | publishing | awaiting | closing => exact h

/-- What other things happen in the world does not move the check. -/
theorem PhaseOf.after {stage : PayerStage} {phase : CheckPhase} (h : PhaseOf stage phase)
    (a : Action) : PhaseOf stage (phase.after a) := by
  have hafter : phase.after a = phase ∨ ∃ registeredAt sameServer,
      phase = .running registeredAt sameServer ∧ phase.after a = .running registeredAt false := by
    cases a with
    | start offers =>
      rcases phase with _ | ⟨registeredAt, sameServer⟩ | _
      · exact .inl rfl
      · exact .inr ⟨registeredAt, sameServer, rfl, rfl⟩
      · exact .inl rfl
    | _ => exact .inl rfl
  rcases hafter with hsame | ⟨registeredAt, sameServer, rfl, hafter⟩
  · rw [hsame]
    exact h
  · rw [hafter]
    cases stage with
    | idle | ended => cases h
    | connecting | settling | publishing | awaiting | closing =>
      exact ⟨registeredAt, false, rfl⟩

/-- What is about nobody's payer, or another one's, happens in the run as well. -/
theorem Matches.other (hmatch : Matches s s') {a : Action} (hforeign : a.Foreign ch.payerPub)
    {world : World} (hstep : s.world.step ch.env a = some world) (hworld : t.world = world)
    (hpayer : t.payer = s.payer)
    (hserved : ∀ x ∈ t.served, x ∈ s.served ∨ s.payer.request ≠ some x.event) :
    ∃ as t', Transition.exec (SelfTestRun.step ch.env ch.payerPub) s' as = some t' ∧
      Matches t t' := by
  refine ⟨[.other a], { s' with world := world, phase := s'.phase.after a }, ?_, ?_⟩
  · have hstep' : SelfTestRun.step ch.env ch.payerPub s' (.other a) =
        some { s' with world := world, phase := s'.phase.after a } := by
      rw [SelfTestRun.step, if_pos hforeign, hmatch.world, hstep]
      rfl
    rw [Transition.exec, hstep']
    rfl
  · constructor
    case world => exact hworld.symm
    case phase =>
      rw [hpayer]
      exact hmatch.phase.after a
    case request =>
      rw [hpayer]
      exact hmatch.request
    case drawn =>
      intro x hx hrequest k hk
      rw [hpayer] at hrequest
      rcases hserved x hx with hold | hother
      · exact hmatch.drawn x hold hrequest k hk
      · exact absurd hrequest hother

/-- What does not reach the server is nothing to the run. -/
theorem Matches.silent (hmatch : Matches s s') (hworld : t.world = s.world)
    (hphase : PhaseOf t.payer.stage s'.phase) (hrequest : t.payer.request = s.payer.request)
    (hserved : t.served = s.served) :
    ∃ as t', Transition.exec (SelfTestRun.step ch.env ch.payerPub) s' as = some t' ∧
      Matches t t' := by
  refine ⟨[], s', rfl, ?_⟩
  constructor
  case world => exact hmatch.world.trans hworld.symm
  case phase => exact hphase
  case request => exact hmatch.request.trans hrequest.symm
  case drawn =>
    rw [hserved, hrequest]
    exact hmatch.drawn

/-- A delivery of the request is one in the run. -/
theorem Matches.deliver (hmatch : Matches s s') {event : Event} {calls : Calls} {world : World}
    (hrequest : s.payer.request = some event)
    (hnew : ∀ k ∈ calls.createRequest, s.world.server.Unknown k)
    (hstep : s.world.step ch.env (.dispatch event calls) = some world) :
    ∃ as t', Transition.exec (SelfTestRun.step ch.env ch.payerPub) s' as = some t' ∧
      Matches (s.afterServe ch event calls world) t' := by
  refine ⟨[.deliver calls],
    { s' with world := world, drawn := s'.drawn ++ calls.createRequest.toList }, ?_, ?_⟩
  · have hstep' : SelfTestRun.step ch.env ch.payerPub s' (.deliver calls) = some
        { s' with world := world, drawn := s'.drawn ++ calls.createRequest.toList } := by
      rw [SelfTestRun.step, hmatch.request, hrequest, Option.bind_some, hmatch.world, if_pos hnew,
        hstep]
      rfl
    rw [Transition.exec, hstep']
    rfl
  · have hold : ∀ x ∈ s.served, s.payer.request = some x.event → ∀ k ∈ x.calls.createRequest,
        k ∈ s'.drawn ++ calls.createRequest.toList :=
      fun x hx hown k hk => List.mem_append_left _ (hmatch.drawn x hx hown k hk)
    rcases afterServe_cases ch s event calls world with ⟨-, heq⟩ | ⟨reply, -, heq⟩
    · rw [heq]
      exact ⟨rfl, hmatch.phase, hmatch.request, hold⟩
    · rw [heq]
      refine ⟨rfl, hmatch.phase, hmatch.request, fun x hx hown k hk => ?_⟩
      rcases List.mem_append.1 hx with hx | hx
      · exact hold x hx hown k hk
      · obtain rfl := List.mem_singleton.1 hx
        exact List.mem_append_right _ (Option.mem_toList.2 hk)

/-- Every step is matched by what it is to the server. -/
theorem exists_run_of_step (hnet : NetworkInv ch s) (hmatch : Matches s s')
    {a : ExchangeAction} (h : step ch s a = some t) :
    ∃ as t', Transition.exec (SelfTestRun.step ch.env ch.payerPub) s' as = some t' ∧
      Matches t t' := by
  cases a with
  | world a =>
    have hstep : (if a.Foreign ch.payerPub then
        (s.world.step ch.env a).map fun world => { s with world := world } else none) = some t := by
      cases a with
      | dispatch event calls => cases h
      | _ => exact h
    obtain ⟨hforeign, hstep⟩ := Option.ite_none_right_eq_some.1 hstep
    obtain ⟨world, hworld, rfl⟩ := Option.map_eq_some_iff.1 hstep
    exact hmatch.other hforeign hworld rfl rfl fun _ => .inl
  | ping id nonce =>
    obtain ⟨-, hstep⟩ := Option.ite_none_right_eq_some.1 h
    obtain ⟨world, hworld, rfl⟩ := Option.map_eq_some_iff.1 hstep
    have hforeign : (Action.ping id).Foreign ch.payerPub := trivial
    exact hmatch.other hforeign hworld rfl rfl fun _ => .inl
  | serve event calls =>
    obtain ⟨⟨hmem, hnew⟩, hstep⟩ := Option.ite_none_right_eq_some.1 h
    obtain ⟨world, hworld, rfl⟩ := Option.map_eq_some_iff.1 hstep
    by_cases hown : event.pubkey = ch.payerPub
    · exact hmatch.deliver (hnet.own event hmem hown) hnew hworld
    have hforeign : (Action.dispatch event calls).Foreign ch.payerPub := hown
    -- the request of the check is the only event of its payer
    · have hother : s.payer.request ≠ some event := fun hrequest =>
        hown (hnet.request event hrequest).2
      rcases afterServe_cases ch s event calls world with ⟨-, heq⟩ | ⟨reply, -, heq⟩
      · rw [heq]
        exact hmatch.other hforeign hworld rfl rfl fun _ => .inl
      · rw [heq]
        refine hmatch.other hforeign hworld rfl rfl
          fun x hx => ?_
        rcases List.mem_append.1 hx with hx | hx
        · exact .inl hx
        · rw [List.mem_singleton.1 hx]
          exact .inr hother
  | register nonce clock =>
    obtain ⟨hidle, hstep⟩ := Option.ite_none_right_eq_some.1 h
    obtain ⟨content, -, hstep⟩ := Option.bind_eq_some_iff.1 hstep
    obtain ⟨world, hworld, rfl⟩ := Option.map_eq_some_iff.1 hstep
    have hbefore : s'.phase = .before := by
      have hphase := hmatch.phase
      rw [hidle] at hphase
      exact hphase
    refine ⟨[.registerPayer],
      { s' with world := world, phase := .running s'.world.now true }, ?_, ?_⟩
    · have hstep' : SelfTestRun.step ch.env ch.payerPub s' .registerPayer =
          some { s' with world := world, phase := .running s'.world.now true } := by
        rw [SelfTestRun.step, if_pos hbefore, hmatch.world, hworld]
        rfl
      rw [Transition.exec, hstep']
      rfl
    · exact ⟨rfl, ⟨_, _, rfl⟩, hmatch.request, hmatch.drawn⟩
  | publish id =>
    obtain ⟨⟨hsettling, hfresh, -⟩, heq⟩ := Option.ite_none_right_eq_some.1 h
    obtain rfl := Option.some.inj heq
    have hnone : s'.request = none := by
      rw [hmatch.request]
      exact hnet.early (by rw [hsettling]; trivial)
    obtain ⟨registeredAt, sameServer, hrunning⟩ : ∃ registeredAt sameServer,
        s'.phase = .running registeredAt sameServer := by
      have hphase := hmatch.phase
      rw [hsettling] at hphase
      exact hphase
    set request := ch.requestEvent s.world.now id s.payer.content
    refine ⟨[.publish request], { s' with request := some request }, ?_, ?_⟩
    · have hstep' : SelfTestRun.step ch.env ch.payerPub s' (.publish request) =
          some { s' with request := some request } := by
        rw [SelfTestRun.step, hrunning, hnone]
        refine if_pos ⟨rfl, rfl, ?_⟩
        rw [hmatch.world]
        rfl
      rw [Transition.exec, hstep']
      rfl
    · refine ⟨hmatch.world, ⟨registeredAt, sameServer, hrunning⟩, rfl, fun x hx hrequest => ?_⟩
      -- what was served before has another id
      obtain ⟨hmem, -⟩ := hnet.served x hx
      exact absurd (congrArg Event.id (Option.some.inj hrequest).symm) (hfresh x.event hmem)
  | unregister =>
    simp only [step] at h
    split at h
    next result hclosing =>
      obtain ⟨world, hworld, rfl⟩ := Option.map_eq_some_iff.1 h
      obtain ⟨registeredAt, sameServer, hrunning⟩ := hmatch.phase.running (by simp [hclosing])
        (by simp [hclosing])
      refine ⟨[.finish], { s' with world := world, phase := .over }, ?_, ?_⟩
      · have hstep' : SelfTestRun.step ch.env ch.payerPub s' .finish =
            some { s' with world := world, phase := .over } := by
          rw [SelfTestRun.step, hrunning, hmatch.world, hworld]
          rfl
        rw [Transition.exec, hstep']
        rfl
      · exact ⟨rfl, rfl, hmatch.request, hmatch.drawn⟩
    next => cases h
  | inject event =>
    obtain ⟨-, heq⟩ := Option.ite_none_right_eq_some.1 h
    obtain rfl := Option.some.inj heq
    exact hmatch.silent rfl hmatch.phase rfl rfl
  | respond i id nonce =>
    obtain ⟨⟨request, payload⟩, -, hstep⟩ := Option.bind_eq_some_iff.1 h
    obtain ⟨-, hstep⟩ := Option.ite_none_right_eq_some.1 hstep
    obtain ⟨event, -, rfl⟩ := Option.map_eq_some_iff.1 hstep
    exact hmatch.silent rfl hmatch.phase rfl rfl
  | drop i =>
    obtain ⟨-, heq⟩ := Option.ite_none_right_eq_some.1 h
    obtain rfl := Option.some.inj heq
    exact hmatch.silent rfl hmatch.phase rfl rfl
  | receipt rhash id nonce =>
    obtain ⟨entry, -, hstep⟩ := Option.bind_eq_some_iff.1 h
    obtain ⟨-, hstep⟩ := Option.ite_none_right_eq_some.1 hstep
    obtain ⟨event, -, rfl⟩ := Option.map_eq_some_iff.1 hstep
    exact hmatch.silent rfl hmatch.phase rfl rfl
  | hear event =>
    obtain ⟨-, heq⟩ := Option.ite_none_right_eq_some.1 h
    obtain rfl := Option.some.inj heq
    exact hmatch.silent rfl hmatch.phase rfl rfl
  | examine =>
    obtain ⟨event, inbox, -, -, -, ⟨-, rfl⟩ | ⟨-, -, request, -, rfl⟩⟩ := examine_cases h
    · exact hmatch.silent rfl hmatch.phase rfl rfl
    · exact hmatch.silent rfl hmatch.phase rfl rfl
  | connect connected =>
    obtain ⟨hconnecting, hstep⟩ := Option.ite_none_right_eq_some.1 h
    have hrunning := hmatch.phase.running (by simp [hconnecting]) (by simp [hconnecting])
    split at hstep
    all_goals
      obtain rfl := Option.some.inj hstep
      exact hmatch.silent rfl hrunning rfl rfl
  | published | timeout =>
    obtain ⟨hstage, heq⟩ := Option.ite_none_right_eq_some.1 h
    obtain rfl := Option.some.inj heq
    exact hmatch.silent rfl (hmatch.phase.running (by simp [hstage]) (by simp [hstage])) rfl rfl
  | publishFailed repr =>
    obtain ⟨hstage, heq⟩ := Option.ite_none_right_eq_some.1 h
    obtain rfl := Option.some.inj heq
    refine hmatch.silent rfl (hmatch.phase.running ?_ ?_) rfl rfl
    all_goals rcases hstage with hstage | hstage <;> simp [hstage]
  | raised repr =>
    obtain ⟨hstage, heq⟩ := Option.ite_none_right_eq_some.1 h
    obtain rfl := Option.some.inj heq
    refine hmatch.silent rfl (hmatch.phase.running ?_ ?_) rfl rfl
    · rintro hidle
      rw [hidle] at hstage
      rcases hstage with hlistening | hconnecting
      · exact hlistening
      · cases hconnecting
    · rintro result hended
      rw [hended] at hstage
      rcases hstage with hlistening | hconnecting
      · exact hlistening
      · cases hconnecting
  | conclude clock =>
    obtain ⟨hawaiting, hstep⟩ := Option.ite_none_right_eq_some.1 h
    obtain ⟨payload, -, rfl⟩ := Option.map_eq_some_iff.1 hstep
    exact hmatch.silent rfl (hmatch.phase.running (by simp [hawaiting]) (by simp [hawaiting])) rfl
      rfl

/-- To the server, every exchange is a self-test run: the same world, the request that the check
published, and every payment hash drawn for it. -/
theorem exchange_refines_selftest (hch : ch.Lawful) {world : World}
    (hs : Reachable ch (start world) s) :
    ∃ s', SelfTestRun.Reachable ch.env ch.payerPub (fun _ _ => True) (.start world) s' ∧
      Matches s s' := by
  have hstart : NetworkInv ch (start world) ∧ Matches (start world) (SelfTestRun.start world) := by
    refine ⟨networkInv_start world, rfl, rfl, rfl, ?_⟩
    rintro x ⟨⟩
  have hstep : ∀ s a t s', NetworkInv ch s ∧ Matches s s' → True → step ch s a = some t →
      ∃ as t', Transition.exec (SelfTestRun.step ch.env ch.payerPub) s' as = some t' ∧
        NetworkInv ch t ∧ Matches t t' := by
    rintro s a t s' ⟨hnet, hmatch⟩ - hstep
    obtain ⟨as, t', hexec, hmatch'⟩ := exists_run_of_step hnet hmatch hstep
    exact ⟨as, t', hexec, networkInv_step hch hnet hstep, hmatch'⟩
  obtain ⟨s', hs', -, hmatch⟩ := hs.simulation hstart hstep
  exact ⟨s', hs', hmatch⟩

/-- The run of the sample, as a self-test run. -/
theorem exchange_refines_selftest_sample :
    ∃ s s', s.payer.stage = .awaiting ∧
      SelfTestRun.Reachable Channel.sample.env Channel.sample.payerPub (fun _ _ => True)
        (.start (.start 0 true (.sample 150 300))) s' ∧ Matches s s' := by
  obtain ⟨s, -, -, hs, hawaiting, -⟩ := exists_awaiting_sample
  obtain ⟨s', hs', hmatch⟩ := exchange_refines_selftest Channel.lawful_sample hs
  exact ⟨s, s', hawaiting, hs', hmatch⟩

end Exchange

end ElectrumClink
