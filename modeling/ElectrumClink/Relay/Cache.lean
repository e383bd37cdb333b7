import ElectrumClink.Relay.Pinned

/-!
# The cached pick

`pick_payable_relay` keeps its selection for a day. Two things about it are not looked at:

* whether the candidates changed while the probes were awaited. `invalidate_relay_selection` does
  not wait for the lock, so a pick that read the candidates before may store its selection
  afterwards (`overtaken_pick_is_cached`). `cached_selection_is_current` names the steps that must
  not happen;
* whether the selection found a relay at all. A failure is served for a day like a success, without
  a probe (`cached_failure_blocks_offers`); `failed_pick_probed_candidates` names the steps that
  serve one.
-/

namespace ElectrumClink

variable {tables : CharTables}

/-! ## What a selection tells about its probes -/

/-- Probing these candidates may yield the selection. -/
def RelaySelection.MadeFrom (tables : CharTables) (candidates : List String)
    (sel : RelaySelection) : Prop :=
  ∃ probes, selectPayableRelay tables candidates probes = .ok sel

/-- There is one result for every candidate, in their order. -/
theorem map_relay_gatherProbes {probes : Probes} {i : ℕ} {cands : List String}
    {results : List ProbeResult} (h : gatherProbes probes i cands = .ok results) :
    results.map ProbeResult.relay = cands := by
  induction cands generalizing i results with
  | nil =>
    obtain rfl := Except.ok.inj h
    rfl
  | cons c cands ih =>
    rw [gatherProbes, probeRelayPayable] at h
    rcases hprobe : probes i c with _ | report
    · rw [hprobe] at h
      cases h
    rcases hrest : gatherProbes probes (i + 1) cands with e | rest
    · rw [hprobe, hrest] at h
      cases h
    rw [hprobe, hrest] at h
    obtain rfl := Except.ok.inj h
    rw [List.map_cons, ih hrest]

/-- A selection holds the results of all candidates; one that is not payable holds no payable
result. -/
theorem selectPayableRelay_spec {candidates : List String} {probes : Probes} {sel : RelaySelection}
    (h : selectPayableRelay tables candidates probes = .ok sel) :
    sel.results.map ProbeResult.relay = probedCandidates tables candidates ∧
      (sel.ok = false → ∀ res ∈ sel.results, res.ok = false) := by
  unfold selectPayableRelay at h
  split at h
  next hcands =>
    obtain rfl := Except.ok.inj h
    refine ⟨hcands.symm, fun _ res hres => ?_⟩
    cases hres
  -- all candidates are probed, even when the first one passes
  next first rest hcands =>
    rcases hgather : gatherProbes probes 0 (first :: rest) with e | results
    · rw [hgather] at h
      cases h
    rw [hgather] at h
    obtain rfl := Except.ok.inj h
    unfold selectFrom
    rcases hfind : results.find? ProbeResult.ok with _ | res
    · refine ⟨(map_relay_gatherProbes hgather).trans hcands.symm, fun _ res hres => ?_⟩
      exact Bool.not_eq_true _ ▸ List.find?_eq_none.1 hfind res hres
    · refine ⟨(map_relay_gatherProbes hgather).trans hcands.symm, fun hok => ?_⟩
      cases hok

/-- A selection is made from candidates that are the same once they are stripped. -/
theorem RelaySelection.MadeFrom.congr {candidates candidates' : List String}
    {sel : RelaySelection} (h : sel.MadeFrom tables candidates)
    (heq : probedCandidates tables candidates = probedCandidates tables candidates') :
    sel.MadeFrom tables candidates' := by
  obtain ⟨probes, hprobes⟩ := h
  refine ⟨probes, ?_⟩
  unfold selectPayableRelay at hprobes ⊢
  rwa [← heq]

/-- A selection tells the candidates it was made from. -/
theorem RelaySelection.MadeFrom.probedCandidates_eq {candidates candidates' : List String}
    {sel : RelaySelection} (h : sel.MadeFrom tables candidates)
    (h' : sel.MadeFrom tables candidates') :
    probedCandidates tables candidates = probedCandidates tables candidates' := by
  obtain ⟨probes, hprobes⟩ := h
  obtain ⟨probes', hprobes'⟩ := h'
  rw [← (selectPayableRelay_spec hprobes).1, (selectPayableRelay_spec hprobes').1]

namespace SavedOffers

/-- A relay that is not blank is pinned on every offer that lacks one. -/
theorem lacksRelay_pinMissingRelays (s : SavedOffers) {relay : String}
    (hne : tables.stripText relay ≠ "") :
    (s.pinMissingRelays tables relay).2.list.any (lacksRelay tables) = false := by
  unfold pinMissingRelays
  dsimp only
  rw [if_neg hne, List.any_eq_false]
  split
  next hnone =>
    intro o ho hlacks
    have hmem : o.offerId ∈ (s.list.filter (lacksRelay tables)).map Offer.offerId :=
      List.mem_map_of_mem (List.mem_filter.2 ⟨ho, hlacks⟩)
    rw [hnone] at hmem
    cases hmem
  next =>
    intro o ho
    -- every offer of the new list had a relay, or got this one
    obtain ⟨e, he, rfl⟩ := List.mem_map.1 ho
    have he' : e ∈ s.offers.entries.map fun e => (e.1,
        if lacksRelay tables e.2 then
          { e.2 with relay := tables.stripText relay, relayCustom := false }
        else e.2) := he
    obtain ⟨e', -, rfl⟩ := List.mem_map.1 he'
    by_cases hlacks : lacksRelay tables e'.2 = true
    · rw [if_pos hlacks, lacksRelay, tables.stripText_stripText, beq_iff_eq]
      exact hne
    · rwa [if_neg hlacks]

end SavedOffers

/-! ## What a pick returns -/

/-- The selection that a pick returned was made from the candidates in force at that moment. -/
def PickReturn.Current (tables : CharTables) (r : PickReturn) : Prop :=
  r.selection.MadeFrom tables r.candidatesNow

/-- A pick that found no payable relay has probed every candidate, none of which passed; and a pick
that leaves an offer without a relay saw no candidate pass. -/
structure PickReturn.Probed (tables : CharTables) (r : PickReturn) : Prop where
  failed : r.selection.ok = false →
    r.probed.map ProbeResult.relay = probedCandidates tables r.candidates ∧
      ∀ res ∈ r.probed, res.ok = false
  unpinned : r.unpinned = true → ∀ res ∈ r.probed, res.ok = false

namespace RelaySession

variable {b : Bech32} {tables : UrlTables} {normalizeUrl : String → String}
  {s s' : RelaySession} {a : SessionAction}

/-! ## What a step does to the cache -/

/-- What is written down of a pick is current when the selection was made from the candidates in
force. -/
theorem current_pickReturn {tables : CharTables} {server : RelayServer} {sel : RelaySelection}
    {candidates : List String} {probed : List ProbeResult} :
    (pickReturn tables server sel candidates probed).Current tables ↔
      sel.MadeFrom tables (server.candidateRelays tables) := by
  rw [PickReturn.Current, pickReturn_selection, pickReturn_candidatesNow]

/-- Adding an offer leaves the selection and the settings. -/
theorem addOffer_frame (b : Bech32) (tables : UrlTables) (t : RelayServer) (call : CreateCall)
    (relay : String) (relayCustom : Bool) :
    (t.addOffer b tables.toCharTables call relay relayCustom).2.relaySelection =
        t.relaySelection ∧
      (t.addOffer b tables.toCharTables call relay relayCustom).2.candidateRelays
        tables.toCharTables = t.candidateRelays tables.toCharTables := by
  rw [RelayServer.addOffer_snd]
  unfold RelayServer.restartIf
  split <;> exact ⟨rfl, rfl⟩

theorem candidateRelays_of_picked {t u : RelayServer} {sel : RelaySelection}
    (h : RelayServer.Picked tables.toCharTables t u sel) :
    u.candidateRelays tables.toCharTables = t.candidateRelays tables.toCharTables :=
  RelayServer.candidateRelays_congr h.relaySetting h.nostrRelays

/-- Whoever awaited a pick leaves the selection and the settings. -/
theorem resume_frame (b : Bech32) (tables : UrlTables) (normalizeUrl : String → String)
    (t : RelaySession) (caller : PickCaller) (restarts : ℕ) (sel : RelaySelection) :
    (t.resume b tables normalizeUrl caller restarts sel).server.relaySelection =
        t.server.relaySelection ∧
      (t.resume b tables normalizeUrl caller restarts sel).server.candidateRelays
        tables.toCharTables = t.server.candidateRelays tables.toCharTables ∧
      (t.resume b tables normalizeUrl caller restarts sel).returns = t.returns := by
  have hreturns : (t.resume b tables normalizeUrl caller restarts sel).returns = t.returns := by
    rcases caller with call | _
    · unfold resume
      dsimp only
      rcases (t.server.createFrom b tables call sel).1 with e | created <;> rfl
    · rfl
  rcases resume_server b tables normalizeUrl t caller restarts sel with h | ⟨call, -, h⟩
  · rw [h]
    exact ⟨rfl, rfl, hreturns⟩
  · rw [h]
    obtain ⟨hselection, hcandidates⟩ := addOffer_frame b tables t.server call
      sel.relay false
    exact ⟨hselection, hcandidates, hreturns⟩

/-! ## The candidates in force -/

/-- The cached selection, if there is one, was made from the candidates in force. -/
def SelectionCurrent (tables : CharTables) (s : RelaySession) : Prop :=
  ∀ sel, s.server.relaySelection = some sel → sel.MadeFrom tables (s.server.candidateRelays tables)

/-- The global configuration stays as it is. -/
def ConfigConstant (_ : RelaySession) (a : SessionAction) : Prop :=
  ∀ relays, a ≠ .setNostrRelays relays

/-- When the probes of a pick return, the candidates that it found are still in force. -/
def ReturnsInTime (tables : CharTables) (s : RelaySession) (a : SessionAction) : Prop :=
  ∀ probes pick sel, a = .probed probes → s.pick = some pick →
    selectPayableRelay tables pick.pending.candidates probes = .ok sel →
      probedCandidates tables pick.pending.candidates =
        probedCandidates tables (s.server.candidateRelays tables)

/-- What a pick from the cache writes down. -/
theorem returns_beginPick {caller : PickCaller} {force : Bool} {clock : ℕ → Time} {r : PickReturn}
    (hr : r ∈ (s.beginPick b tables normalizeUrl caller force clock).returns) :
    r ∈ s.returns ∨ ∃ sel t, force = false ∧ s.server.freshSelection (clock 0) = some sel ∧
      RelayServer.Picked tables.toCharTables s.server t sel ∧
      r = pickReturn tables.toCharTables t sel (s.server.candidateRelays tables.toCharTables)
        [] := by
  unfold beginPick at hr
  rcases RelayServer.pickBegin_cases tables.toCharTables s.server force clock with
    ⟨sel, t, hforce, hfresh, hbegin, hpicked⟩ | ⟨-, hbegin⟩
  · rw [hbegin] at hr
    dsimp only at hr
    rw [(resume_frame b tables normalizeUrl _ caller _ sel).2.2] at hr
    rcases List.mem_append.1 hr with hr | hr
    · exact .inl hr
    · exact .inr ⟨sel, t, hforce, hfresh, hpicked, List.mem_singleton.1 hr⟩
  · rw [hbegin] at hr
    exact .inl hr

/-- What a pick writes down when its probes return. -/
theorem returns_endPick {pick : OpenPick} {probes : Probes} {r : PickReturn}
    (hr : r ∈ (s.endPick b tables normalizeUrl pick probes).returns) :
    r ∈ s.returns ∨ ∃ sel t,
      selectPayableRelay tables.toCharTables pick.pending.candidates probes = .ok sel ∧
      RelayServer.Picked tables.toCharTables s.server t sel ∧
      r = pickReturn tables.toCharTables t sel pick.pending.candidates sel.results := by
  unfold endPick at hr
  rcases hselect : selectPayableRelay tables.toCharTables pick.pending.candidates probes with
    e | sel
  · rw [hselect] at hr
    exact .inl hr
  · rw [hselect] at hr
    dsimp only at hr
    rw [(resume_frame b tables normalizeUrl _ pick.caller _ sel).2.2] at hr
    rcases List.mem_append.1 hr with hr | hr
    · exact .inl hr
    · exact .inr ⟨sel, _, rfl, RelayServer.picked_pickFinish pick.pending sel,
        List.mem_singleton.1 hr⟩

/-- A pick that a step returns was served from the cache, or made of the probes that returned. -/
inductive Returns (tables : CharTables) (s : RelaySession) (a : SessionAction) (r : PickReturn) :
    Prop
  | cached (sel : RelaySelection) (t : RelayServer) (clock : ℕ → Time)
      (haction : a = .pick false clock ∨ ∃ call : CreateCall, a = .create call ∧ clock = call.clock)
      (hfresh : s.server.freshSelection (clock 0) = some sel)
      (hpicked : RelayServer.Picked tables s.server t sel)
      (hr : r = pickReturn tables t sel (s.server.candidateRelays tables) [])
  | probed (pick : OpenPick) (probes : Probes) (sel : RelaySelection) (t : RelayServer)
      (haction : a = .probed probes) (hpick : s.pick = some pick)
      (hselect : selectPayableRelay tables pick.pending.candidates probes = .ok sel)
      (hpicked : RelayServer.Picked tables s.server t sel)
      (hr : r = pickReturn tables t sel pick.pending.candidates sel.results)

/-- What a step writes down is the pick that it returns. -/
theorem returns_step (h : step b tables normalizeUrl s a = some s') {r : PickReturn}
    (hr : r ∈ s'.returns) : r ∈ s.returns ∨ Returns tables.toCharTables s a r := by
  rcases a with call | ⟨force, clock⟩ | probes | call | i | _ | _ | _ | _ | _ | _ | _ | now | now |
    _
  case create =>
    obtain ⟨-, hstep⟩ := Option.ite_none_right_eq_some.1 h
    obtain rfl := Option.some.inj hstep
    rcases returns_beginPick hr with hr | ⟨sel, t, -, hfresh, hpicked, rfl⟩
    · exact .inl hr
    · exact .inr (.cached sel t call.clock (.inr ⟨call, rfl, rfl⟩) hfresh hpicked rfl)
  case pick =>
    obtain ⟨-, hstep⟩ := Option.ite_none_right_eq_some.1 h
    obtain rfl := Option.some.inj hstep
    rcases returns_beginPick hr with hr | ⟨sel, t, rfl, hfresh, hpicked, rfl⟩
    · exact .inl hr
    · exact .inr (.cached sel t clock (.inl rfl) hfresh hpicked rfl)
  case probed =>
    obtain ⟨pick, hpick, rfl⟩ := Option.map_eq_some_iff.1 h
    -- only here do probes enter: the selection that is returned is over their results
    rcases returns_endPick hr with hr | ⟨sel, t, hselect, hpicked, rfl⟩
    · exact .inl hr
    · exact .inr (.probed pick probes sel t rfl hpick hselect hpicked rfl)
  case createCustom =>
    obtain ⟨-, hstep⟩ := Option.ite_none_right_eq_some.1 h
    obtain rfl := Option.some.inj hstep
    unfold beginCustom at hr
    split at hr <;> exact .inl hr
  case probedCustom =>
    obtain ⟨custom, -, rfl⟩ := Option.map_eq_some_iff.1 h
    -- a custom relay is probed for its own offer and returns no pick
    left
    unfold endCustom at hr
    split at hr
    next => exact hr
    next probe hprobe =>
      dsimp only at hr
      rcases hresult : (s.server.createCustomFrom b tables custom.call custom.relay probe).1 with
        e | created
      · rw [hresult] at hr
        exact hr
      · rw [hresult] at hr
        exact hr
  case ensureListener =>
    obtain rfl := Option.some.inj h
    unfold ensureListenerRelays at hr
    split at hr <;> exact .inl hr
  case restart =>
    obtain ⟨t, -, rfl⟩ := Option.map_eq_some_iff.1 h
    exact .inl hr
  all_goals
    obtain rfl := Option.some.inj h
    exact .inl hr

/-! ## A setting that changes while a pick is under way -/

/-- A step keeps the cached selection current, unless a pick returns too late. -/
theorem current_step (hcurrent : s.SelectionCurrent tables.toCharTables)
    (hconfig : ConfigConstant s a) (htime : ReturnsInTime tables.toCharTables s a)
    (h : step b tables normalizeUrl s a = some s') : s'.SelectionCurrent tables.toCharTables := by
  -- what a pick leaves in the cache was made from the candidates in force
  have hmade : ∀ {u : RelayServer} {sel : RelaySelection},
      s.Selects tables.toCharTables a sel →
      RelayServer.Picked tables.toCharTables s.server u sel → ∀ sel',
        u.relaySelection = some sel' →
          sel'.MadeFrom tables.toCharTables (u.candidateRelays tables.toCharTables) := by
    intro u sel hsel hpick sel' hsel'
    obtain rfl := Option.some.inj (hpick.selection.symm.trans hsel')
    rw [candidateRelays_of_picked hpick]
    -- the cached one was current already; a new one is, unless its candidates changed meanwhile
    rcases hsel with hcached | ⟨pick, probes, hopen, haction, hselect⟩
    · exact hcurrent sel hcached
    · exact RelaySelection.MadeFrom.congr ⟨probes, hselect⟩
        (htime probes pick sel haction hopen hselect)
  have hkept : ∀ u : RelayServer, u.relaySelection = s.server.relaySelection →
      u.relaySetting = s.server.relaySetting → u.nostrRelays = s.server.nostrRelays → ∀ sel,
      u.relaySelection = some sel →
        sel.MadeFrom tables.toCharTables (u.candidateRelays tables.toCharTables) := by
    intro u hselection hsetting hrelays sel hsel
    rw [RelayServer.candidateRelays_congr hsetting hrelays]
    exact hcurrent sel (hselection.symm.trans hsel)
  have hdropped : ∀ u : RelayServer, u.relaySelection = none → ∀ sel,
      u.relaySelection = some sel →
        sel.MadeFrom tables.toCharTables (u.candidateRelays tables.toCharTables) := by
    intro u hnone sel hsel
    rw [hnone] at hsel
    cases hsel
  unfold SelectionCurrent
  have hmove := serverMove_step h
  generalize s'.server = server at hmove ⊢
  rcases hmove with _ | ⟨hsel, hpick⟩ | ⟨relay, relayCustom, hcall, hstart⟩ | ⟨offerId, clock, -⟩ |
    ⟨offerId, f, hf⟩ | ⟨relay, -⟩ | ⟨relay, -⟩ | ⟨relays, haction⟩ | ⟨-, hrestart⟩
  case picks => exact hmade hsel hpick
  case adds call u =>
    obtain ⟨hselection, hcandidates⟩ := addOffer_frame b tables u call relay relayCustom
    rw [hselection, hcandidates]
    rcases hstart with rfl | ⟨sel, hsel, hpick⟩
    · exact hcurrent
    · exact hmade hsel hpick
  case removes =>
    have hcandidates : (s.server.removeOffer tables.toCharTables offerId clock).2.candidateRelays
        tables.toCharTables = s.server.candidateRelays tables.toCharTables := by
      unfold RelayServer.removeOffer RelayServer.restartIf
      dsimp only
      split <;> rfl
    rw [hcandidates, RelayServer.removeOffer, RelayServer.restartIf_relaySelection]
    exact hcurrent
  case stays => exact hcurrent
  case updates => exact hkept _ rfl rfl rfl
  case pins => exact hkept _ rfl rfl rfl
  case setsRelay => exact hdropped _ rfl
  case setsNostrRelays => exact absurd haction (hconfig relays)
  -- a restarted server has nothing in its cache
  case restarts => exact hdropped _ (RelayServer.init_eq_ok hrestart).1

/-- The pick that a step returns was made from the candidates in force, unless it comes too late. -/
theorem current_of_returns (hcurrent : s.SelectionCurrent tables.toCharTables)
    (htime : ReturnsInTime tables.toCharTables s a) {r : PickReturn}
    (hr : Returns tables.toCharTables s a r) : r.Current tables.toCharTables := by
  rcases hr with ⟨sel, t, clock, -, hfresh, hpicked, rfl⟩ |
    ⟨pick, probes, sel, t, haction, hpick, hselect, hpicked, rfl⟩
  · have hcached := RelayServer.relaySelection_of_freshSelection hfresh
    rw [current_pickReturn, candidateRelays_of_picked hpicked]
    exact hcurrent sel hcached
  · rw [current_pickReturn, candidateRelays_of_picked hpicked]
    exact RelaySelection.MadeFrom.congr ⟨probes, hselect⟩
      (htime probes pick sel haction hpick hselect)

/-- A pick whose candidates changed while it awaited its probes leaves a selection of the old
ones. -/
theorem not_current_of_overtaken (htime : ¬ ReturnsInTime tables.toCharTables s a)
    (h : step b tables normalizeUrl s a = some s') :
    ¬ s'.SelectionCurrent tables.toCharTables := by
  unfold ReturnsInTime at htime
  push Not at htime
  obtain ⟨probes, pick, sel, rfl, hpick, hselect, hother⟩ := htime
  have hstep : step b tables normalizeUrl s (.probed probes) =
      some (s.endPick b tables normalizeUrl pick probes) := by
    rw [step, hpick]
    rfl
  obtain rfl := Option.some.inj (hstep.symm.trans h)
  intro hcurrent
  have hpicked : RelayServer.Picked tables.toCharTables s.server
      (s.server.pickFinish tables.toCharTables pick.pending sel) sel :=
    RelayServer.picked_pickFinish pick.pending sel
  -- the caller goes on with the selection that was cached
  have hleft : (s.endPick b tables normalizeUrl pick probes).server.relaySelection = some sel ∧
      (s.endPick b tables normalizeUrl pick probes).server.candidateRelays tables.toCharTables =
        s.server.candidateRelays tables.toCharTables := by
    unfold endPick
    rw [hselect]
    dsimp only
    obtain ⟨hselection, hcandidates, -⟩ := resume_frame b tables normalizeUrl
      (recordPick tables.toCharTables
        { s with server := s.server.pickFinish tables.toCharTables pick.pending sel, pick := none }
        sel pick.pending.candidates sel.results) pick.caller pick.restarts sel
    exact ⟨hselection.trans hpicked.selection,
      hcandidates.trans (candidateRelays_of_picked hpicked)⟩
  have hmade := hcurrent sel hleft.1
  rw [hleft.2] at hmade
  exact hother (RelaySelection.MadeFrom.probedCandidates_eq ⟨probes, hselect⟩ hmade)

/-- While the global configuration stays as it is, the cached selection and every pick that returns
were made from the candidates in force, as long as no pick returns after its candidates changed; and
where one does, its selection stays in the cache. -/
theorem cached_selection_is_current {identity : PublicKey} {relaySetting : String}
    {nostrRelays : List String} {storage : List StoredOffer} {server : RelayServer}
    (hinit : RelayServer.init identity relaySetting nostrRelays storage = .ok server) :
    (∀ s, Reachable b tables normalizeUrl
        (fun s a => ConfigConstant s a ∧ ReturnsInTime tables.toCharTables s a) (start server) s →
      s.SelectionCurrent tables.toCharTables ∧
        ∀ r ∈ s.returns, r.Current tables.toCharTables) ∧
    ∀ s a s', Reachable b tables normalizeUrl ConfigConstant (start server) s →
      step b tables normalizeUrl s a = some s' → ¬ ReturnsInTime tables.toCharTables s a →
        ¬ s'.SelectionCurrent tables.toCharTables := by
  refine ⟨fun s hs => ?_, fun s a s' _ hstep htime => not_current_of_overtaken htime hstep⟩
  refine hs.invariant (I := fun s => s.SelectionCurrent tables.toCharTables ∧
    ∀ r ∈ s.returns, r.Current tables.toCharTables) ⟨?_, ?_⟩ ?_
  · intro sel hsel
    rw [start, (RelayServer.init_eq_ok hinit).1] at hsel
    cases hsel
  · intro r hr
    cases hr
  · rintro s a s' ⟨hcurrent, hreturns⟩ ⟨hconfig, htime⟩ hstep
    refine ⟨current_step hcurrent hconfig htime hstep, fun r hr => ?_⟩
    rcases returns_step hstep hr with hr | hr
    · exact hreturns r hr
    · exact current_of_returns hcurrent htime hr

/-- Probes that all return the same status. -/
def sampleProbes (status : ProbeStatus) : Probes := fun _ _ => some ⟨status, none, ""⟩

/-- What a pick of the sample server awaits. -/
def samplePick : OpenPick :=
  ⟨⟨0, "wss://first.example", ["wss://first.example"]⟩, .other, 0⟩

/-- The sample server while a pick awaits its probes. -/
def samplePicking : RelaySession := { start RelayServer.sample with pick := some samplePick }

/-- After an undisturbed pick, the cached selection is current. -/
theorem cached_selection_is_current_undisturbed :
    ∃ (s : RelaySession) (sel : RelaySelection), s.server.relaySelection = some sel ∧
      s.SelectionCurrent RelayServer.asciiTables.toCharTables := by
  have hinit : RelayServer.init RelayServer.sample.identity "" ["wss://first.example"] [] =
      .ok RelayServer.sample := rfl
  have hbegin : step .reference RelayServer.asciiTables id (start RelayServer.sample)
      (.pick false fun _ => 0) = some samplePicking := rfl
  have hend : step .reference RelayServer.asciiTables id samplePicking
      (.probed (sampleProbes .ok)) = some (samplePicking.endPick .reference RelayServer.asciiTables
        id samplePick (sampleProbes .ok)) := rfl
  refine ⟨_, ⟨"wss://first.example", true, [⟨"wss://first.example", .ok, none, ""⟩]⟩, ?_,
    ((cached_selection_is_current hinit).1 _
      (.next (.next .init ⟨?_, ?_⟩ hbegin) ⟨?_, ?_⟩ hend)).1⟩
  · decide +kernel
  · rintro relays ⟨⟩
  · rintro probes pick sel ⟨⟩
  · rintro relays ⟨⟩
  · rintro probes pick sel - hpick -
    obtain rfl := Option.some.inj hpick
    rfl

/-- The relay setting changes while a pick awaits its probes: the pick caches its selection of the
old candidates, and the next offer is pinned on the old relay. -/
theorem overtaken_pick_is_cached :
    ∃ s, Reachable .reference RelayServer.asciiTables id ConfigConstant (start RelayServer.sample)
        s ∧
      s.server.relaySetting = "wss://new.example" ∧
      ¬ s.SelectionCurrent RelayServer.asciiTables.toCharTables ∧
      ∃ c ∈ s.creations, c.relay = "wss://first.example" := by
  have hexec : (Transition.exec (step .reference RelayServer.asciiTables id)
      (start RelayServer.sample)
      [.pick false fun _ => 0, .setRelay "wss://new.example", .probed (sampleProbes .ok),
        .create (RelayServer.sampleCall "")]).any (fun s =>
          s.server.relaySetting == "wss://new.example" &&
          (s.server.relaySelection.any fun sel =>
            sel.results.map ProbeResult.relay == ["wss://first.example"]) &&
          probedCandidates RelayServer.asciiTables.toCharTables
            (s.server.candidateRelays RelayServer.asciiTables.toCharTables) ==
              ["wss://new.example"] &&
          s.creations.any fun c => c.relay == "wss://first.example") = true := by
    decide +kernel
  obtain ⟨s, hrun, hs⟩ := (Option.any_eq_true _ _).1 hexec
  simp only [Bool.and_eq_true, beq_iff_eq, List.any_eq_true, Option.any_eq_true] at hs
  obtain ⟨⟨⟨hsetting, sel, hsel, hresults⟩, hcands⟩, c, hc, hrelay⟩ := hs
  refine ⟨s, Transition.Reachable.init.exec ?_ hrun, hsetting, fun hcurrent => ?_, c, hc, hrelay⟩
  · intro a ha _ relays
    simp only [List.mem_cons, List.not_mem_nil, or_false] at ha
    rcases ha with rfl | rfl | rfl | rfl <;> rintro ⟨⟩
  -- a selection of the new candidates would hold their results
  · obtain ⟨probes, hselect⟩ := hcurrent sel hsel
    have hrelays := (selectPayableRelay_spec hselect).1
    rw [hresults, hcands] at hrelays
    revert hrelays
    decide

/-! ## A failure in the cache -/

/-- The step serves a failure from the cache, although there are candidates to probe. -/
def ServesFailure (tables : CharTables) (s : RelaySession) (a : SessionAction) : Prop :=
  ∃ clock sel,
    (a = .pick false clock ∨ ∃ call : CreateCall, a = .create call ∧ clock = call.clock) ∧
    s.server.freshSelection (clock 0) = some sel ∧ sel.ok = false ∧
    probedCandidates tables (s.server.candidateRelays tables) ≠ []

/-- The pick that a step returns has probed the candidates, unless it serves a failure. -/
theorem probed_of_returns (hserves : ¬ ServesFailure tables.toCharTables s a) {r : PickReturn}
    (hr : Returns tables.toCharTables s a r) : r.Probed tables.toCharTables := by
  rcases hr with ⟨sel, t, clock, haction, hfresh, hpicked, rfl⟩ |
    ⟨pick, probes, sel, t, haction, hpick, hselect, hpicked, rfl⟩
  · refine ⟨fun hfailed => ?_, fun _ res hres => ?_⟩
    · rw [pickReturn_selection] at hfailed
      rw [pickReturn_probed, pickReturn_candidates]
      refine ⟨?_, fun res hres => by cases hres⟩
      -- a failure is served only where there is nothing to probe
      by_contra hne
      exact hserves ⟨clock, sel, haction, hfresh, hfailed, fun hnil => hne hnil.symm⟩
    · rw [pickReturn_probed] at hres
      cases hres
  · obtain ⟨hresults, hnone⟩ := selectPayableRelay_spec hselect
    refine ⟨fun hfailed => ?_, fun hunpinned => ?_⟩
    · rw [pickReturn_selection] at hfailed
      rw [pickReturn_probed, pickReturn_candidates]
      exact ⟨hresults, hnone hfailed⟩
    rw [pickReturn_probed]
    rcases hok : sel.ok with _ | _
    · exact hnone hok
    · -- a pick that found a relay pinned it on every offer
      exfalso
      obtain ⟨hne, hstrip⟩ := pinnable_of_selectPayableRelay hselect hok
      rw [pickReturn_unpinned, hpicked.offers, if_pos hok,
        SavedOffers.lacksRelay_pinMissingRelays _ (hstrip.symm ▸ hne)] at hunpinned
      cases hunpinned

/-- Serving a failure from the cache is not probing. -/
theorem exists_not_probed_of_servesFailure (hserves : ServesFailure tables.toCharTables s a)
    (h : step b tables normalizeUrl s a = some s') :
    ∃ r ∈ s'.returns, ¬ r.Probed tables.toCharTables := by
  obtain ⟨clock, sel, haction, hfresh, hfailed, hcands⟩ := hserves
  have hserved : ∀ caller, ∃ r ∈ (s.beginPick b tables normalizeUrl caller false clock).returns,
      ¬ r.Probed tables.toCharTables := by
    intro caller
    rcases RelayServer.pickBegin_cases tables.toCharTables s.server false clock with
      ⟨sel', t, -, hfresh', hbegin, hpicked⟩ | ⟨hstale, -⟩
    -- whoever asks gets the failure, and its call probes nothing
    · obtain rfl := Option.some.inj (hfresh'.symm.trans hfresh)
      refine ⟨pickReturn tables.toCharTables t sel'
        (s.server.candidateRelays tables.toCharTables) [], ?_, fun hprobed => ?_⟩
      · unfold beginPick
        rw [hbegin]
        dsimp only
        rw [(resume_frame b tables normalizeUrl _ caller _ sel').2.2]
        exact List.mem_append_right _ (List.mem_singleton.2 rfl)
      · have hall := (hprobed.failed (by rw [pickReturn_selection, hfailed])).1
        rw [pickReturn_probed, pickReturn_candidates] at hall
        exact hcands hall.symm
    · rw [hfresh] at hstale
      rcases hstale with hforce | hnone
      · cases hforce
      · cases hnone
  rcases haction with rfl | ⟨call, rfl, rfl⟩
  · obtain ⟨-, hstep⟩ := Option.ite_none_right_eq_some.1 h
    obtain rfl := Option.some.inj hstep
    exact hserved .other
  · obtain ⟨-, hstep⟩ := Option.ite_none_right_eq_some.1 h
    obtain rfl := Option.some.inj hstep
    exact hserved (.createOffer call)

/-- In a run whose steps serve no failure from the cache, every pick that found no payable relay has
probed all candidates, and every pick that left an offer without a relay saw no candidate pass; a
step that serves a failure returns a pick that has not. -/
theorem failed_pick_probed_candidates (b : Bech32) (tables : UrlTables)
    (normalizeUrl : String → String) (server : RelayServer) :
    (∀ s, Reachable b tables normalizeUrl
        (fun s a => ¬ ServesFailure tables.toCharTables s a) (start server) s →
      ∀ r ∈ s.returns, r.Probed tables.toCharTables) ∧
    ∀ s a s', Reachable b tables normalizeUrl (fun _ _ => True) (start server) s →
      step b tables normalizeUrl s a = some s' → ServesFailure tables.toCharTables s a →
        ∃ r ∈ s'.returns, ¬ r.Probed tables.toCharTables := by
  refine ⟨fun s hs => ?_, fun s a s' _ hstep hserves =>
    exists_not_probed_of_servesFailure hserves hstep⟩
  refine hs.invariant (I := fun s => ∀ r ∈ s.returns, r.Probed tables.toCharTables) ?_ ?_
  · intro r hr
    cases hr
  · intro s a s' hreturns hserves hstep r hr
    rcases returns_step hstep hr with hr | hr
    · exact hreturns r hr
    · exact probed_of_returns hserves hr

/-- A pick whose probe fails is followed, an hour later, by a call that is served the failure
without a probe: no offer is created, although the relay is up again. -/
theorem cached_failure_blocks_offers :
    ∃ s, Reachable .reference RelayServer.asciiTables id (fun _ _ => True)
        (start RelayServer.sample) s ∧
      s.creations.length = 0 ∧ s.pick.isNone = true ∧
      ∃ r ∈ s.returns, ¬ r.Probed RelayServer.asciiTables.toCharTables := by
  have hexec : (Transition.exec (step .reference RelayServer.asciiTables id)
      (start RelayServer.sample)
      [.pick false fun _ => 0, .probed (sampleProbes .unreachable),
        .create { RelayServer.sampleCall "" with clock := fun _ => 3600 }]).any (fun s =>
          s.creations.length == 0 && s.pick.isNone &&
          s.returns.any fun r => !r.selection.ok && r.probed.length == 0 &&
            probedCandidates RelayServer.asciiTables.toCharTables r.candidates ==
              ["wss://first.example"]) = true := by
    decide +kernel
  obtain ⟨s, hs, hat⟩ := Transition.exists_reachable_of_exec hexec
  simp only [Bool.and_eq_true, beq_iff_eq, List.any_eq_true, Bool.not_eq_true'] at hat
  obtain ⟨⟨hcreations, hpick⟩, r, hr, ⟨hfailed, hprobed⟩, hcands⟩ := hat
  refine ⟨s, hs, hcreations, hpick, r, hr, fun h => ?_⟩
  have hrelays := (h.failed hfailed).1
  rw [List.length_eq_zero_iff.1 hprobed, hcands] at hrelays
  cases hrelays

end RelaySession

end ElectrumClink
