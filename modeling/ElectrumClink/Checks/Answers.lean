import ElectrumClink.Checks.Steps

/-!
# The answers of the checks

No offer of a run in flight is probed a second time. But a call that joins a run gets the results of
what the run was asked for (`joined_check_misses_its_offer`); `checks_answered_iff` says when these
answer it.
-/

namespace ElectrumClink

open GrowingList

namespace OfferChecks

variable {offers : SavedOffers} {s t : OfferChecks} {a : CheckAction}

/-! ## What was asked for -/

/-- What the calls asked for, and the runs that they were given. -/
def asked (s : OfferChecks) : List (Option (List String) × ℕ) :=
  s.calls.map fun call => (call.offerIds, call.run)

/-- What the runs were asked for. -/
def covering (s : OfferChecks) : List (Option (List String)) := s.runs.map CheckRun.offerIds

/-- What the run in flight is asked for, if there is one, includes the existing offers of a call. -/
def Covered (offers : SavedOffers) (s : OfferChecks) (offerIds : Option (List String)) : Prop :=
  ∀ r run, s.inFlight = some r → s.runs[r]? = some run →
    ∀ offer ∈ offers.list, Requested offerIds offer → Requested run.offerIds offer

theorem covering_setRun {r : ℕ} {run run' : CheckRun} (hrun : s.runs[r]? = some run)
    (hsame : run'.offerIds = run.offerIds) : (s.setRun r run').covering = s.covering :=
  map_set_of_eq hrun hsame

/-- Only calls ask for offers. -/
theorem asked_of_step (hstep : step offers s a = some t) (hother : ∀ offerIds, a ≠ .call offerIds) :
    t.asked = s.asked ∧ t.covering = s.covering := by
  cases steps_of_step hstep with
  | call offerIds => exact absurd rfl (hother offerIds)
  | startRun hrun => exact ⟨rfl, covering_setRun hrun rfl⟩
  | startCheck hrun => exact ⟨rfl, covering_setRun hrun rfl⟩
  | endCheck now result hrun =>
    rcases result with _ | result <;> exact ⟨rfl, covering_setRun hrun rfl⟩
  | endRun hrun => exact ⟨rfl, covering_setRun hrun rfl⟩
  | wake hcall => exact ⟨map_set_of_eq hcall rfl, rfl⟩

/-- A call is given the run in flight, or a run of its own. -/
theorem asked_checkOffers (offers : SavedOffers) (s : OfferChecks)
    (offerIds : Option (List String)) :
    ∃ r ids, (s.checkOffers offerIds).asked = s.asked ++ [(offerIds, r)] ∧
      s.covering <+: (s.checkOffers offerIds).covering ∧
      (s.checkOffers offerIds).covering[r]? = some ids ∧
      (s.Covered offers offerIds ↔
        ∀ offer ∈ offers.list, Requested offerIds offer → Requested ids offer) := by
  unfold OfferChecks.checkOffers
  split
  next r hr =>
    obtain ⟨-, run, hrun, -⟩ := inFlight_eq_some.1 hr
    refine ⟨r, run.offerIds, by simp [asked], List.prefix_rfl, by simp [covering, hrun], ?_⟩
    constructor
    · exact fun hcovered => hcovered r run hr hrun
    · intro hall r' run' hr' hrun'
      obtain rfl := Option.some.inj (hr.symm.trans hr')
      obtain rfl := Option.some.inj (hrun.symm.trans hrun')
      exact hall
  next hidle =>
    refine ⟨s.runs.length, offerIds, by simp [asked], ?_, ?_, ?_⟩
    · simp [covering]
    · simp [covering, CheckRun.create]
    · constructor
      · exact fun _ _ _ hrequested => hrequested
      · intro _ r run hr
        rw [hidle] at hr
        cases hr

/-- What was asked for stays, over a whole run. -/
theorem asked_of_reachable {P : OfferChecks → CheckAction → Prop} (ht : Reachable offers P s t) :
    s.asked <+: t.asked ∧ s.covering <+: t.covering := by
  refine ht.invariant (I := fun t => s.asked <+: t.asked ∧ s.covering <+: t.covering)
    ⟨List.prefix_rfl, List.prefix_rfl⟩ ?_
  rintro u a v ⟨hasked, hcovering⟩ - hstep
  by_cases hcall : ∃ offerIds, a = .call offerIds
  · obtain ⟨offerIds, rfl⟩ := hcall
    obtain rfl := Option.some.inj hstep
    obtain ⟨r, ids, hadded, hkept, -, -⟩ := asked_checkOffers offers u offerIds
    rw [hadded]
    exact ⟨hasked.trans (List.prefix_append _ _), hcovering.trans hkept⟩
  · obtain ⟨hsame, hkept⟩ := asked_of_step hstep fun offerIds h => hcall ⟨offerIds, h⟩
    rw [hsame, hkept]
    exact ⟨hasked, hcovering⟩

/-- Every call was given a run that is asked for its existing offers. -/
def AllCovered (offers : SavedOffers) (s : OfferChecks) : Prop :=
  ∀ p ∈ s.asked, ∃ ids, s.covering[p.2]? = some ids ∧
    ∀ offer ∈ offers.list, Requested p.1 offer → Requested ids offer

/-- A condition on the calls of a run: each is covered when it is made. -/
def CallsCovered (offers : SavedOffers) (s : OfferChecks) (a : CheckAction) : Prop :=
  ∀ offerIds, a = .call offerIds → s.Covered offers offerIds

theorem AllCovered.step (h : AllCovered offers s) (ha : CallsCovered offers s a)
    (hstep : step offers s a = some t) : AllCovered offers t := by
  by_cases hcall : ∃ offerIds, a = .call offerIds
  · obtain ⟨offerIds, rfl⟩ := hcall
    obtain rfl := Option.some.inj hstep
    obtain ⟨r, ids, hadded, hkept, hids, hcovered⟩ := asked_checkOffers offers s offerIds
    intro p hp
    rw [hadded] at hp
    rcases List.mem_append.1 hp with hp | hp
    · obtain ⟨ids', hids', hall⟩ := h p hp
      exact ⟨ids', getElem?_of_isPrefix hkept hids', hall⟩
    · obtain rfl := List.mem_singleton.1 hp
      exact ⟨ids, hids, hcovered.1 (ha offerIds rfl)⟩
  · obtain ⟨hsame, hkept⟩ := asked_of_step hstep fun offerIds h => hcall ⟨offerIds, h⟩
    unfold AllCovered
    rw [hsame, hkept]
    exact h

/-! ## The answers -/

/-- The offers of a call have entries in the results that it has returned. -/
def Answered (offers : SavedOffers) (call : CheckCall) : Prop :=
  ∀ results, call.outcome = some (.ok results) →
    ∀ offer ∈ offers.list, Requested call.offerIds offer → offer.offerId ∈ results

/-- No offer of the run in flight was probed a second time since the run was created. -/
def ProbedOnce (offers : SavedOffers) (s : OfferChecks) : Prop :=
  ∀ r run, s.inFlight = some r → s.runs[r]? = some run →
    ∀ offer ∈ offers.list, Requested run.offerIds offer →
      ((s.probes.drop run.since).map Prod.snd).count offer.offerId ≤ 1

theorem ChecksInv.probedOnce (h : ChecksInv offers s) : ProbedOnce offers s := by
  intro r run hr hrun offer _ _
  obtain ⟨-, run', hrun', hover⟩ := inFlight_eq_some.1 hr
  obtain rfl := Option.some.inj (hrun.symm.trans hrun')
  -- since then only the run in flight probed, and no run probes an offer twice
  have hown := h.since r run hrun hover
  have hnodup : (s.probes.drop run.since).Nodup := h.nodup.sublist (List.drop_sublist _ _)
  refine List.nodup_iff_count_le_one.1 (hnodup.map_on ?_) offer.offerId
  intro p hp q hq hsame
  exact Prod.ext ((hown p hp).trans (hown q hq).symm) hsame

/-- A call that returned is answered if and only if its run was asked for its offers. -/
theorem ChecksInv.answered_iff (h : ChecksInv offers s) {call : CheckCall}
    {results : Dict String CheckResult} {ids : Option (List String)} (hcall : call ∈ s.calls)
    (houtcome : call.outcome = some (.ok results)) (hids : s.covering[call.run]? = some ids) :
    Answered offers call ↔
      ∀ offer ∈ offers.list, Requested call.offerIds offer → Requested ids offer := by
  obtain ⟨run, hrun, hreturned⟩ := h.returned call hcall results houtcome
  obtain rfl : run.offerIds = ids := by simpa [covering, hrun] using hids
  have hsound := h.sound _ run hrun
  constructor
  · intro hanswered offer hoffer hrequested
    have hentry := hanswered results houtcome offer hoffer hrequested
    exact (hsound.mem_results hreturned hoffer).1 hentry
  · intro hall results' houtcome' offer hoffer hrequested
    obtain rfl := Except.ok.inj (Option.some.inj (houtcome.symm.trans houtcome'))
    exact (hsound.mem_results hreturned hoffer).2 (hall offer hoffer hrequested)

/-- Where every call was given a run that is asked for its offers, every call is answered. -/
theorem ChecksInv.answered_of_allCovered (h : ChecksInv offers s) (hall : AllCovered offers s)
    {call : CheckCall} (hcall : call ∈ s.calls) : Answered offers call := by
  intro results houtcome
  obtain ⟨ids, hids, hcovered⟩ := hall _ (List.mem_map_of_mem hcall)
  exact (h.answered_iff hcall houtcome hids).2 hcovered results houtcome

/-- The check of a call that is made in any state of any run, and returns, has the entries that it
was asked for if and only if the run in flight when it is made, if there is one, was asked for all
of these offers; so it has in runs in which this holds of every call. And no offer of a run in
flight is probed a second time, whatever is called. -/
theorem checks_answered_iff (hkeyed : SavedOffers.Keyed offers.offers) :
    (∀ t, Reachable offers (CallsCovered offers) init t →
      (∀ call ∈ t.calls, Answered offers call) ∧ ProbedOnce offers t) ∧
    ∀ s, Reachable offers (fun _ _ => True) init s → ProbedOnce offers s ∧
      ∀ offerIds t, Reachable offers (fun _ _ => True) (s.checkOffers offerIds) t →
        ∀ call results, t.calls[s.calls.length]? = some call →
          call.outcome = some (.ok results) →
            (Answered offers call ↔ Covered offers s offerIds) := by
  constructor
  · intro t ht
    have hinv := checksInv_init.reachable hkeyed ht
    have hall : AllCovered offers t :=
      ht.invariant (fun p hp => by cases hp) fun _ _ _ h ha hstep => h.step ha hstep
    exact ⟨fun call hcall => hinv.answered_of_allCovered hall hcall, hinv.probedOnce⟩
  · intro s hs
    have hinv := checksInv_init.reachable hkeyed hs
    refine ⟨hinv.probedOnce, ?_⟩
    intro offerIds t ht call results hcall houtcome
    obtain ⟨r, ids, hadded, -, hids, hcovered⟩ := asked_checkOffers offers s offerIds
    obtain ⟨hasked, hcovering⟩ := asked_of_reachable ht
    -- the call and its run are still there, with what they were asked for
    have hthis : (offerIds, r) = (call.offerIds, call.run) := by
      have hget : t.asked[s.calls.length]? = some (offerIds, r) :=
        getElem?_of_isPrefix (hadded ▸ hasked) (getElem?_concat_iff.2 (.inr (by simp [asked])))
      have hown : t.asked[s.calls.length]? = some (call.offerIds, call.run) := by
        simp [asked, hcall]
      exact Option.some.inj (hget.symm.trans hown)
    have hgiven : t.covering[r]? = some ids := getElem?_of_isPrefix hcovering hids
    obtain ⟨rfl, rfl⟩ := Prod.mk.inj hthis
    exact (((hinv.checkOffers _).reachable hkeyed ht).answered_iff (List.mem_of_getElem? hcall)
      houtcome hgiven).trans hcovered.symm

/-- Two offers. -/
def twoOffers : SavedOffers :=
  SavedOffers.write ⟨.empty, []⟩
    (((∅ : Dict String Offer).set "a" { offerId := "a" }).set "b" { offerId := "b" })

/-- The result of a self-test that succeeded. -/
def succeeded (offerId : String) : CheckResult :=
  { noffer := offerId, status := .ok, rttMs := some 5 }

/-- Whether a call returned results in which an offer has an entry, or not. -/
def returnedWith (call : CheckCall) (offerId : String) (entry : Bool) : Bool :=
  match call.outcome with
  | some (.ok results) => decide (offerId ∈ results) == entry
  | _ => false

/-- A check of the first of two offers joins a run that checks both, and is answered. -/
theorem checks_answered_iff_joined :
    ∃ s t call, Reachable twoOffers (fun _ _ => True) init s ∧ s.inFlight = some 0 ∧
      Reachable twoOffers (fun _ _ => True) (s.checkOffers (some ["a"])) t ∧
      t.calls[s.calls.length]? = some call ∧ returnedWith call "a" true = true ∧
      (Answered twoOffers call ↔ Covered twoOffers s (some ["a"])) := by
  have hkeyed : SavedOffers.Keyed twoOffers.offers :=
    (SavedOffers.keyed_empty.set (by rfl)).set (by rfl)
  have hjoin : (Transition.exec (step twoOffers) init
      [.call none, .startRun 0, .startCheck 0 0]).any (fun s =>
        decide (s.inFlight = some 0) &&
          (Transition.exec (step twoOffers) (s.checkOffers (some ["a"]))
            [.startCheck 0 1, .endCheck 0 1 7 (some (succeeded "b")),
              .endCheck 0 0 8 (some (succeeded "a")), .endRun 0, .wake 1]).any (fun t =>
            (t.calls[s.calls.length]?).any fun call => returnedWith call "a" true)) = true := by
    decide +kernel
  obtain ⟨s, hs, hjoined⟩ := Transition.exists_reachable_of_exec hjoin
  obtain ⟨hflight, hrun⟩ := Bool.and_eq_true_iff.1 hjoined
  obtain ⟨t, ht, hreturned⟩ := Transition.exists_reachable_of_exec hrun
  obtain ⟨call, hcall, hreturned⟩ := (Option.any_eq_true _ _).1 hreturned
  obtain ⟨results, houtcome⟩ : ∃ results, call.outcome = some (.ok results) := by
    unfold returnedWith at hreturned
    split at hreturned
    next results houtcome => exact ⟨results, houtcome⟩
    next => cases hreturned
  exact ⟨s, t, call, hs, of_decide_eq_true hflight, ht, hcall, hreturned,
    ((checks_answered_iff hkeyed).2 s hs).2 (some ["a"]) t ht call results hcall houtcome⟩

/-- While the first of two offers is checked, a check of the second returns the result of the first
and none of its own. -/
theorem joined_check_misses_its_offer :
    ∃ t call, Reachable twoOffers (fun _ _ => True) init t ∧ t.calls[1]? = some call ∧
      call.offerIds = checkNoffersIds (some "b") ∧ returnedWith call "a" true = true ∧
        ¬ Answered twoOffers call := by
  have hrun : (Transition.exec (step twoOffers) init
      [.call (checkNoffersIds (some "a")), .startRun 0, .startCheck 0 0,
        .call (checkNoffersIds (some "b")), .endCheck 0 0 7 (some (succeeded "a")), .endRun 0,
        .wake 0, .wake 1]).any (fun t => (t.calls[1]?).any fun call =>
          decide (call.offerIds = checkNoffersIds (some "b")) && returnedWith call "a" true &&
            returnedWith call "b" false) = true := by
    decide +kernel
  obtain ⟨t, ht, hp⟩ := Transition.exists_reachable_of_exec hrun
  obtain ⟨call, hcall, hp⟩ := (Option.any_eq_true _ _).1 hp
  simp only [Bool.and_eq_true, decide_eq_true_eq] at hp
  obtain ⟨⟨hids, hfirst⟩, hsecond⟩ := hp
  refine ⟨t, call, ht, hcall, hids, hfirst, ?_⟩
  intro hanswered
  unfold returnedWith at hsecond
  split at hsecond
  next results houtcome =>
    have hmem : "b" ∈ results := by
      refine hanswered results houtcome { offerId := "b" } (by decide +kernel) ?_
      rw [hids]
      decide
    rw [decide_eq_true hmem] at hsecond
    cases hsecond
  next => cases hsecond

end OfferChecks

end ElectrumClink
