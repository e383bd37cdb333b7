import ElectrumClink.Checks.Model
import ElectrumClink.Data.GrowingList

/-!
# Steps of the checks

What each action does to the checks of a server, and what holds of them in every state: a run that
is not over is the one in flight, its children are checks of different offers of those that it was
asked for, and each of them is started once.
-/

namespace ElectrumClink

open GrowingList

namespace OfferChecks

variable {offers : SavedOffers} {s t : OfferChecks} {a : CheckAction}

/-! ## What a step does -/

/-- What each action does, when it is performed. -/
inductive Steps (offers : SavedOffers) (s : OfferChecks) : CheckAction → OfferChecks → Prop
  | call (offerIds : Option (List String)) :
      Steps offers s (.call offerIds) (s.checkOffers offerIds)
  | startRun {r : ℕ} {run : CheckRun} (hrun : s.runs[r]? = some run)
      (hstage : run.stage = .scheduled) :
      Steps offers s (.startRun r) (s.setRun r (run.start offers))
  | startCheck {r i : ℕ} {run : CheckRun} {offer : Offer} (hrun : s.runs[r]? = some run)
      (hchild : run.checks[i]? = some (offer, .waiting)) :
      Steps offers s (.startCheck r i) (s.startCheck r i run offer)
  | endCheck {r i : ℕ} {run : CheckRun} {offer : Offer} (now : Time) (result : Option CheckResult)
      (hrun : s.runs[r]? = some run) (hchild : run.checks[i]? = some (offer, .probing)) :
      Steps offers s (.endCheck r i now result) (s.endCheck r i run offer now result)
  | endRun {r : ℕ} {run : CheckRun} {stage : RunStage} (hrun : s.runs[r]? = some run)
      (hstage : run.stage = .gathering) (hgathered : run.gathered = some stage) :
      Steps offers s (.endRun r) (s.endRun offers r run stage)
  | wake {c : ℕ} {call : CheckCall} {run : CheckRun}
      {outcome : Except Unit (Dict String CheckResult)} (hcall : s.calls[c]? = some call)
      (hrun : s.runs[call.run]? = some run) (houtcome : run.outcome = some outcome) :
      Steps offers s (.wake c) (s.endCall c call outcome)

/-- A child of a run that exists. -/
theorem child?_eq_some {r i : ℕ} {run : CheckRun} {offer : Offer} {check : CheckOne}
    (h : s.child? r i = some (run, offer, check)) :
    s.runs[r]? = some run ∧ run.checks[i]? = some (offer, check) := by
  obtain ⟨run', hrun, hmap⟩ := Option.bind_eq_some_iff.1 h
  obtain ⟨c, hc, heq⟩ := Option.map_eq_some_iff.1 hmap
  cases heq
  exact ⟨hrun, hc⟩

theorem steps_of_step (h : step offers s a = some t) : Steps offers s a t := by
  cases a with
  | call offerIds =>
    cases h
    exact .call offerIds
  | startRun r =>
    obtain ⟨run, hrun, h⟩ := Option.bind_eq_some_iff.1 h
    obtain ⟨hstage, h⟩ := Option.ite_none_right_eq_some.1 h
    cases h
    exact .startRun hrun hstage
  | startCheck r i =>
    obtain ⟨⟨run, offer, check⟩, hchild, h⟩ := Option.bind_eq_some_iff.1 h
    obtain ⟨rfl, h⟩ := Option.ite_none_right_eq_some.1 h
    cases h
    obtain ⟨hrun, hchild⟩ := child?_eq_some hchild
    exact .startCheck hrun hchild
  | endCheck r i now result =>
    obtain ⟨⟨run, offer, check⟩, hchild, h⟩ := Option.bind_eq_some_iff.1 h
    obtain ⟨rfl, h⟩ := Option.ite_none_right_eq_some.1 h
    cases h
    obtain ⟨hrun, hchild⟩ := child?_eq_some hchild
    exact .endCheck now result hrun hchild
  | endRun r =>
    obtain ⟨run, hrun, h⟩ := Option.bind_eq_some_iff.1 h
    obtain ⟨hstage, h⟩ := Option.ite_none_right_eq_some.1 h
    -- `gather` is over: every check has ended, or one has raised
    obtain ⟨stage, hgathered, rfl⟩ := Option.map_eq_some_iff.1 h
    exact .endRun hrun hstage hgathered
  | wake c =>
    obtain ⟨call, hcall, h⟩ := Option.bind_eq_some_iff.1 h
    obtain ⟨-, h⟩ := Option.ite_none_right_eq_some.1 h
    obtain ⟨outcome, houtcome, rfl⟩ := Option.map_eq_some_iff.1 h
    obtain ⟨run, hrun, houtcome⟩ := Option.bind_eq_some_iff.1 houtcome
    exact .wake hcall hrun houtcome

/-- A run is in flight when it is that of `_check_task` and not over. -/
theorem inFlight_eq_some {r : ℕ} :
    s.inFlight = some r ↔
      s.checkTask = some r ∧ ∃ run, s.runs[r]? = some run ∧ run.outcome = none := by
  simp [inFlight, Option.filter_eq_some_iff, Option.any_eq_true]

end OfferChecks

/-! ## What a run keeps -/

namespace CheckRun

variable {offers : SavedOffers} {run : CheckRun}

/-- What holds of a run at any time. -/
structure Sound (offers : SavedOffers) (run : CheckRun) : Prop where
  scheduled : run.stage = .scheduled → run.checks = [] ∧ run.results = ∅
  covers : run.stage ≠ .scheduled →
    run.checks.map Prod.fst = offers.list.filter fun o => Requested run.offerIds o
  started : run.stage = .returned ∨ run.stage = .raised → ∀ c ∈ run.checks, c.2 ≠ .waiting
  returned : run.stage = .returned → ∀ c ∈ run.checks, c.2 = .returned
  answered : ∀ c ∈ run.checks, c.2 = .returned → c.1.offerId ∈ run.results
  listed : ∀ id ∈ run.results, ∃ c ∈ run.checks, c.1.offerId = id

theorem sound_create (offerIds : Option (List String)) (since : ℕ) :
    Sound offers (create offerIds since) where
  scheduled _ := ⟨rfl, rfl⟩
  covers hstage := absurd rfl hstage
  started hover := by rcases hover with h | h <;> cases h
  returned hstage := by cases hstage
  answered c hc := by cases hc
  listed id hid := absurd hid (Dict.notMem_empty id)

theorem Sound.start (h : Sound offers run) (hstage : run.stage = .scheduled) :
    Sound offers (run.start offers) where
  scheduled hscheduled := by cases hscheduled
  covers _ := by
    simp only [CheckRun.start, List.map_map]
    exact List.map_id _
  started hover := by rcases hover with h | h <;> cases h
  returned hreturned := by cases hreturned
  answered c hc hreturned := by
    obtain ⟨o, -, rfl⟩ := List.mem_map.1 hc
    cases hreturned
  listed id hid := by
    have hempty : run.results = ∅ := (h.scheduled hstage).2
    change id ∈ run.results at hid
    rw [hempty] at hid
    exact absurd hid (Dict.notMem_empty id)

/-- A child that gets on is still the child of its offer. -/
theorem map_fst_setCheck {i : ℕ} {offer : Offer} {old : CheckOne}
    (hchild : run.checks[i]? = some (offer, old)) (check : CheckOne) :
    (run.setCheck i offer check).checks.map Prod.fst = run.checks.map Prod.fst :=
  map_set_of_eq hchild rfl

theorem Sound.setCheck (h : Sound offers run) {i : ℕ} {offer : Offer} {old check : CheckOne}
    (hchild : run.checks[i]? = some (offer, old)) (hold : old ≠ .returned)
    (hcheck : check ≠ .waiting) {results : Dict String CheckResult}
    (hkept : ∀ id ∈ run.results, id ∈ results)
    (hnew : ∀ id ∈ results, id ∈ run.results ∨ id = offer.offerId)
    (hanswered : check = .returned → offer.offerId ∈ results) :
    Sound offers { run.setCheck i offer check with results := results } where
  scheduled hstage := by
    have hnone : run.checks = [] := (h.scheduled hstage).1
    rw [hnone] at hchild
    cases hchild
  covers hstage := (map_fst_setCheck hchild check).trans (h.covers hstage)
  started hover c hc := by
    rcases List.mem_or_eq_of_mem_set hc with hc | rfl
    · exact h.started hover c hc
    · exact hcheck
  returned hstage := by
    -- all its children have returned, but this one has not
    exact absurd (h.returned hstage _ (List.mem_of_getElem? hchild)) hold
  answered c hc hreturned := by
    rcases List.mem_or_eq_of_mem_set hc with hc | rfl
    · exact hkept _ (h.answered c hc hreturned)
    · exact hanswered hreturned
  listed id hid := by
    have hoffers := map_fst_setCheck hchild check
    have hmem : ∀ o, o ∈ run.checks.map Prod.fst →
        ∃ c ∈ (run.setCheck i offer check).checks, c.1 = o := by
      intro o ho
      rw [← hoffers] at ho
      exact List.mem_map.1 ho
    rcases hnew id hid with hid | rfl
    · obtain ⟨c, hc, rfl⟩ := h.listed id hid
      obtain ⟨c', hc', hoffer⟩ := hmem c.1 (List.mem_map_of_mem hc)
      exact ⟨c', hc', by rw [hoffer]⟩
    · obtain ⟨c', hc', hoffer⟩ := hmem offer (List.mem_map_of_mem (List.mem_of_getElem? hchild))
      exact ⟨c', hc', by rw [hoffer]⟩

/-- How a `gather` is over. -/
theorem gathered_eq_some {stage : RunStage} (h : run.gathered = some stage) :
    (∀ c ∈ run.checks, c.2 ≠ .waiting) ∧
      (stage = .raised ∨ stage = .returned ∧ ∀ c ∈ run.checks, c.2 = .returned) := by
  unfold gathered at h
  split at h
  next => cases h
  next hwaiting =>
    have hstarted : ∀ c ∈ run.checks, c.2 ≠ .waiting := by
      intro c hc hw
      exact hwaiting (List.any_eq_true.2 ⟨c, hc, decide_eq_true hw⟩)
    split at h
    next =>
      cases h
      exact ⟨hstarted, .inl rfl⟩
    next =>
      split at h
      next hall =>
        cases h
        exact ⟨hstarted, .inr ⟨rfl, fun c hc => of_decide_eq_true (List.all_eq_true.1 hall c hc)⟩⟩
      next => cases h

theorem Sound.endRun (h : Sound offers run) (hstage : run.stage = .gathering) {stage : RunStage}
    (hgathered : run.gathered = some stage) : Sound offers { run with stage := stage } := by
  obtain ⟨hstarted, hover⟩ := gathered_eq_some hgathered
  have hcovers := h.covers (by rw [hstage]; decide)
  refine ⟨?_, fun _ => hcovers, fun _ => hstarted, ?_, h.answered, h.listed⟩
  · rintro rfl
    rcases hover with hraised | ⟨hreturned, -⟩
    · cases hraised
    · cases hreturned
  · rintro rfl
    rcases hover with hraised | ⟨-, hall⟩
    · cases hraised
    · exact hall

/-- The results that a run returns are those of the offers that it was asked for. -/
theorem Sound.mem_results (h : Sound offers run) {results : Dict String CheckResult}
    (houtcome : run.outcome = some (.ok results)) {offer : Offer} (hoffer : offer ∈ offers.list) :
    offer.offerId ∈ results ↔ Requested run.offerIds offer := by
  have hreturned : run.stage = .returned ∧ run.results = results := by
    rcases hstage : run.stage <;> simp [outcome, hstage] at houtcome
    exact ⟨rfl, houtcome⟩
  obtain ⟨hstage, rfl⟩ := hreturned
  have hcovers := h.covers (by rw [hstage]; decide)
  constructor
  · intro hid
    obtain ⟨c, hc, hsame⟩ := h.listed _ hid
    have hmem : c.1 ∈ offers.list.filter fun o => Requested run.offerIds o :=
      hcovers ▸ List.mem_map_of_mem hc
    have hrequested : Requested run.offerIds c.1 := of_decide_eq_true (List.mem_filter.1 hmem).2
    -- whether an offer is asked for depends on its id only
    rcases hids : run.offerIds with _ | ids
    · trivial
    · rw [hids] at hrequested
      change offer.offerId ∈ ids
      rw [← hsame]
      exact hrequested
  · intro hrequested
    have hmem : offer ∈ run.checks.map Prod.fst := by
      rw [hcovers]
      exact List.mem_filter.2 ⟨hoffer, decide_eq_true hrequested⟩
    obtain ⟨c, hc, rfl⟩ := List.mem_map.1 hmem
    exact h.answered c hc (h.returned hstage c hc)

/-- A run gets on, with the same offers; what it has returned stays. -/
structure Next (run run' : CheckRun) : Prop where
  offerIds : run'.offerIds = run.offerIds
  since : run'.since = run.since
  running : run'.outcome = none → run.outcome = none
  returned : ∀ results, run.outcome = some (.ok results) → run'.outcome = some (.ok results)
  begun : run.stage ≠ .scheduled → run'.stage ≠ .scheduled
  started : run.stage ≠ .scheduled → ∀ id,
    (∀ c ∈ run.checks, c.1.offerId = id → c.2 ≠ .waiting) →
      ∀ c ∈ run'.checks, c.1.offerId = id → c.2 ≠ .waiting

theorem outcome_eq_none : run.outcome = none ↔ run.stage = .scheduled ∨ run.stage = .gathering := by
  rcases hstage : run.stage <;> simp [outcome, hstage]

/-- A run that has a child to start or to end has not returned. -/
theorem Sound.stage_ne_returned (h : Sound offers run) {i : ℕ} {offer : Offer} {check : CheckOne}
    (hchild : run.checks[i]? = some (offer, check)) (hcheck : check ≠ .returned) :
    run.stage ≠ .returned := by
  intro hstage
  exact hcheck (h.returned hstage _ (List.mem_of_getElem? hchild))

/-- The task of a run that has a child to start is not over. -/
theorem Sound.stage_eq_gathering (h : Sound offers run) {i : ℕ} {offer : Offer}
    (hchild : run.checks[i]? = some (offer, .waiting)) : run.stage = .gathering := by
  have hmem := List.mem_of_getElem? hchild
  rcases hstage : run.stage
  · rw [(h.scheduled hstage).1] at hmem
    cases hmem
  · rfl
  · exact absurd rfl (h.started (.inl hstage) _ hmem)
  · exact absurd rfl (h.started (.inr hstage) _ hmem)

theorem next_start (hstage : run.stage = .scheduled) : Next run (run.start offers) where
  offerIds := rfl
  since := rfl
  running _ := outcome_eq_none.2 (.inl hstage)
  returned results houtcome := by simp [outcome, hstage] at houtcome
  begun hbegun := absurd hstage hbegun
  started hbegun := absurd hstage hbegun

theorem Sound.next_setCheck (h : Sound offers run) {i : ℕ} {offer : Offer} {old check : CheckOne}
    (hchild : run.checks[i]? = some (offer, old)) (hold : old ≠ .returned)
    (hcheck : check ≠ .waiting) (results : Dict String CheckResult) :
    Next run { run.setCheck i offer check with results := results } where
  offerIds := rfl
  since := rfl
  running hover := by
    have hstage := outcome_eq_none.1 hover
    exact outcome_eq_none.2 hstage
  returned results houtcome := by
    have hstage := h.stage_ne_returned hchild hold
    rcases hs : run.stage <;> simp_all [outcome]
  begun hbegun := hbegun
  started _ id hstarted c hc hid := by
    rcases List.mem_or_eq_of_mem_set hc with hc | rfl
    · exact hstarted c hc hid
    · exact hcheck

theorem next_endRun (hstage : run.stage = .gathering) {stage : RunStage}
    (hgathered : run.gathered = some stage) : Next run { run with stage := stage } where
  offerIds := rfl
  since := rfl
  running _ := outcome_eq_none.2 (.inr hstage)
  returned results houtcome := by simp [outcome, hstage] at houtcome
  begun _ := by
    rcases (gathered_eq_some hgathered).2 with rfl | ⟨rfl, -⟩ <;> exact nofun
  started _ id hstarted := hstarted

/-- The children of a run are checks of different offers. -/
theorem Sound.child_unique (h : Sound offers run) (hkeyed : SavedOffers.Keyed offers.offers)
    {i j : ℕ} {c d : Offer × CheckOne} (hc : run.checks[i]? = some c)
    (hd : run.checks[j]? = some d) (hsame : c.1.offerId = d.1.offerId) : i = j := by
  have hstage : run.stage ≠ .scheduled := by
    intro hstage
    rw [(h.scheduled hstage).1] at hc
    cases hc
  have hkeys : offers.list.map Offer.offerId = offers.offers.keys := by
    rw [SavedOffers.list, List.map_map]
    exact List.map_congr_left hkeyed
  have hnodup : ((run.checks.map Prod.fst).map Offer.offerId).Nodup := by
    rw [h.covers hstage]
    refine List.Nodup.sublist (List.filter_sublist.map Offer.offerId) ?_
    rw [hkeys]
    exact offers.offers.nodup_keys
  have hget : ∀ {k : ℕ} {e : Offer × CheckOne}, run.checks[k]? = some e →
      ((run.checks.map Prod.fst).map Offer.offerId)[k]? = some e.1.offerId := by
    intro k e he
    simp [he]
  obtain ⟨hi, hci⟩ := List.getElem?_eq_some_iff.1 (hget hc)
  obtain ⟨hj, hdj⟩ := List.getElem?_eq_some_iff.1 (hget hd)
  exact (hnodup.getElem_inj_iff).1 (hci.trans (hsame.trans hdj.symm))

end CheckRun

namespace OfferChecks

variable {offers : SavedOffers} {s t : OfferChecks} {a : CheckAction}

/-! ## What holds in every state -/

/-- What holds of the checks of a server in every state of a run. -/
structure ChecksInv (offers : SavedOffers) (s : OfferChecks) : Prop where
  /-- A run that is not over is the one in flight. -/
  current : ∀ r run, s.runs[r]? = some run → run.outcome = none → s.checkTask = some r
  sound : ∀ (r : ℕ) (run : CheckRun), s.runs[r]? = some run → run.Sound offers
  returned : ∀ call ∈ s.calls, ∀ results, call.outcome = some (.ok results) →
    ∃ run, s.runs[call.run]? = some run ∧ run.outcome = some (.ok results)
  nodup : s.probes.Nodup
  /-- An offer that a run probed does not wait to be probed by it. -/
  probed : ∀ p ∈ s.probes, ∃ run, s.runs[p.1]? = some run ∧ run.stage ≠ .scheduled ∧
    ∀ c ∈ run.checks, c.1.offerId = p.2 → c.2 ≠ .waiting
  /-- While a run is in flight no other run probes. -/
  since : ∀ r run, s.runs[r]? = some run → run.outcome = none →
    ∀ p ∈ s.probes.drop run.since, p.1 = r

theorem checksInv_init : ChecksInv offers init where
  current r run hrun := by cases hrun
  sound r run hrun := by cases hrun
  returned call hcall := by cases hcall
  nodup := List.nodup_nil
  probed p hp := by cases hp
  since r run hrun := by cases hrun

theorem ChecksInv.setRun (h : ChecksInv offers s) {r : ℕ} {run run' : CheckRun}
    (hrun : s.runs[r]? = some run) (hnext : run.Next run') (hsound : run'.Sound offers) :
    ChecksInv offers (s.setRun r run') where
  current j x hx hover := by
    rcases (getElem?_set_iff hrun).1 hx with ⟨rfl, rfl⟩ | ⟨-, hx⟩
    · exact h.current j run hrun (hnext.running hover)
    · exact h.current j x hx hover
  sound j x hx := by
    rcases (getElem?_set_iff hrun).1 hx with ⟨-, rfl⟩ | ⟨-, hx⟩
    · exact hsound
    · exact h.sound j x hx
  returned call hcall results houtcome := by
    obtain ⟨x, hx, hreturned⟩ := h.returned call hcall results houtcome
    by_cases hj : call.run = r
    · rw [hj, hrun] at hx
      cases hx
      exact ⟨run', (getElem?_set_iff hrun).2 (.inl ⟨hj, rfl⟩), hnext.returned results hreturned⟩
    · exact ⟨x, (getElem?_set_iff hrun).2 (.inr ⟨hj, hx⟩), hreturned⟩
  nodup := h.nodup
  probed p hp := by
    obtain ⟨x, hx, hbegun, hstarted⟩ := h.probed p hp
    by_cases hj : p.1 = r
    · rw [hj, hrun] at hx
      cases hx
      exact ⟨run', (getElem?_set_iff hrun).2 (.inl ⟨hj, rfl⟩), hnext.begun hbegun,
        hnext.started hbegun p.2 hstarted⟩
    · exact ⟨x, (getElem?_set_iff hrun).2 (.inr ⟨hj, hx⟩), hbegun, hstarted⟩
  since j x hx hover := by
    rcases (getElem?_set_iff hrun).1 hx with ⟨rfl, rfl⟩ | ⟨-, hx⟩
    · rw [hnext.since]
      exact h.since j run hrun (hnext.running hover)
    · exact h.since j x hx hover

theorem ChecksInv.checkResults (h : ChecksInv offers s) (results : Dict String CheckResult) :
    ChecksInv offers { s with checkResults := results } :=
  ⟨h.current, h.sound, h.returned, h.nodup, h.probed, h.since⟩

/-- The run in flight probes an offer that it has not probed. -/
theorem ChecksInv.probe (h : ChecksInv offers s) {r : ℕ} {run : CheckRun} {id : String}
    (hrun : s.runs[r]? = some run) (hstage : run.stage = .gathering) (hfresh : (r, id) ∉ s.probes)
    (hstarted : ∀ c ∈ run.checks, c.1.offerId = id → c.2 ≠ .waiting) :
    ChecksInv offers { s with probes := s.probes ++ [(r, id)] } where
  current := h.current
  sound := h.sound
  returned := h.returned
  nodup := h.nodup.append (List.nodup_singleton _) (by simpa using hfresh)
  probed p hp := by
    rcases List.mem_append.1 hp with hp | hp
    · exact h.probed p hp
    · obtain rfl := List.mem_singleton.1 hp
      exact ⟨run, hrun, by rw [hstage]; decide, hstarted⟩
  since j x hx hover p hp := by
    rw [List.drop_append] at hp
    rcases List.mem_append.1 hp with hp | hp
    · exact h.since j x hx hover p hp
    · -- both runs are the one in flight
      obtain rfl := List.mem_singleton.1 (List.mem_of_mem_drop hp)
      have hr := h.current r run hrun (CheckRun.outcome_eq_none.2 (.inr hstage))
      exact Option.some.inj (hr.symm.trans (h.current j x hx hover))

/-- A child of a run gets on, and the results with it. -/
theorem ChecksInv.setCheck (h : ChecksInv offers s) {r i : ℕ} {run : CheckRun} {offer : Offer}
    {old : CheckOne} (check : CheckOne) (results : Dict String CheckResult)
    (hrun : s.runs[r]? = some run) (hchild : run.checks[i]? = some (offer, old))
    (hold : old ≠ .returned) (hcheck : check ≠ .waiting) (hkept : ∀ id ∈ run.results, id ∈ results)
    (hnew : ∀ id ∈ results, id ∈ run.results ∨ id = offer.offerId)
    (hanswered : check = .returned → offer.offerId ∈ results) :
    ChecksInv offers (s.setRun r { run.setCheck i offer check with results := results }) :=
  h.setRun hrun ((h.sound r run hrun).next_setCheck hchild hold hcheck results)
    ((h.sound r run hrun).setCheck hchild hold hcheck hkept hnew hanswered)

theorem ChecksInv.startCheck (h : ChecksInv offers s) (hkeyed : SavedOffers.Keyed offers.offers)
    {r i : ℕ} {run : CheckRun} {offer : Offer} (hrun : s.runs[r]? = some run)
    (hchild : run.checks[i]? = some (offer, .waiting)) :
    ChecksInv offers (s.startCheck r i run offer) := by
  have hsound := h.sound r run hrun
  have hstage := hsound.stage_eq_gathering hchild
  have hset : ChecksInv offers (s.setRun r (run.setCheck i offer .probing)) :=
    h.setCheck .probing run.results hrun hchild nofun nofun (fun _ hid => hid)
      (fun _ hid => .inl hid) nofun
  refine hset.probe ((getElem?_set_iff hrun).2 (.inl ⟨rfl, rfl⟩)) hstage ?_ ?_
  · -- had the run probed the offer, its child would not be waiting
    intro hprobed
    obtain ⟨x, hx, -, hstarted⟩ := h.probed _ hprobed
    obtain rfl := Option.some.inj (hrun.symm.trans hx)
    exact hstarted _ (List.mem_of_getElem? hchild) rfl rfl
  · intro c hc hid
    obtain ⟨j, hj⟩ := List.mem_iff_getElem?.1 hc
    by_cases hij : i = j
    · subst hij
      obtain ⟨hi, -⟩ := List.getElem?_eq_some_iff.1 hchild
      rw [CheckRun.setCheck, List.getElem?_set_self hi] at hj
      obtain rfl := Option.some.inj hj
      exact nofun
    · -- no other child checks the same offer
      rw [CheckRun.setCheck, List.getElem?_set_ne hij] at hj
      exact absurd (hsound.child_unique hkeyed hchild hj hid.symm) hij

theorem ChecksInv.endCheck (h : ChecksInv offers s) {r i : ℕ} {run : CheckRun} {offer : Offer}
    (now : Time) (result : Option CheckResult) (hrun : s.runs[r]? = some run)
    (hchild : run.checks[i]? = some (offer, .probing)) :
    ChecksInv offers (s.endCheck r i run offer now result) := by
  rcases result with _ | result
  · exact h.setCheck .raised run.results hrun hchild nofun nofun (fun _ hid => hid)
      (fun _ hid => .inl hid) nofun
  · exact (h.setCheck .returned _ hrun hchild nofun nofun (fun id hid => Dict.mem_set.2 (.inr hid))
      (fun id hid => (Dict.mem_set.1 hid).symm) fun _ => Dict.mem_set.2 (.inl rfl)).checkResults _

/-- A call changes no run; if none is in flight, it adds one. -/
theorem ChecksInv.checkOffers (h : ChecksInv offers s) (offerIds : Option (List String)) :
    ChecksInv offers (s.checkOffers offerIds) := by
  unfold OfferChecks.checkOffers
  split
  next r hr =>
    refine ⟨h.current, h.sound, ?_, h.nodup, h.probed, h.since⟩
    intro call hcall results houtcome
    rcases List.mem_append.1 hcall with hcall | hcall
    · exact h.returned call hcall results houtcome
    · obtain rfl := List.mem_singleton.1 hcall
      cases houtcome
  next hidle =>
    -- every run is over: one that is not would be in flight
    have hover : ∀ (r : ℕ) (run : CheckRun), s.runs[r]? = some run → run.outcome ≠ none := by
      intro r run hrun hnone
      have hflight := inFlight_eq_some.2 ⟨h.current r run hrun hnone, run, hrun, hnone⟩
      rw [hidle] at hflight
      cases hflight
    refine ⟨?_, ?_, ?_, h.nodup, ?_, ?_⟩
    · intro r x hx hnone
      rcases getElem?_concat_iff.1 hx with hx | ⟨rfl, -⟩
      · exact absurd hnone (hover r x hx)
      · rfl
    · intro r x hx
      rcases getElem?_concat_iff.1 hx with hx | ⟨-, rfl⟩
      · exact h.sound r x hx
      · exact CheckRun.sound_create offerIds s.probes.length
    · intro call hcall results houtcome
      rcases List.mem_append.1 hcall with hcall | hcall
      · obtain ⟨x, hx, hreturned⟩ := h.returned call hcall results houtcome
        exact ⟨x, getElem?_concat_iff.2 (.inl hx), hreturned⟩
      · obtain rfl := List.mem_singleton.1 hcall
        cases houtcome
    · intro p hp
      obtain ⟨x, hx, hprobed⟩ := h.probed p hp
      exact ⟨x, getElem?_concat_iff.2 (.inl hx), hprobed⟩
    · intro r x hx hnone p hp
      rcases getElem?_concat_iff.1 hx with hx | ⟨-, rfl⟩
      · exact absurd hnone (hover r x hx)
      · -- nothing was probed since
        simp [CheckRun.create] at hp

theorem ChecksInv.endCall (h : ChecksInv offers s) {c : ℕ} {call : CheckCall} {run : CheckRun}
    {outcome : Except Unit (Dict String CheckResult)} (hrun : s.runs[call.run]? = some run)
    (houtcome : run.outcome = some outcome) : ChecksInv offers (s.endCall c call outcome) where
  current r x hx hnone := by
    have hcurrent := h.current r x hx hnone
    -- the run whose result the call takes is over, so the one in flight is another
    have hother : s.checkTask ≠ some call.run := by
      intro hsame
      obtain rfl := Option.some.inj (hcurrent.symm.trans hsame)
      obtain rfl := Option.some.inj (hrun.symm.trans hx)
      rw [houtcome] at hnone
      cases hnone
    show (if call.own ∧ s.checkTask = some call.run then none else s.checkTask) = some r
    rw [if_neg fun hown => hother hown.2]
    exact hcurrent
  sound := h.sound
  returned call' hcall' results hreturned := by
    rcases List.mem_or_eq_of_mem_set hcall' with hcall' | rfl
    · exact h.returned call' hcall' results hreturned
    · obtain rfl := Option.some.inj hreturned
      exact ⟨run, hrun, houtcome⟩
  nodup := h.nodup
  probed := h.probed
  since := h.since

/-- Every step keeps the invariant. -/
theorem ChecksInv.step (h : ChecksInv offers s) (hkeyed : SavedOffers.Keyed offers.offers)
    (hstep : step offers s a = some t) : ChecksInv offers t := by
  cases steps_of_step hstep with
  | call offerIds => exact h.checkOffers offerIds
  | startRun hrun hstage =>
    exact h.setRun hrun (CheckRun.next_start hstage) ((h.sound _ _ hrun).start hstage)
  | startCheck hrun hchild => exact h.startCheck hkeyed hrun hchild
  | endCheck now result hrun hchild => exact h.endCheck now result hrun hchild
  | endRun hrun hstage hgathered =>
    exact (h.setRun hrun (CheckRun.next_endRun hstage hgathered)
      ((h.sound _ _ hrun).endRun hstage hgathered)).checkResults _
  | wake hcall hrun houtcome => exact h.endCall hrun houtcome

theorem ChecksInv.reachable {P : OfferChecks → CheckAction → Prop} (h : ChecksInv offers s)
    (hkeyed : SavedOffers.Keyed offers.offers) (ht : Reachable offers P s t) : ChecksInv offers t :=
  ht.invariant h fun _ _ _ h _ hstep => h.step hkeyed hstep

end OfferChecks

end ElectrumClink
