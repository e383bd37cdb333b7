import ElectrumClink.Server.Steps

/-!
# The replay guard

Two mechanisms keep a request from being answered twice: the acceptance window around `created_at`
and the bounded set of remembered event ids. An id leaves the set only after `SEEN_EVENTS_MAX`
distinct others passed the guard; `replayed_event_is_dropped` says that they all did so while the
window of the first event was still open, so that a replay needs that many accepted requests
within the two minutes of one window.
-/

namespace ElectrumClink.World

open BoundedFifo ClinkServer

variable {env : Env} {w w' : World} {a : Action} {createdAt : EventId → ℤ}

/-- The steps of one session, in which an event id determines its `created_at`. -/
def Session (createdAt : EventId → ℤ) (_ : World) (a : Action) : Prop :=
  (∀ offers, a ≠ .start offers) ∧
    ∀ event calls, a = .dispatch event calls → event.createdAt = createdAt event.id

/-- The ids that passed the guard, oldest first. -/
def passedIds (w : World) : List EventId := w.history.passed.map fun p => p.event.id

/-- The distinct ids other than `p`'s that passed the guard while `p`'s window was open. -/
def othersInWindow (p : Passage) (later : List Passage) : Finset EventId :=
  ((later.filter fun q => q.event.id ≠ p.event.id ∧ InWindow q.time p.event.createdAt).map
    fun q => q.event.id).toFinset

/-- The remembered ids are the last of those that passed, and every passage was in time. -/
structure ReplayInv (createdAt : EventId → ℤ) (w : World) : Prop where
  seen : w.server.seenEvents.items = w.passedIds.rtake seenEventsMax
  deduplicated : Deduplicated seenEventsMax w.passedIds
  sorted : w.history.passed.Pairwise fun p q => p.time ≤ q.time
  past : ∀ p ∈ w.history.passed, p.time ≤ w.now
  inWindow : ∀ p ∈ w.history.passed, InWindow p.time p.event.createdAt
  dated : ∀ p ∈ w.history.passed, p.event.createdAt = createdAt p.event.id

theorem replayInv_step (hinv : ReplayInv createdAt w) (hsession : Session createdAt w a)
    (h : step env w a = some w') : ReplayInv createdAt w' := by
  have hnow := now_le_of_step h
  rcases passed_step hsession.1 h with ⟨hseen, hpassed⟩ |
    ⟨event, calls, req, rfl, haccepts, hnow', hseen, hpassed⟩
  · have hids : w'.passedIds = w.passedIds := by rw [passedIds, hpassed, passedIds]
    refine ⟨?_, hids ▸ hinv.deduplicated, hpassed ▸ hinv.sorted, fun p hp => ?_,
      hpassed ▸ hinv.inWindow, hpassed ▸ hinv.dated⟩
    · rw [hseen, hids, hinv.seen]
    · exact (hinv.past p (hpassed ▸ hp)).trans hnow
  · have hids : w'.passedIds = w.passedIds ++ [event.id] := by
      rw [passedIds, hpassed, List.map_append, passedIds]
      rfl
    have hnew : event.id ∉ w.passedIds.rtake seenEventsMax := hinv.seen ▸ haccepts.unseen
    -- the passages are those of before and the one of this event
    have hmem : ∀ p ∈ w'.history.passed, p ∈ w.history.passed ∨ p = ⟨w.now, event⟩ := by
      intro p hp
      rw [hpassed, List.mem_append, List.mem_singleton] at hp
      exact hp
    refine ⟨?_, ?_, ?_, fun p hp => ?_, fun p hp => ?_, fun p hp => ?_⟩
    · rw [hseen, hids]
      exact items_push_eq_rtake event.id hinv.seen
    · rw [hids]
      exact hinv.deduplicated.snoc hnew
    · rw [hpassed, List.pairwise_append]
      refine ⟨hinv.sorted, List.pairwise_singleton _ _, fun p hp q hq => ?_⟩
      rw [List.mem_singleton.1 hq]
      exact hinv.past p hp
    · rcases hmem p hp with hp | rfl
      · exact (hinv.past p hp).trans hnow
      · exact hnow
    · rcases hmem p hp with hp | rfl
      · exact hinv.inWindow p hp
      · exact haccepts.inWindow
    · rcases hmem p hp with hp | rfl
      · exact hinv.dated p hp
      · exact hsession.2 event calls rfl

/-- Between two passages of one id at least `SEEN_EVENTS_MAX` distinct others passed, all of them
while the window was open. -/
theorem card_othersInWindow (hinv : ReplayInv createdAt w) {pre mid post : List Passage}
    {p q : Passage} (hpassed : w.history.passed = pre ++ p :: mid ++ q :: post)
    (hid : q.event.id = p.event.id) : seenEventsMax ≤ (othersInWindow p mid).card := by
  have hids : w.passedIds = pre.map (fun p => p.event.id) ++
      p.event.id :: mid.map (fun p => p.event.id) ++
        p.event.id :: post.map (fun p => p.event.id) := by
    rw [passedIds, hpassed]
    simp [hid]
  have hdedup := hinv.deduplicated
  rw [hids] at hdedup
  obtain ⟨hnodup, hlength, hother⟩ := hdedup.distinct_between
  -- the window is open when `p` passes and again when `q` does
  have hsame : q.event.createdAt = p.event.createdAt := by
    rw [hinv.dated q (by simp [hpassed]), hinv.dated p (by simp [hpassed]), hid]
  have hopen : ∀ r ∈ mid, InWindow r.time p.event.createdAt := by
    intro r hr
    have hsorted := hinv.sorted
    rw [hpassed, List.append_assoc, List.pairwise_append] at hsorted
    have hsuffix := hsorted.2.1
    rw [List.cons_append, List.pairwise_cons, List.pairwise_append] at hsuffix
    have hpr : p.time ≤ r.time := hsuffix.1 r (by simp [hr])
    have hrq : r.time ≤ q.time := hsuffix.2.2.2 r hr q (by simp)
    refine InWindow.between (hinv.inWindow p (by simp [hpassed])) ?_ hpr hrq
    rw [← hsame]
    exact hinv.inWindow q (by simp [hpassed])
  have hsub : ((mid.map fun p => p.event.id).rtake seenEventsMax).toFinset ⊆
      othersInWindow p mid := by
    intro k hk
    rw [List.mem_toFinset] at hk
    have hmem : k ∈ mid.map fun p => p.event.id := List.mem_of_mem_drop hk
    obtain ⟨r, hr, rfl⟩ := List.mem_map.1 hmem
    have hne : r.event.id ≠ p.event.id := fun heq => hother (heq ▸ hk)
    rw [othersInWindow, List.mem_toFinset]
    exact List.mem_map.2 ⟨r, List.mem_filter.2 ⟨hr, by simp [hne, hopen r hr]⟩, rfl⟩
  calc
    seenEventsMax = ((mid.map fun p => p.event.id).rtake seenEventsMax).toFinset.card := by
      rw [List.toFinset_card_of_nodup hnodup, hlength]
    _ ≤ (othersInWindow p mid).card := Finset.card_le_card hsub

/-- Once an event has passed the guard, no later delivery of its id passes again in this session,
unless `SEEN_EVENTS_MAX` distinct other ids pass while its window is open. Undecryptable, stale,
future-dated, own and self-ping events do not count: they leave the guard as it was. -/
theorem replayed_event_is_dropped {env : Env} {createdAt : EventId → ℤ} {t : Time}
    {running : Bool} {server : ClinkServer} {w : World} (hnew : server.seenEvents = ∅)
    (hrun : Reachable env (Session createdAt) (start t running server) w) :
    (∀ pre p post, w.history.passed = pre ++ p :: post →
      (othersInWindow p post).card < seenEventsMax → ∀ q ∈ post, q.event.id ≠ p.event.id) ∧
    ∀ event calls w', step env w (.dispatch event calls) = some w' →
      (decryptRequest env event = none ∨ ¬ InWindow w.now event.createdAt ∨
        event.pubkey = env.pubkeyHex ∨ event.id ∈ w.server.pendingPings) →
      w'.history.passed = w.history.passed ∧ w'.server.seenEvents = w.server.seenEvents := by
  have hinv : ReplayInv createdAt w := by
    refine hrun.invariant ?_ fun _ _ _ hinv hsession h => replayInv_step hinv hsession h
    refine ⟨?_, .nil, List.Pairwise.nil, ?_, ?_, ?_⟩
    · simp [start, hnew, passedIds, History.empty]
    all_goals simp [start, History.empty]
  refine ⟨fun pre p post hpassed hfew q hq hid => ?_, fun event calls w' h hjunk => ?_⟩
  · obtain ⟨mid, rest, rfl⟩ := List.append_of_mem hq
    have hsplit : w.history.passed = pre ++ p :: mid ++ q :: rest := by
      rw [hpassed, List.append_assoc, List.cons_append]
    -- the id was forgotten, so enough others came between the two deliveries
    have hbetween := card_othersInWindow hinv hsplit hid
    have hmore : othersInWindow p mid ⊆ othersInWindow p (mid ++ q :: rest) := by
      intro k hk
      simp only [othersInWindow, List.filter_append, List.map_append, List.toFinset_append,
        Finset.mem_union] at hk ⊢
      exact .inl hk
    exact absurd (hbetween.trans (Finset.card_le_card hmore)) (not_le.2 hfew)
  · rcases passed_step (fun offers => by simp) h with ⟨hseen, hpassed⟩ |
      ⟨event', calls', req, heq, haccepts, -⟩
    · exact ⟨hpassed, hseen⟩
    · obtain ⟨rfl, -⟩ := Action.dispatch.inj heq
      rcases hjunk with hreq | hwindow | hown | hping
      · cases hreq.symm.trans haccepts.request
      · exact absurd haccepts.inWindow hwindow
      · exact absurd hown haccepts.notOwn
      · exact absurd hping haccepts.notPing

/-- Two requests pass the guard; the first is then delivered once more, and does not pass again. -/
theorem replayed_event_is_dropped_replay :
    let w₁ := (start 0 true (.sample 300 300)).perform .sample
      (.dispatch (.sample "e" 0) (.succeeding "r"))
    let w₂ := w₁.perform .sample (.dispatch (.sample "f" 0) (.succeeding "s"))
    let w₃ := w₂.perform .sample (.dispatch (.sample "e" 0) (.succeeding "t"))
    w₂.history.passed.map (fun q => q.event.id) = ["e", "f"] ∧
      ∀ q ∈ w₃.history.passed.drop 1, q.event.id ≠ "e" := by
  intro w₁ w₂ w₃
  have hstep₁ : step .sample (start 0 true (.sample 300 300))
      (.dispatch (.sample "e" 0) (.succeeding "r")) = some w₁ :=
    step_eq_some_iff.2 ⟨by decide +kernel, rfl⟩
  have hstep₂ : step .sample w₁ (.dispatch (.sample "f" 0) (.succeeding "s")) = some w₂ :=
    step_eq_some_iff.2 ⟨by decide +kernel, rfl⟩
  have hstep₃ : step .sample w₂ (.dispatch (.sample "e" 0) (.succeeding "t")) = some w₃ :=
    step_eq_some_iff.2 ⟨by decide +kernel, rfl⟩
  have hsession : ∀ (w : World) (id : EventId) (calls : Calls),
      Session (fun _ => 0) w (.dispatch (.sample id 0) calls) := by
    intro w id calls
    refine ⟨fun offers => by simp, fun event calls' heq => ?_⟩
    obtain ⟨rfl, -⟩ := Action.dispatch.inj heq
    rfl
  have hrun : Reachable .sample (Session fun _ => 0) (start 0 true (.sample 300 300)) w₃ :=
    .next (.next (.next .init (hsession _ _ _) hstep₁) (hsession _ _ _) hstep₂) (hsession _ _ _)
      hstep₃
  have hfirst : w₃.history.passed = ⟨0, .sample "e" 0⟩ :: w₃.history.passed.drop 1 := by
    decide +kernel
  refine ⟨by decide +kernel, ?_⟩
  exact (replayed_event_is_dropped rfl hrun).1 [] ⟨0, .sample "e" 0⟩ _ hfirst (by decide +kernel)

end ElectrumClink.World
