import ElectrumClink.Listener.Watchdog
import ElectrumClink.Relay.Session

/-!
# The watchdog repairs without collateral damage

`repairs_update` says what one `update_relays` does: it tries the desired URLs that the manager does
not hold, keeps of the relays what is desired, adds what connected, and issues the open
subscriptions again when it added a relay, but over no relay.

`pass_effect` says what a pass does to the manager and what it writes down: it closes relays that it
finds at fault, and updates the manager with what is left or leaves it at that.

`watchdog_repairs` is about any sequence of passes: every pass and every update in it does that,
nothing else adds a relay, and a relay that no pass finds fault with is neither closed nor removed.
-/

namespace ElectrumClink

namespace Watchdog

variable {normalizeUrl : String → String}

/-! ## One update -/

/-- A URL is the normalized form of one in the list. -/
def Desired (normalizeUrl : String → String) (urls : List String) (url : String) : Prop :=
  ∃ desired ∈ urls, normalizeUrl desired = url

/-- What an update does. -/
structure RelayUpdate.Repairs (normalizeUrl : String → String) (u : RelayUpdate) : Prop where
  /-- It tries the desired URLs that the manager does not hold, each once. -/
  tries : ∀ url, url ∈ u.new.map Relay.url ↔
    Desired normalizeUrl u.desired url ∧ url ∉ u.before.map Relay.url
  nodup : (u.new.map Relay.url).Nodup
  /-- It adds the new relays that connected. -/
  adds : ∀ relay, relay ∈ u.added ↔ relay ∈ u.new ∧ u.outcomes.connected relay = true
  /-- The manager holds the desired relays among those it held before, and the added ones. -/
  holds : ∀ relay, relay ∈ u.after ↔
    Desired normalizeUrl u.desired relay.url ∧ (relay ∈ u.before ∨ relay ∈ u.added)
  /-- It closes those it held before that are not desired. -/
  closes : ∀ relay, relay ∈ u.removed ↔
    relay ∈ u.before ∧ ¬ Desired normalizeUrl u.desired relay.url
  /-- Unless `subscribe` raises, all open subscriptions are issued again when a relay was added. -/
  issues : (∀ id, u.outcomes.subscribes id = true) → u.added ≠ [] →
    u.issued = u.subscriptions.entries
  /-- They are not issued while the manager holds no relay. -/
  silent : u.after = [] → u.issued = []

/-- Where no `subscribe` raises, all are called. -/
theorem issue_eq_self {subscribes : String → Bool} (h : ∀ id, subscribes id = true)
    (subscriptions : List (String × Subscription)) :
    issue subscribes subscriptions = subscriptions := by
  induction subscriptions with
  | nil => rfl
  | cons subscription rest ih => rw [issue, if_pos (h _), ih]

theorem mem_dedup_map {urls : List String} {url : String} :
    url ∈ (urls.map normalizeUrl).dedup ↔ Desired normalizeUrl urls url := by
  rw [List.mem_dedup, List.mem_map]
  rfl

/-- The new relays carry the URLs that they are built for. -/
theorem map_url_newRelays (hidem : ∀ url, normalizeUrl (normalizeUrl url) = normalizeUrl url)
    (m : Manager) (urls : List String) :
    (m.newRelays normalizeUrl (urls.map normalizeUrl).dedup).map Relay.url =
      (urls.map normalizeUrl).dedup.filter fun url => url ∉ m.relays.map Relay.url := by
  set missing := (urls.map normalizeUrl).dedup.filter fun url => url ∉ m.relays.map Relay.url
    with hmissing
  have hnormal : ∀ url ∈ missing, normalizeUrl url = url := by
    intro url hurl
    obtain ⟨desired, -, rfl⟩ := mem_dedup_map.1 (List.mem_filter.1 hurl).1
    exact hidem desired
  have hurl : ∀ p ∈ missing.zipIdx m.nextId, (newRelay normalizeUrl p.2 p.1).url = p.1 := by
    intro p hp
    exact hnormal _ (List.fst_mem_of_mem_zipIdx hp)
  rw [Manager.newRelays, List.map_map]
  calc (missing.zipIdx m.nextId).map (Relay.url ∘ fun p => newRelay normalizeUrl p.2 p.1)
      = (missing.zipIdx m.nextId).map Prod.fst := List.map_congr_left hurl
    _ = missing := List.zipIdx_map_fst _ _

section Update

variable (hidem : ∀ url, normalizeUrl (normalizeUrl url) = normalizeUrl url) (m : Manager)
  (outcomes : Outcomes) (urls : List String)

include hidem

/-- The desired URLs that no relay carries get a new relay. -/
theorem mem_url_new_update (url : String) :
    url ∈ (m.update normalizeUrl outcomes urls).new.map Relay.url ↔
      Desired normalizeUrl urls url ∧ url ∉ m.relays.map Relay.url := by
  show url ∈ (m.newRelays normalizeUrl (urls.map normalizeUrl).dedup).map Relay.url ↔ _
  rw [map_url_newRelays hidem, List.mem_filter, mem_dedup_map, decide_eq_true_eq]

/-- What was added is desired, so it is not removed again. -/
theorem desired_of_mem_added {relay : Relay}
    (h : relay ∈ (m.update normalizeUrl outcomes urls).added) :
    Desired normalizeUrl urls relay.url := by
  have hnew : relay ∈ (m.update normalizeUrl outcomes urls).new := (List.mem_filter.1 h).1
  exact ((mem_url_new_update hidem m outcomes urls _).1 (List.mem_map_of_mem hnew)).1

theorem mem_removed_update (relay : Relay) :
    relay ∈ (m.update normalizeUrl outcomes urls).removed ↔
      relay ∈ m.relays ∧ ¬ Desired normalizeUrl urls relay.url := by
  show relay ∈ (m.relays ++ (m.update normalizeUrl outcomes urls).added).filter
    (fun relay => relay.url ∉ (urls.map normalizeUrl).dedup) ↔ _
  rw [List.mem_filter, List.mem_append, decide_eq_true_eq, mem_dedup_map]
  constructor
  · rintro ⟨hbefore | hadd, hnot⟩
    · exact ⟨hbefore, hnot⟩
    · exact absurd (desired_of_mem_added hidem m outcomes urls hadd) hnot
  · rintro ⟨hbefore, hnot⟩
    exact ⟨.inl hbefore, hnot⟩

theorem mem_after_update (relay : Relay) :
    relay ∈ (m.update normalizeUrl outcomes urls).after ↔
      Desired normalizeUrl urls relay.url ∧
        (relay ∈ m.relays ∨ relay ∈ (m.update normalizeUrl outcomes urls).added) := by
  show relay ∈ (m.relays ++ (m.update normalizeUrl outcomes urls).added).filter
    (fun relay => relay ∉ (m.update normalizeUrl outcomes urls).removed) ↔ _
  rw [List.mem_filter, List.mem_append, decide_eq_true_eq, mem_removed_update hidem]
  constructor
  · rintro ⟨hbefore | hadd, hnot⟩
    · exact ⟨not_not.1 fun hundesired => hnot ⟨hbefore, hundesired⟩, .inl hbefore⟩
    · exact ⟨desired_of_mem_added hidem m outcomes urls hadd, .inr hadd⟩
  · rintro ⟨hwanted, hheld⟩
    exact ⟨hheld, fun hremoved => hremoved.2 hwanted⟩

/-- Every update repairs. -/
theorem repairs_update : (m.update normalizeUrl outcomes urls).Repairs normalizeUrl where
  tries := mem_url_new_update hidem m outcomes urls
  nodup := by
    show ((m.newRelays normalizeUrl (urls.map normalizeUrl).dedup).map Relay.url).Nodup
    rw [map_url_newRelays hidem]
    exact (List.nodup_dedup _).filter _
  adds _ := List.mem_filter
  holds := mem_after_update hidem m outcomes urls
  closes := mem_removed_update hidem m outcomes urls
  issues hsubscribes hsome := by
    obtain ⟨relay, hadded⟩ := List.exists_mem_of_ne_nil _ hsome
    have hnew : relay ∈ (m.update normalizeUrl outcomes urls).new := (List.mem_filter.1 hadded).1
    have hwanted := desired_of_mem_added hidem m outcomes urls hadded
    have hafter := (mem_after_update hidem m outcomes urls relay).2 ⟨hwanted, .inr hadded⟩
    -- the relay is there, so something changed and the manager is not left without relays
    have hchanged : ((!(m.update normalizeUrl outcomes urls).new.isEmpty ||
        !(m.update normalizeUrl outcomes urls).removed.isEmpty) &&
          !(m.update normalizeUrl outcomes urls).after.isEmpty) = true := by
      rw [List.isEmpty_eq_false_iff.2 (List.ne_nil_of_mem hnew),
        List.isEmpty_eq_false_iff.2 (List.ne_nil_of_mem hafter)]
      rfl
    exact (if_pos hchanged).trans (issue_eq_self hsubscribes _)
  silent hnone := by
    have hnot : ¬ ((!(m.update normalizeUrl outcomes urls).new.isEmpty ||
        !(m.update normalizeUrl outcomes urls).removed.isEmpty) &&
          !(m.update normalizeUrl outcomes urls).after.isEmpty) = true := by
      rw [List.isEmpty_iff.2 hnone, Bool.not_true, Bool.and_false]
      exact Bool.false_ne_true
    exact if_neg hnot

end Update

/-- The new relays are other objects than those that there were. -/
theorem id_newRelays (m : Manager) (updated : List String) :
    ∀ relay ∈ m.newRelays normalizeUrl updated,
      m.nextId ≤ relay.id ∧ relay.id < m.nextId + (m.newRelays normalizeUrl updated).length := by
  intro relay hrelay
  obtain ⟨p, hp, rfl⟩ := List.mem_map.1 hrelay
  refine ⟨List.le_snd_of_mem_zipIdx hp, ?_⟩
  rw [Manager.newRelays, List.length_map, List.length_zipIdx]
  exact List.snd_lt_add_of_mem_zipIdx hp

/-- Where every new relay connects, an update leaves the manager on the desired URLs. -/
theorem RelayUpdate.Repairs.mem_url_after {u : RelayUpdate} (h : u.Repairs normalizeUrl)
    (hall : ∀ relay, u.outcomes.connected relay = true) (url : String) :
    url ∈ u.after.map Relay.url ↔ Desired normalizeUrl u.desired url := by
  constructor
  · intro hurl
    obtain ⟨relay, hrelay, rfl⟩ := List.mem_map.1 hurl
    exact ((h.holds relay).1 hrelay).1
  · intro hdesired
    by_cases hheld : url ∈ u.before.map Relay.url
    · obtain ⟨relay, hrelay, rfl⟩ := List.mem_map.1 hheld
      exact List.mem_map_of_mem ((h.holds relay).2 ⟨hdesired, .inl hrelay⟩)
    · obtain ⟨relay, hrelay, rfl⟩ := List.mem_map.1 ((h.tries url).2 ⟨hdesired, hheld⟩)
      have hadded := (h.adds relay).2 ⟨hrelay, hall relay⟩
      exact List.mem_map_of_mem ((h.holds relay).2 ⟨hdesired, .inr hadded⟩)

/-! ## What a pass does -/

section Cases

variable {m : Manager} (s : Watchdog)

/-- `prune_dead_relays` does nothing, or drops relays with dead connections. -/
theorem pruneDeadRelays_cases (connection : Relay → Connection) :
    s.pruneDeadRelays connection = s ∨
      ∃ relays, (∀ relay ∈ relays, s.Holds relay ∧ relayConnectionDead (connection relay) = true) ∧
        s.pruneDeadRelays connection = s.dropRelays relays := by
  unfold pruneDeadRelays
  split
  next => exact .inl rfl
  next m hm =>
    split
    next => exact .inl rfl
    next =>
      dsimp only
      split
      next => exact .inl rfl
      next =>
        refine .inr ⟨_, fun relay hrelay => ?_, rfl⟩
        obtain ⟨hheld, hdead⟩ := List.mem_filter.1 hrelay
        exact ⟨⟨m, hm, hheld⟩, hdead⟩

/-- `ensure_listener_relays` does nothing, or updates the manager to the relays to listen on. -/
theorem ensureListenerRelays_cases (listenRelayUrls : List String) (outcomes : Outcomes) :
    s.ensureListenerRelays normalizeUrl listenRelayUrls outcomes = s ∨
      ∃ m, s.manager = some m ∧
        s.ensureListenerRelays normalizeUrl listenRelayUrls outcomes =
          s.updated m (m.update normalizeUrl outcomes
            ((desiredRelays normalizeUrl listenRelayUrls).insertionSort (· ≤ ·))) := by
  unfold ensureListenerRelays
  split
  next => exact .inl rfl
  next m hm =>
    split
    next => exact .inl rfl
    next hconnected =>
      dsimp only
      split
      next => exact .inl rfl
      next =>
        rw [Manager.updateRelays, if_pos (by simpa using hconnected)]
        exact .inr ⟨m, hm, rfl⟩

/-- Each ping is that of one of the relays. -/
theorem mem_pinged {ping : Relay → EventId} {relays : List Relay} :
    ∀ e ∈ (relays.foldl (fun pinged relay => pinged.set (ping relay) relay)
      (∅ : Dict EventId Relay)).entries, e.1 = ping e.2 ∧ e.2 ∈ relays := by
  refine List.foldlRecOn (motive := fun pinged : Dict EventId Relay =>
    ∀ e ∈ pinged.entries, e.1 = ping e.2 ∧ e.2 ∈ relays) relays _ (fun e he => by cases he) ?_
  intro pinged hpinged relay hrelay e he
  have hget := Dict.get?_eq_some_iff.2 he
  by_cases hkey : e.1 = ping relay
  · rw [hkey, Dict.get?_set_self] at hget
    obtain rfl := Option.some.inj hget
    exact ⟨hkey, hrelay⟩
  · rw [Dict.get?_set_of_ne _ hkey] at hget
    exact hpinged e (Dict.get?_eq_some_iff.1 hget)

/-- `ping_listener` leaves the relays as they are, or drops some that did not echo, and attaches
what is missing. -/
theorem pingListener_cases (normalizeUrl : String → String) (ping : Relay → EventId)
    (echoed : EventId → Bool) (now : Time) (listenRelayUrls : List String) (outcomes : Outcomes) :
    ∃ server, (s.pingListener normalizeUrl ping echoed now listenRelayUrls outcomes).2 =
        { s with server := server } ∨
      ∃ relays, (∀ relay ∈ relays, s.Holds relay ∧ echoed (ping relay) = false) ∧
        (s.pingListener normalizeUrl ping echoed now listenRelayUrls outcomes).2 =
          (({ s with server := server } : Watchdog).dropRelays relays).ensureListenerRelays
            normalizeUrl listenRelayUrls outcomes := by
  unfold pingListener
  split
  next => exact ⟨s.server, .inl rfl⟩
  next m hm =>
    split
    next => exact ⟨s.server, .inl rfl⟩
    next =>
      dsimp only
      split
      next => exact ⟨_, .inl rfl⟩
      next =>
        refine ⟨_, .inr ⟨_, ?_, rfl⟩⟩
        intro relay hrelay
        obtain ⟨e, he, rfl⟩ := List.mem_map.1 hrelay
        obtain ⟨he, hsilent⟩ := List.mem_filter.1 he
        obtain ⟨hping, hheld⟩ := mem_pinged e he
        rw [← hping]
        exact ⟨⟨m, hm, hheld⟩, by simpa using hsilent⟩

end Cases

/-! ## What every pass keeps -/

/-- The relays of a manager were built by the plugin. -/
def Manager.Built (normalizeUrl : String → String) (m : Manager) : Prop :=
  ∀ relay ∈ m.relays, relay.id < m.nextId ∧ ∃ url, relay.url = normalizeUrl url

theorem built_build (urls : List String) :
    (Manager.build normalizeUrl urls).Built normalizeUrl := by
  intro relay hrelay
  obtain ⟨p, hp, rfl⟩ := List.mem_map.1 hrelay
  exact ⟨List.snd_lt_of_mem_zipIdx hp, p.1, rfl⟩

/-- A relay that was built carries a normalized URL. -/
theorem Manager.Built.normalizeUrl_url {m : Manager} (h : m.Built normalizeUrl)
    (hidem : ∀ url, normalizeUrl (normalizeUrl url) = normalizeUrl url) {relay : Relay}
    (hrelay : relay ∈ m.relays) : normalizeUrl relay.url = relay.url := by
  obtain ⟨-, url, hurl⟩ := h relay hrelay
  rw [hurl, hidem]

/-- What holds after any of these passes over the manager `m₀`. -/
structure PassInv (normalizeUrl : String → String) (m₀ : Manager) (passes : List Pass)
    (s : Watchdog) : Prop where
  built : ∀ m, s.manager = some m → m.Built normalizeUrl
  /-- A relay that was closed is held no more, and none that is built later is the same. -/
  closed : ∀ m, s.manager = some m → ∀ relay ∈ s.closed, relay.id < m.nextId ∧ relay ∉ m.relays
  repairs : ∀ u ∈ s.updates, u.Repairs normalizeUrl
  /-- An update is to the relays that a pass reads. -/
  reads : ∀ u ∈ s.updates, ∃ p ∈ passes, ∃ listenRelayUrls,
    p.reads = some (listenRelayUrls, u.outcomes) ∧
      ∀ url, Desired normalizeUrl u.desired url ↔ Desired normalizeUrl listenRelayUrls url
  /-- Only updates add relays. -/
  origin : ∀ relay, s.Holds relay → relay ∈ m₀.relays ∨ ∃ u ∈ s.updates, relay ∈ u.added
  /-- No URL comes twice. -/
  nodup : (m₀.relays.map Relay.url).Nodup → ∀ m, s.manager = some m →
    (m.relays.map Relay.url).Nodup

variable {m₀ m : Manager} {passes : List Pass} {s : Watchdog}

theorem passInv_start (hbuilt : m₀.Built normalizeUrl) (server : ClinkServer) :
    PassInv normalizeUrl m₀ passes (start server (some m₀)) where
  built m hm := by
    obtain rfl := Option.some.inj hm
    exact hbuilt
  closed m _ relay hrelay := by cases hrelay
  repairs u hu := by cases hu
  reads u hu := by cases hu
  origin relay hheld := by
    obtain ⟨m, hm, hrelay⟩ := hheld
    obtain rfl := Option.some.inj hm
    exact .inl hrelay
  nodup hnodup m hm := by
    obtain rfl := Option.some.inj hm
    exact hnodup

theorem PassInv.server (h : PassInv normalizeUrl m₀ passes s) (server : ClinkServer) :
    PassInv normalizeUrl m₀ passes { s with server := server } :=
  ⟨h.built, h.closed, h.repairs, h.reads, h.origin, h.nodup⟩

theorem PassInv.dropRelays (h : PassInv normalizeUrl m₀ passes s) {relays : List Relay}
    (hheld : ∀ relay ∈ relays, s.Holds relay) :
    PassInv normalizeUrl m₀ passes (s.dropRelays relays) := by
  unfold Watchdog.dropRelays
  split
  next => exact h
  next m hm =>
    refine ⟨?_, ?_, h.repairs, h.reads, ?_, ?_⟩
    · rintro _ ⟨⟩ relay hrelay
      exact h.built m hm relay (List.mem_filter.1 hrelay).1
    · rintro _ ⟨⟩ relay hclosed
      rcases List.mem_append.1 hclosed with hold | hnew
      · obtain ⟨hid, hgone⟩ := h.closed m hm relay hold
        exact ⟨hid, fun hrelay => hgone (List.mem_filter.1 hrelay).1⟩
      · obtain ⟨m', hm', hrelay⟩ := hheld relay hnew
        obtain rfl := Option.some.inj (hm.symm.trans hm')
        refine ⟨(h.built m hm relay hrelay).1, fun hstill => ?_⟩
        exact of_decide_eq_true (List.mem_filter.1 hstill).2 hnew
    · rintro relay ⟨_, ⟨⟩, hrelay⟩
      exact h.origin relay ⟨m, hm, (List.mem_filter.1 hrelay).1⟩
    · rintro hnodup _ ⟨⟩
      exact (h.nodup hnodup m hm).sublist (List.filter_sublist.map Relay.url)

/-- What `ensure_listener_relays` asks the manager for are the normalized URLs to listen on. -/
theorem desired_sorted (hidem : ∀ url, normalizeUrl (normalizeUrl url) = normalizeUrl url)
    (listenRelayUrls : List String) (url : String) :
    Desired normalizeUrl ((desiredRelays normalizeUrl listenRelayUrls).insertionSort (· ≤ ·)) url ↔
      Desired normalizeUrl listenRelayUrls url := by
  constructor
  · rintro ⟨_, hmem, rfl⟩
    obtain ⟨desired, hdesired, rfl⟩ := mem_dedup_map.1 ((List.mem_insertionSort _).1 hmem)
    exact ⟨desired, hdesired, (hidem desired).symm⟩
  · rintro ⟨desired, hdesired, rfl⟩
    exact ⟨normalizeUrl desired,
      (List.mem_insertionSort _).2 (mem_dedup_map.2 ⟨desired, hdesired, rfl⟩), hidem desired⟩

theorem PassInv.updated (h : PassInv normalizeUrl m₀ passes s)
    (hidem : ∀ url, normalizeUrl (normalizeUrl url) = normalizeUrl url) {p : Pass}
    (hp : p ∈ passes) {listenRelayUrls : List String} {outcomes : Outcomes}
    (hreads : p.reads = some (listenRelayUrls, outcomes)) (hm : s.manager = some m) :
    PassInv normalizeUrl m₀ passes (s.updated m (m.update normalizeUrl outcomes
      ((desiredRelays normalizeUrl listenRelayUrls).insertionSort (· ≤ ·)))) := by
  set u := m.update normalizeUrl outcomes
    ((desiredRelays normalizeUrl listenRelayUrls).insertionSort (· ≤ ·)) with hu
  have hrepairs : u.Repairs normalizeUrl := repairs_update hidem m outcomes _
  have hbefore : u.before = m.relays := rfl
  have hadded : u.added.Sublist u.new := List.filter_sublist
  have hafter : u.after.Sublist (m.relays ++ u.added) := List.filter_sublist
  -- new relays are new objects
  have hids : ∀ relay ∈ u.new, m.nextId ≤ relay.id ∧ relay.id < m.nextId + u.new.length :=
    id_newRelays m _
  refine ⟨?_, ?_, ?_, ?_, ?_, ?_⟩
  · rintro _ ⟨⟩ relay hrelay
    obtain ⟨⟨desired, -, hurl⟩, hheld | hnew⟩ := (hrepairs.holds relay).1 hrelay
    · rw [hbefore] at hheld
      exact ⟨Nat.lt_add_right _ (h.built m hm relay hheld).1, desired, hurl.symm⟩
    · exact ⟨(hids relay (hadded.subset hnew)).2, desired, hurl.symm⟩
  · rintro _ ⟨⟩ relay hclosed
    rcases List.mem_append.1 hclosed with hold | hundesired
    · -- a new relay is another object than one that was closed
      obtain ⟨hid, hgone⟩ := h.closed m hm relay hold
      refine ⟨Nat.lt_add_right _ hid, fun hrelay => ?_⟩
      rcases ((hrepairs.holds relay).1 hrelay).2 with hheld | hnew
      · exact hgone (hbefore ▸ hheld)
      · exact absurd hid (hids relay (hadded.subset hnew)).1.not_gt
    · obtain ⟨hheld, hnot⟩ := (hrepairs.closes relay).1 hundesired
      rw [hbefore] at hheld
      exact ⟨Nat.lt_add_right _ (h.built m hm relay hheld).1,
        fun hrelay => hnot ((hrepairs.holds relay).1 hrelay).1⟩
  · intro u' hu'
    rcases List.mem_append.1 hu' with hold | hnew
    · exact h.repairs u' hold
    · obtain rfl := List.mem_singleton.1 hnew
      exact hrepairs
  · intro u' hu'
    rcases List.mem_append.1 hu' with hold | hnew
    · exact h.reads u' hold
    · obtain rfl := List.mem_singleton.1 hnew
      exact ⟨p, hp, listenRelayUrls, hreads, desired_sorted hidem listenRelayUrls⟩
  · rintro relay ⟨_, ⟨⟩, hrelay⟩
    rcases ((hrepairs.holds relay).1 hrelay).2 with hheld | hnew
    · rw [hbefore] at hheld
      refine (h.origin relay ⟨m, hm, hheld⟩).imp_right ?_
      rintro ⟨u', hu', hadded'⟩
      exact ⟨u', List.mem_append_left _ hu', hadded'⟩
    · exact .inr ⟨u, List.mem_append_right _ (List.mem_singleton_self u), hnew⟩
  · rintro hnodup _ ⟨⟩
    refine List.Nodup.sublist (hafter.map Relay.url) ?_
    rw [List.map_append]
    refine (h.nodup hnodup m hm).append (hrepairs.nodup.sublist (hadded.map Relay.url)) ?_
    -- a new relay has a URL that the manager did not hold
    intro url hheld hnew
    have htried := (hrepairs.tries url).1 ((hadded.map Relay.url).subset hnew)
    rw [hbefore] at htried
    exact htried.2 hheld

theorem PassInv.subscriptions (h : PassInv normalizeUrl m₀ passes s)
    (subscriptions : Dict String Subscription) :
    PassInv normalizeUrl m₀ passes
      { s with manager := s.manager.map fun m => { m with subscriptions := subscriptions } } := by
  refine ⟨?_, ?_, h.repairs, h.reads, ?_, ?_⟩
  · intro m' hm'
    obtain ⟨m, hm, rfl⟩ := Option.map_eq_some_iff.1 hm'
    exact h.built m hm
  · intro m' hm'
    obtain ⟨m, hm, rfl⟩ := Option.map_eq_some_iff.1 hm'
    exact h.closed m hm
  · rintro relay ⟨m', hm', hrelay⟩
    obtain ⟨m, hm, rfl⟩ := Option.map_eq_some_iff.1 hm'
    exact h.origin relay ⟨m, hm, hrelay⟩
  · intro hnodup m' hm'
    obtain ⟨m, hm, rfl⟩ := Option.map_eq_some_iff.1 hm'
    exact h.nodup hnodup m hm

theorem PassInv.ensureListenerRelays (h : PassInv normalizeUrl m₀ passes s)
    (hidem : ∀ url, normalizeUrl (normalizeUrl url) = normalizeUrl url) {p : Pass}
    (hp : p ∈ passes) {listenRelayUrls : List String} {outcomes : Outcomes}
    (hreads : p.reads = some (listenRelayUrls, outcomes)) :
    PassInv normalizeUrl m₀ passes
      (s.ensureListenerRelays normalizeUrl listenRelayUrls outcomes) := by
  rcases ensureListenerRelays_cases s listenRelayUrls outcomes with heq | ⟨m, hm, heq⟩
  · rw [heq]
    exact h
  · rw [heq]
    exact h.updated hidem hp hreads hm

/-- Every pass keeps the invariant. -/
theorem PassInv.pass (h : PassInv normalizeUrl m₀ passes s)
    (hidem : ∀ url, normalizeUrl (normalizeUrl url) = normalizeUrl url) {p : Pass}
    (hp : p ∈ passes) : PassInv normalizeUrl m₀ passes (s.pass normalizeUrl p) := by
  cases p with
  | pruneDeadRelays connection =>
    show PassInv normalizeUrl m₀ passes (s.pruneDeadRelays connection)
    rcases pruneDeadRelays_cases s connection with heq | ⟨relays, hdead, heq⟩
    · rw [heq]
      exact h
    · rw [heq]
      exact h.dropRelays fun relay hrelay => (hdead relay hrelay).1
  | ensureListenerRelays listenRelayUrls outcomes => exact h.ensureListenerRelays hidem hp rfl
  | pingListener ping echoed now listenRelayUrls outcomes =>
    obtain ⟨server, heq | ⟨relays, hsilent, heq⟩⟩ :=
      pingListener_cases s normalizeUrl ping echoed now listenRelayUrls outcomes
    · rw [Watchdog.pass, heq]
      exact h.server server
    · rw [Watchdog.pass, heq]
      refine ((h.server server).dropRelays ?_).ensureListenerRelays hidem hp rfl
      exact fun relay hrelay => (hsilent relay hrelay).1
  | subscriptions subscriptions => exact h.subscriptions subscriptions

/-! ## What a pass writes down -/

/-- A pass finds a relay at fault: its connection is seen to be broken, or its ping did not come
back. -/
def Pass.Faults (relay : Relay) : Pass → Prop
  | .pruneDeadRelays connection => relayConnectionDead (connection relay) = true
  | .pingListener ping echoed _ _ _ => echoed (ping relay) = false
  | .ensureListenerRelays _ _ | .subscriptions _ => False

/-- What a pass does to the manager `m` of `s`, and what it writes down of it. -/
inductive PassEffect (normalizeUrl : String → String) (p : Pass) (s : Watchdog) (m : Manager)
    (t : Watchdog) : Prop
  /-- Subscriptions were opened or closed. -/
  | subscriptions (subscriptions : Dict String Subscription)
      (hpass : p = .subscriptions subscriptions)
      (hmanager : t.manager = some { m with subscriptions := subscriptions })
      (hclosed : t.closed = s.closed) (hupdates : t.updates = s.updates)
  /-- Relays at fault are dropped and closed, and the manager is not updated. -/
  | dropped (relays : List Relay) (hfaults : ∀ relay ∈ relays, relay ∈ m.relays ∧ p.Faults relay)
      (hmanager : t.manager =
        some { m with relays := m.relays.filter fun relay => relay ∉ relays })
      (hclosed : t.closed = s.closed ++ relays) (hupdates : t.updates = s.updates)
  /-- Relays at fault are dropped and closed, and the manager with what is left is updated to the
  relays to listen on. -/
  | updated (relays : List Relay) (u : RelayUpdate) (listenRelayUrls : List String)
      (hfaults : ∀ relay ∈ relays, relay ∈ m.relays ∧ p.Faults relay)
      (hreads : p.reads = some (listenRelayUrls, u.outcomes))
      (hdesired : ∀ url,
        Desired normalizeUrl u.desired url ↔ Desired normalizeUrl listenRelayUrls url)
      (hrepairs : u.Repairs normalizeUrl)
      (hbefore : u.before = m.relays.filter fun relay => relay ∉ relays)
      (hsubscriptions : u.subscriptions = m.subscriptions)
      (hmanager : t.manager =
        some { m with relays := u.after, nextId := m.nextId + u.new.length })
      (hclosed : t.closed = s.closed ++ relays ++ u.removed)
      (hupdates : t.updates = s.updates ++ [u])

/-- A pass that drops nothing and updates nothing. -/
theorem PassEffect.of_kept {p : Pass} {t : Watchdog} (hmanager : t.manager = some m)
    (hclosed : t.closed = s.closed) (hupdates : t.updates = s.updates) :
    PassEffect normalizeUrl p s m t := by
  refine .dropped [] (by simp) ?_ (by simpa using hclosed) hupdates
  rw [hmanager]
  simp

/-- Once relays are dropped, `ensure_listener_relays` leaves it at that or updates the rest. -/
theorem PassEffect.ensureListenerRelays {p : Pass} {s' : Watchdog}
    (hidem : ∀ url, normalizeUrl (normalizeUrl url) = normalizeUrl url) (relays : List Relay)
    (hfaults : ∀ relay ∈ relays, relay ∈ m.relays ∧ p.Faults relay)
    (hmanager : s'.manager = some { m with relays := m.relays.filter fun relay => relay ∉ relays })
    (hclosed : s'.closed = s.closed ++ relays) (hupdates : s'.updates = s.updates)
    {listenRelayUrls : List String} {outcomes : Outcomes}
    (hreads : p.reads = some (listenRelayUrls, outcomes)) :
    PassEffect normalizeUrl p s m
      (s'.ensureListenerRelays normalizeUrl listenRelayUrls outcomes) := by
  rcases ensureListenerRelays_cases s' listenRelayUrls outcomes with heq | ⟨m', hm', heq⟩
  · rw [heq]
    exact .dropped relays hfaults hmanager hclosed hupdates
  -- the update is over what the dropped relays leave
  · obtain rfl := Option.some.inj (hmanager.symm.trans hm')
    rw [heq]
    have hrepairs := repairs_update hidem
      { m with relays := m.relays.filter fun relay => relay ∉ relays } outcomes
      ((desiredRelays normalizeUrl listenRelayUrls).insertionSort (· ≤ ·))
    refine .updated relays _ listenRelayUrls hfaults hreads (desired_sorted hidem listenRelayUrls)
      hrepairs rfl rfl rfl ?_ ?_
    · rw [Watchdog.updated, hclosed]
    · rw [Watchdog.updated, hupdates]

/-- What every pass does. -/
theorem pass_effect (hidem : ∀ url, normalizeUrl (normalizeUrl url) = normalizeUrl url)
    (hm : s.manager = some m) (p : Pass) :
    PassEffect normalizeUrl p s m (s.pass normalizeUrl p) := by
  have hheld : ∀ relay, s.Holds relay → relay ∈ m.relays := by
    rintro relay ⟨m', hm', hrelay⟩
    obtain rfl := Option.some.inj (hm.symm.trans hm')
    exact hrelay
  cases p with
  | pruneDeadRelays connection =>
    rw [Watchdog.pass]
    rcases pruneDeadRelays_cases s connection with heq | ⟨relays, hdead, heq⟩
    · rw [heq]
      exact .of_kept hm rfl rfl
    · rw [heq, Watchdog.dropRelays, hm]
      refine .dropped relays (fun relay hrelay => ?_) rfl rfl rfl
      exact ⟨hheld relay (hdead relay hrelay).1, (hdead relay hrelay).2⟩
  | ensureListenerRelays listenRelayUrls outcomes =>
    exact .ensureListenerRelays hidem [] (by simp) (by simpa using hm) (by simp) rfl rfl
  | pingListener ping echoed now listenRelayUrls outcomes =>
    rw [Watchdog.pass]
    obtain ⟨server, heq | ⟨relays, hsilent, heq⟩⟩ :=
      pingListener_cases s normalizeUrl ping echoed now listenRelayUrls outcomes
    · rw [heq]
      exact .of_kept hm rfl rfl
    · rw [heq]
      refine .ensureListenerRelays hidem relays (fun relay hrelay => ?_) ?_ ?_ ?_ rfl
      · exact ⟨hheld relay (hsilent relay hrelay).1, (hsilent relay hrelay).2⟩
      · rw [Watchdog.dropRelays, hm]
      · rw [Watchdog.dropRelays, hm]
      · rw [Watchdog.dropRelays, hm]
  | subscriptions subscriptions =>
    rw [Watchdog.pass, hm]
    exact .subscriptions subscriptions rfl rfl rfl rfl

/-- The manager is never taken away. -/
theorem PassEffect.manager {p : Pass} {t : Watchdog} (h : PassEffect normalizeUrl p s m t) :
    ∃ m', t.manager = some m' := by
  cases h with
  | subscriptions _ _ hmanager | dropped _ _ hmanager => exact ⟨_, hmanager⟩
  | updated _ _ _ _ _ _ _ _ _ hmanager => exact ⟨_, hmanager⟩

/-! ## The relays that no pass finds fault with -/

/-- A pass finds no fault with a relay: as far as it looks, the connection is not seen to be broken,
the ping came back, and the URL is among those to listen on. -/
def Pass.Spares (normalizeUrl : String → String) (relay : Relay) : Pass → Prop
  | .pruneDeadRelays connection => relayConnectionDead (connection relay) = false
  | .ensureListenerRelays listenRelayUrls _ =>
    Desired normalizeUrl listenRelayUrls (normalizeUrl relay.url)
  | .pingListener ping echoed _ listenRelayUrls _ =>
    echoed (ping relay) = true ∧ Desired normalizeUrl listenRelayUrls (normalizeUrl relay.url)
  | .subscriptions _ => True

/-- The manager holds a relay that was not closed. -/
def Serves (s : Watchdog) (relay : Relay) : Prop := s.Holds relay ∧ relay ∉ s.closed

variable {relay : Relay} {p : Pass}

theorem Pass.Spares.not_faults (h : p.Spares normalizeUrl relay) : ¬ p.Faults relay := by
  intro hfaults
  cases p with
  | pruneDeadRelays connection =>
    have hdead : relayConnectionDead (connection relay) = true := hfaults
    have hlives : relayConnectionDead (connection relay) = false := h
    rw [hdead] at hlives
    cases hlives
  | pingListener ping echoed now listenRelayUrls outcomes =>
    obtain ⟨hechoed, -⟩ := h
    have hsilent : echoed (ping relay) = false := hfaults
    rw [hsilent] at hechoed
    cases hechoed
  | ensureListenerRelays | subscriptions => exact hfaults

theorem Pass.Spares.desired (h : p.Spares normalizeUrl relay) {listenRelayUrls : List String}
    {outcomes : Outcomes} (hreads : p.reads = some (listenRelayUrls, outcomes)) :
    Desired normalizeUrl listenRelayUrls (normalizeUrl relay.url) := by
  cases p with
  | ensureListenerRelays =>
    obtain ⟨rfl, rfl⟩ := Prod.mk.inj (Option.some.inj hreads)
    exact h
  | pingListener =>
    obtain ⟨rfl, rfl⟩ := Prod.mk.inj (Option.some.inj hreads)
    exact h.2
  | pruneDeadRelays | subscriptions => cases hreads

/-- A pass that finds no fault with a relay neither closes nor removes it. -/
theorem Serves.pass (h : s.Serves relay)
    (hidem : ∀ url, normalizeUrl (normalizeUrl url) = normalizeUrl url)
    (hnormal : normalizeUrl relay.url = relay.url)
    (hspares : p.Spares normalizeUrl relay) : (s.pass normalizeUrl p).Serves relay := by
  obtain ⟨⟨m, hm, hrelay⟩, hopen⟩ := h
  rw [Serves, Holds]
  cases pass_effect hidem hm p with
  | subscriptions _ _ hmanager hclosed =>
    rw [hmanager, hclosed]
    exact ⟨⟨_, rfl, hrelay⟩, hopen⟩
  | dropped relays hfaults hmanager hclosed =>
    have hkept : relay ∉ relays := fun hmem => hspares.not_faults (hfaults relay hmem).2
    rw [hmanager, hclosed, List.mem_append, not_or]
    exact ⟨⟨_, rfl, List.mem_filter.2 ⟨hrelay, decide_eq_true hkept⟩⟩, hopen, hkept⟩
  | updated relays u _ hfaults hreads hdesired hrepairs hbefore _ hmanager hclosed =>
    -- it is neither dropped before the update nor removed by it
    have hkept : relay ∉ relays := fun hmem => hspares.not_faults (hfaults relay hmem).2
    have hheld : relay ∈ u.before := by
      rw [hbefore]
      exact List.mem_filter.2 ⟨hrelay, decide_eq_true hkept⟩
    have hwanted : Desired normalizeUrl u.desired relay.url := by
      rw [← hnormal]
      exact (hdesired _).2 (hspares.desired hreads)
    rw [hmanager, hclosed, List.mem_append, List.mem_append, not_or, not_or]
    refine ⟨⟨_, rfl, (hrepairs.holds relay).2 ⟨hwanted, .inl hheld⟩⟩, ⟨hopen, hkept⟩, ?_⟩
    exact fun hremoved => ((hrepairs.closes relay).1 hremoved).2 hwanted

/-! ## Any sequence of passes -/

theorem passInv_run (hidem : ∀ url, normalizeUrl (normalizeUrl url) = normalizeUrl url)
    (hbuilt : m₀.Built normalizeUrl) (server : ClinkServer) {done : List Pass}
    (hdone : done ⊆ passes) :
    PassInv normalizeUrl m₀ passes (run normalizeUrl (start server (some m₀)) done) :=
  List.foldlRecOn done _ (passInv_start hbuilt server) fun _ hs _ hp => hs.pass hidem (hdone hp)

theorem manager_run (hidem : ∀ url, normalizeUrl (normalizeUrl url) = normalizeUrl url)
    (server : ClinkServer) (passes : List Pass) :
    ∃ m, (run normalizeUrl (start server (some m₀)) passes).manager = some m := by
  refine List.foldlRecOn (motive := fun s : Watchdog => ∃ m, s.manager = some m) passes _
    ⟨m₀, rfl⟩ ?_
  rintro s ⟨m, hm⟩ p -
  exact (pass_effect hidem hm p).manager

/-- Over any sequence of passes, whatever the connections, the attempts to connect, the echoes and
the relays to listen on are: a relay that the manager holds at some point, and that no later pass
finds fault with, stays held and is not closed; each pass closes relays that it finds at fault and
leaves the manager with the others, or with what an update to the relays to listen on makes of them,
whose removed relays are closed; every update repairs; only updates add relays; and no URL is held
twice that was not from the start. -/
theorem watchdog_repairs (hidem : ∀ url, normalizeUrl (normalizeUrl url) = normalizeUrl url)
    (hbuilt : m₀.Built normalizeUrl) (server : ClinkServer) (passes : List Pass) :
    (∀ done rest relay, passes = done ++ rest →
      (run normalizeUrl (start server (some m₀)) done).Holds relay →
        (∀ p ∈ rest, p.Spares normalizeUrl relay) →
          (run normalizeUrl (start server (some m₀)) passes).Serves relay) ∧
    (∀ done p rest, passes = done ++ p :: rest →
      ∃ m, (run normalizeUrl (start server (some m₀)) done).manager = some m ∧
        PassEffect normalizeUrl p (run normalizeUrl (start server (some m₀)) done) m
          (run normalizeUrl (start server (some m₀)) (done ++ [p]))) ∧
    (∀ u ∈ (run normalizeUrl (start server (some m₀)) passes).updates,
      u.Repairs normalizeUrl ∧ ∃ p ∈ passes, ∃ listenRelayUrls,
        p.reads = some (listenRelayUrls, u.outcomes) ∧
          ∀ url, Desired normalizeUrl u.desired url ↔ Desired normalizeUrl listenRelayUrls url) ∧
    (∀ relay, (run normalizeUrl (start server (some m₀)) passes).Holds relay →
      relay ∈ m₀.relays ∨
        ∃ u ∈ (run normalizeUrl (start server (some m₀)) passes).updates, relay ∈ u.added) ∧
    ((m₀.relays.map Relay.url).Nodup →
      ∀ m, (run normalizeUrl (start server (some m₀)) passes).manager = some m →
        (m.relays.map Relay.url).Nodup) := by
  have hinv := passInv_run hidem hbuilt server (List.Subset.refl passes)
  refine ⟨?_, ?_, fun u hu => ⟨hinv.repairs u hu, hinv.reads u hu⟩, hinv.origin, hinv.nodup⟩
  · rintro done rest relay rfl hheld hspares
    -- what is held after the first passes was not closed by them
    have hmid := passInv_run hidem hbuilt server (List.subset_append_left done rest)
    obtain ⟨m, hm, hrelay⟩ := hheld
    have hnormal := (hmid.built m hm).normalizeUrl_url hidem hrelay
    have hserves : (run normalizeUrl (start server (some m₀)) done).Serves relay :=
      ⟨⟨m, hm, hrelay⟩, fun hclosed => (hmid.closed m hm relay hclosed).2 hrelay⟩
    rw [run, List.foldl_append]
    exact List.foldlRecOn (motive := fun s : Watchdog => s.Serves relay) rest _ hserves
      fun s hs p hp => hs.pass hidem hnormal (hspares p hp)
  -- each pass acts on the manager that the passes before it leave
  · rintro done p rest -
    obtain ⟨m, hm⟩ : ∃ m, (run normalizeUrl (start server (some m₀)) done).manager = some m :=
      manager_run hidem server done
    refine ⟨m, hm, ?_⟩
    have hlast : run normalizeUrl (start server (some m₀)) (done ++ [p]) =
        (run normalizeUrl (start server (some m₀)) done).pass normalizeUrl p := by
      rw [run, List.foldl_append]
      rfl
    rw [hlast]
    exact pass_effect hidem hm p

/-! ## The manager of a session -/

/-- The manager sits on these URLs. -/
def Manager.SitsOn (m : Manager) (urls : List String) : Prop :=
  ∀ url, url ∈ m.relays.map Relay.url ↔ url ∈ urls

/-- While all relays connect, `RelaySession.ensureListenerRelays` says what `ensure_listener_relays`
does to the URLs of a connected manager. -/
theorem ensureListenerRelays_sitsOn
    (hidem : ∀ url, normalizeUrl (normalizeUrl url) = normalizeUrl url) {outcomes : Outcomes}
    {session : RelaySession} {listener : ListenerManager} (hm : s.manager = some m)
    (hconnected : m.connected = true) (hall : ∀ relay, outcomes.connected relay = true)
    (hlistener : session.manager = some listener) (hsits : m.SitsOn listener.relays)
    (tables : CharTables) (now : Time) :
    ∃ m' listener',
      (s.ensureListenerRelays normalizeUrl (session.server.listenRelayUrls tables now)
        outcomes).manager = some m' ∧
      (session.ensureListenerRelays tables normalizeUrl now).manager = some listener' ∧
      m'.SitsOn listener'.relays := by
  set urls := session.server.listenRelayUrls tables now with hurls
  have hmissing : desiredRelays normalizeUrl urls ⊆ m.relays.map Relay.url ↔
      urls.map normalizeUrl ⊆ listener.relays := by
    constructor
    · exact fun h url hurl => (hsits url).1 (h (List.mem_dedup.2 hurl))
    · exact fun h url hurl => (hsits url).2 (h (List.mem_dedup.1 hurl))
  have hsession : (session.ensureListenerRelays tables normalizeUrl now).manager =
      some { session.managerFor tables normalizeUrl now with
        relays := if urls.map normalizeUrl ⊆ listener.relays then listener.relays
          else urls.map normalizeUrl } := by
    unfold RelaySession.ensureListenerRelays
    rw [hlistener]
    rfl
  unfold Watchdog.ensureListenerRelays
  rw [hm, hsession]
  simp only [hconnected, Bool.not_true, Bool.false_eq_true, if_false, hmissing]
  split
  next => exact ⟨m, _, hm, rfl, hsits⟩
  next =>
    rw [Manager.updateRelays, if_pos hconnected]
    refine ⟨_, _, rfl, rfl, fun url => ?_⟩
    have hafter := (repairs_update hidem m outcomes
      ((desiredRelays normalizeUrl urls).insertionSort (· ≤ ·))).mem_url_after hall url
    refine (hafter.trans (desired_sorted hidem urls url)).trans ?_
    rw [List.mem_map]
    rfl

/-- `normalize_url` on the URLs of `sampleManager`. -/
def sampleNormalizeUrl (url : String) : String :=
  if url = "wss://A.example/" then "wss://a.example" else url

/-- A manager that sits on two relays and serves one subscription. -/
def sampleManager : Manager :=
  { Manager.build sampleNormalizeUrl ["wss://A.example/", "wss://b.example"] with
    connected := true
    subscriptions := (∅ : Dict String Subscription).set "requests" ⟨[], false⟩ }

/-- The websocket of the second relay is closed; it connects again, and both echo. -/
def samplePasses : List Pass :=
  let urls := ["wss://A.example/", "wss://b.example"]
  let outcomes : Outcomes := ⟨fun _ => true, fun _ => true⟩
  [.pruneDeadRelays fun relay => ⟨true, some (relay.id == 1), some false⟩,
    .ensureListenerRelays urls outcomes,
    .pingListener (fun relay => relay.url) (fun _ => true) 0 urls outcomes]

/-- The first relay goes on serving while the second is replaced. -/
theorem watchdog_repairs_sample :
    (run sampleNormalizeUrl (start (.sample 100 60) (some sampleManager)) samplePasses).Serves
        ⟨0, "wss://a.example"⟩ ∧
      (run sampleNormalizeUrl (start (.sample 100 60) (some sampleManager))
        samplePasses).manager.map Manager.relays =
          some [⟨0, "wss://a.example"⟩, ⟨2, "wss://b.example"⟩] := by
  have hidem : ∀ url, sampleNormalizeUrl (sampleNormalizeUrl url) = sampleNormalizeUrl url := by
    intro url
    unfold sampleNormalizeUrl
    split
    next => decide
    next => rfl
  have hbuilt : sampleManager.Built sampleNormalizeUrl := built_build _
  refine ⟨(watchdog_repairs hidem hbuilt (.sample 100 60) samplePasses).1 [] samplePasses _ rfl
    ⟨sampleManager, rfl, by decide +kernel⟩ ?_, by decide +kernel⟩
  intro p hp
  have hdesired : Desired sampleNormalizeUrl ["wss://A.example/", "wss://b.example"]
      (sampleNormalizeUrl "wss://a.example") := ⟨"wss://A.example/", by decide, by decide⟩
  simp only [samplePasses, List.mem_cons, List.not_mem_nil, or_false] at hp
  rcases hp with rfl | rfl | rfl
  · rfl
  · exact hdesired
  · exact ⟨rfl, hdesired⟩

end Watchdog

end ElectrumClink
