import ElectrumClink.Listener.Repair

/-!
# Faults that the watchdog finds

A list of passes closes a relay that one of them finds fault with (`mem_closed_run`), and tries a
URL that one of them attaches (`tried_run`), whatever the passes before and after do.
-/

namespace ElectrumClink

namespace Watchdog

variable {normalizeUrl : String → String} {s : Watchdog} {relay : Relay}

/-- A pass finds fault with a relay: its connection is seen to be broken, or its ping, unlike that
of any other relay, did not come back. -/
def Pass.Blames (relay : Relay) : Pass → Prop
  | .pruneDeadRelays connection => relayConnectionDead (connection relay) = true
  | .pingListener ping echoed _ _ _ =>
    echoed (ping relay) = false ∧ ∀ other, ping other = ping relay → other = relay
  | .ensureListenerRelays _ _ | .subscriptions _ => False

/-- What passes are made of keeps a property, so they do. -/
theorem pass_induction {I : Watchdog → Prop} (h : I s)
    (hserver : ∀ (v : Watchdog) server, I v → I { v with server := server })
    (hdrop : ∀ (v : Watchdog) relays, I v → I (v.dropRelays relays))
    (hupdate : ∀ (v : Watchdog) (m : Manager) outcomes urls, v.manager = some m → I v →
      I (v.updated m (m.update normalizeUrl outcomes urls)))
    (hsubscriptions : ∀ (v : Watchdog) subscriptions, I v →
      I { v with manager := v.manager.map fun m => { m with subscriptions := subscriptions } })
    (p : Pass) : I (s.pass normalizeUrl p) := by
  have hensure : ∀ (v : Watchdog) listenRelayUrls outcomes, I v →
      I (v.ensureListenerRelays normalizeUrl listenRelayUrls outcomes) := by
    intro v listenRelayUrls outcomes hv
    rcases ensureListenerRelays_cases v listenRelayUrls outcomes with heq | ⟨m, hm, heq⟩
    · rw [heq]
      exact hv
    · rw [heq]
      exact hupdate v m outcomes _ hm hv
  cases p with
  | pruneDeadRelays connection =>
    rw [Watchdog.pass]
    rcases pruneDeadRelays_cases s connection with heq | ⟨relays, -, heq⟩
    · rw [heq]
      exact h
    · rw [heq]
      exact hdrop s relays h
  | ensureListenerRelays listenRelayUrls outcomes => exact hensure s _ _ h
  | pingListener ping echoed now listenRelayUrls outcomes =>
    rw [Watchdog.pass]
    obtain ⟨server, heq | ⟨relays, -, heq⟩⟩ :=
      pingListener_cases s normalizeUrl ping echoed now listenRelayUrls outcomes
    · rw [heq]
      exact hserver s server h
    · rw [heq]
      exact hensure _ _ _ (hdrop _ relays (hserver s server h))
  | subscriptions subscriptions => exact hsubscriptions s subscriptions h

/-- The manager is connected, if there is one. -/
def Connected (s : Watchdog) : Prop := ∀ m, s.manager = some m → m.connected = true

theorem Connected.pass (h : s.Connected) (p : Pass) : (s.pass normalizeUrl p).Connected := by
  refine pass_induction h (fun _ _ hv => hv) ?_ ?_ ?_ p
  · intro v relays hv
    unfold Watchdog.dropRelays
    split
    next => exact hv
    next m hm =>
      rintro _ ⟨⟩
      exact hv m hm
  · rintro v m outcomes urls hm hv _ ⟨⟩
    exact hv m hm
  · intro v subscriptions hv m' hm'
    obtain ⟨m, hm, rfl⟩ := Option.map_eq_some_iff.1 hm'
    exact hv m hm

/-- The manager holds a relay, or it was closed. -/
def Known (s : Watchdog) (relay : Relay) : Prop := s.Holds relay ∨ relay ∈ s.closed

/-- No pass takes a relay from the manager without closing it. -/
theorem Known.pass (h : s.Known relay) (p : Pass) : (s.pass normalizeUrl p).Known relay := by
  refine pass_induction (I := fun v => v.Known relay) h (fun _ _ hv => hv) ?_ ?_ ?_ p
  · intro v relays hv
    unfold Watchdog.dropRelays
    split
    next => exact hv
    next m hm =>
      rcases hv with ⟨m', hm', hrelay⟩ | hclosed
      · obtain rfl := Option.some.inj (hm.symm.trans hm')
        by_cases hdropped : relay ∈ relays
        · exact .inr (List.mem_append_right _ hdropped)
        · exact .inl ⟨_, rfl, List.mem_filter.2 ⟨hrelay, decide_eq_true hdropped⟩⟩
      · exact .inr (List.mem_append_left _ hclosed)
  · intro v m outcomes urls hm hv
    rcases hv with ⟨m', hm', hrelay⟩ | hclosed
    · obtain rfl := Option.some.inj (hm.symm.trans hm')
      by_cases hremoved : relay ∈ (m.update normalizeUrl outcomes urls).removed
      · exact .inr (List.mem_append_right _ hremoved)
      · have hafter : relay ∈ (m.update normalizeUrl outcomes urls).after :=
          List.mem_filter.2 ⟨List.mem_append_left _ hrelay, decide_eq_true hremoved⟩
        exact .inl ⟨_, rfl, hafter⟩
    · exact .inr (List.mem_append_left _ hclosed)
  · intro v subscriptions hv
    rcases hv with ⟨m, hm, hrelay⟩ | hclosed
    · exact .inl ⟨{ m with subscriptions := subscriptions }, by rw [hm]; rfl, hrelay⟩
    · exact .inr hclosed

theorem closed_subset_dropRelays (s : Watchdog) (relays : List Relay) :
    s.closed ⊆ (s.dropRelays relays).closed := by
  unfold Watchdog.dropRelays
  split
  next => exact List.Subset.refl _
  next => exact List.subset_append_left _ _

/-- What was closed stays closed. -/
theorem closed_subset_pass (s : Watchdog) (p : Pass) :
    s.closed ⊆ (s.pass normalizeUrl p).closed := by
  refine pass_induction (I := fun v => s.closed ⊆ v.closed) (List.Subset.refl _)
    (fun _ _ hv => hv) ?_ ?_ (fun _ _ hv => hv) p
  · exact fun v relays hv => List.Subset.trans hv (v.closed_subset_dropRelays relays)
  · exact fun v m outcomes urls _ hv => List.Subset.trans hv (List.subset_append_left _ _)

theorem mem_closed_dropRelays (hheld : s.Holds relay) {relays : List Relay}
    (h : relay ∈ relays) : relay ∈ (s.dropRelays relays).closed := by
  obtain ⟨m, hm, -⟩ := hheld
  rw [Watchdog.dropRelays, hm]
  exact List.mem_append_right _ h

/-- The ping of a relay is found in the table, where no other relay has the same one. -/
theorem mem_pinged_of_mem {ping : Relay → EventId} {relays : List Relay} (hrelay : relay ∈ relays)
    (hown : ∀ other, ping other = ping relay → other = relay) :
    (ping relay, relay) ∈ (relays.foldl (fun pinged relay => pinged.set (ping relay) relay)
      (∅ : Dict EventId Relay)).entries := by
  rw [← Dict.get?_eq_some_iff]
  induction relays using List.reverseRecOn with
  | nil => cases hrelay
  | append_singleton relays last ih =>
    rw [List.foldl_append]
    show ((relays.foldl (fun pinged relay => pinged.set (ping relay) relay)
      (∅ : Dict EventId Relay)).set (ping last) last).get? (ping relay) = some relay
    by_cases hlast : ping relay = ping last
    · obtain rfl := hown last hlast.symm
      exact Dict.get?_set_self _ _ _
    · rw [Dict.get?_set_of_ne _ hlast]
      refine ih ((List.mem_append.1 hrelay).resolve_right fun hmem => hlast ?_)
      rw [List.mem_singleton.1 hmem]

/-- A pass that finds fault with a relay closes it. -/
theorem mem_closed_pass (hconnected : s.Connected) (hheld : s.Holds relay) {p : Pass}
    (hblames : p.Blames relay) : relay ∈ (s.pass normalizeUrl p).closed := by
  obtain ⟨m, hm, hrelay⟩ := id hheld
  have hon : (!m.connected) = false := by rw [hconnected m hm]; rfl
  cases p with
  | pruneDeadRelays connection =>
    have hdead : relay ∈ m.relays.filter fun relay => relayConnectionDead (connection relay) :=
      List.mem_filter.2 ⟨hrelay, hblames⟩
    rw [Watchdog.pass, pruneDeadRelays, hm]
    simp only [hon, Bool.false_eq_true, if_false,
      List.isEmpty_eq_false_iff.2 (List.ne_nil_of_mem hdead)]
    exact mem_closed_dropRelays hheld hdead
  | pingListener ping echoed now listenRelayUrls outcomes =>
    obtain ⟨hsilent, hown⟩ := hblames
    have hfailed : relay ∈ (((m.relays.foldl (fun pinged relay => pinged.set (ping relay) relay)
        (∅ : Dict EventId Relay)).entries.filter fun e => !echoed e.1).map Prod.snd) := by
      refine List.mem_map.2 ⟨(ping relay, relay), List.mem_filter.2 ⟨?_, ?_⟩, rfl⟩
      · exact mem_pinged_of_mem hrelay hown
      · rw [hsilent]
        rfl
    rw [Watchdog.pass, Watchdog.pingListener, hm]
    simp only [hon, List.isEmpty_eq_false_iff.2 (List.ne_nil_of_mem hrelay), Bool.or_self,
      Bool.false_eq_true, if_false, List.isEmpty_eq_false_iff.2 (List.ne_nil_of_mem hfailed)]
    refine closed_subset_pass _ (.ensureListenerRelays listenRelayUrls outcomes)
      (mem_closed_dropRelays ?_ hfailed)
    exact ⟨m, rfl, hrelay⟩
  | ensureListenerRelays _ _ => exact hblames.elim
  | subscriptions _ => exact hblames.elim

theorem manager_dropRelays_cases (s : Watchdog) (relays : List Relay) :
    (s.dropRelays relays).updates = s.updates ∧
      ∀ relay, (s.dropRelays relays).Holds relay → s.Holds relay := by
  unfold Watchdog.dropRelays
  split
  next => exact ⟨rfl, fun _ hheld => hheld⟩
  next m hm =>
    refine ⟨rfl, ?_⟩
    rintro relay ⟨_, ⟨⟩, hrelay⟩
    exact ⟨m, hm, (List.mem_filter.1 hrelay).1⟩

theorem updates_prefix_pass (s : Watchdog) (p : Pass) :
    s.updates <+: (s.pass normalizeUrl p).updates := by
  refine pass_induction (I := fun v => s.updates <+: v.updates) (List.prefix_refl _)
    (fun _ _ hv => hv) ?_ ?_ (fun _ _ hv => hv) p
  · intro v relays hv
    rw [(v.manager_dropRelays_cases relays).1]
    exact hv
  · exact fun v m outcomes urls _ hv => hv.trans (List.prefix_append _ _)

/-- The manager holds a relay for a URL. -/
def SitsOn (s : Watchdog) (url : String) : Prop := ∃ relay, s.Holds relay ∧ relay.url = url

/-- An update after the first `n` tried a URL. -/
def TriedSince (n : ℕ) (s : Watchdog) (url : String) : Prop :=
  ∃ u ∈ s.updates.drop n, url ∈ u.new.map Relay.url

theorem TriedSince.mono {n : ℕ} {url : String} {t : Watchdog} (h : s.TriedSince n url)
    (hearlier : s.updates <+: t.updates) : t.TriedSince n url := by
  obtain ⟨u, hu, hurl⟩ := h
  exact ⟨u, (hearlier.drop n).subset hu, hurl⟩

/-- While the manager did not sit on a URL at first, it does only after an update tried it. -/
theorem tried_of_sitsOn_pass {n : ℕ} {url : String} (hn : n ≤ s.updates.length)
    (h : s.SitsOn url → s.TriedSince n url) (p : Pass)
    (hsits : (s.pass normalizeUrl p).SitsOn url) : (s.pass normalizeUrl p).TriedSince n url := by
  refine (pass_induction (I := fun v => n ≤ v.updates.length ∧
    (v.SitsOn url → v.TriedSince n url)) ⟨hn, h⟩ (fun _ _ hv => hv) ?_ ?_ ?_ p).2 hsits
  · rintro v relays ⟨hlen, hv⟩
    obtain ⟨hupdates, hheld⟩ := v.manager_dropRelays_cases relays
    refine ⟨by rw [hupdates]; exact hlen, ?_⟩
    rintro ⟨relay, hrelay, rfl⟩
    obtain ⟨u, hu, hurl⟩ := hv ⟨relay, hheld relay hrelay, rfl⟩
    exact ⟨u, by rw [hupdates]; exact hu, hurl⟩
  · rintro v m outcomes urls hm ⟨hlen, hv⟩
    set u := m.update normalizeUrl outcomes urls
    have hupdates : (v.updated m u).updates = v.updates ++ [u] := rfl
    refine ⟨by rw [hupdates, List.length_append]; exact Nat.le_add_right_of_le hlen, ?_⟩
    rintro ⟨relay, ⟨_, ⟨⟩, hrelay⟩, rfl⟩
    rcases List.mem_append.1 (List.mem_filter.1 hrelay).1 with hbefore | hadded
    · exact (hv ⟨relay, ⟨m, hm, hbefore⟩, rfl⟩).mono (List.prefix_append _ _)
    · refine ⟨u, ?_, List.mem_map_of_mem (List.mem_filter.1 hadded).1⟩
      rw [hupdates, List.drop_append_of_le_length hlen]
      exact List.mem_append_right _ (List.mem_singleton_self u)
  · rintro v subscriptions ⟨hlen, hv⟩
    refine ⟨hlen, ?_⟩
    rintro ⟨relay, ⟨m', hm', hrelay⟩, rfl⟩
    obtain ⟨m, hm, rfl⟩ := Option.map_eq_some_iff.1 hm'
    exact hv ⟨relay, ⟨m, hm, hrelay⟩, rfl⟩

/-- `ensure_listener_relays` tries a URL to listen on that the manager does not sit on. -/
theorem tried_ensureListenerRelays
    (hidem : ∀ url, normalizeUrl (normalizeUrl url) = normalizeUrl url)
    (hconnected : s.Connected) (hmanager : s.manager.isSome = true) {listenRelayUrls : List String}
    {url : String} (hdesired : Desired normalizeUrl listenRelayUrls url) (hnot : ¬ s.SitsOn url)
    (outcomes : Outcomes) :
    (s.ensureListenerRelays normalizeUrl listenRelayUrls outcomes).TriedSince s.updates.length
      url := by
  obtain ⟨m, hm⟩ := Option.isSome_iff_exists.1 hmanager
  have hurl : url ∉ m.relays.map Relay.url := by
    intro hmem
    obtain ⟨relay, hrelay, heq⟩ := List.mem_map.1 hmem
    exact hnot ⟨relay, ⟨m, hm, hrelay⟩, heq⟩
  have hmissing : ¬ desiredRelays normalizeUrl listenRelayUrls ⊆ m.relays.map Relay.url :=
    fun hsubset => hurl (hsubset (mem_dedup_map.2 hdesired))
  have hon : (!m.connected) = false := by rw [hconnected m hm]; rfl
  set u := m.update normalizeUrl outcomes
    ((desiredRelays normalizeUrl listenRelayUrls).insertionSort (· ≤ ·))
  have heq : s.ensureListenerRelays normalizeUrl listenRelayUrls outcomes = s.updated m u := by
    rw [Watchdog.ensureListenerRelays, hm]
    simp only [hon, Bool.false_eq_true, if_false, hmissing, Manager.updateRelays,
      if_pos (hconnected m hm)]
    rfl
  rw [heq]
  refine ⟨u, ?_, ?_⟩
  · rw [show (s.updated m u).updates = s.updates ++ [u] from rfl, List.drop_left]
    exact List.mem_singleton_self u
  · exact (mem_url_new_update hidem m outcomes _ url).2
      ⟨(desired_sorted hidem listenRelayUrls url).2 hdesired, hurl⟩

/-! ## What a list of passes does -/

variable {passes : List Pass}

theorem run_cons (p : Pass) : s.run normalizeUrl (p :: passes) =
    (s.pass normalizeUrl p).run normalizeUrl passes := rfl

theorem run_append (s : Watchdog) (passes rest : List Pass) : s.run normalizeUrl (passes ++ rest) =
    (s.run normalizeUrl passes).run normalizeUrl rest := List.foldl_append

theorem Connected.run (h : s.Connected) (passes : List Pass) :
    (s.run normalizeUrl passes).Connected :=
  List.foldlRecOn passes _ h fun _ hv p _ => hv.pass p

theorem Known.run (h : s.Known relay) (passes : List Pass) :
    (s.run normalizeUrl passes).Known relay :=
  List.foldlRecOn (motive := fun v : Watchdog => v.Known relay) passes _ h fun _ hv p _ => hv.pass p

theorem closed_subset_run (s : Watchdog) (passes : List Pass) :
    s.closed ⊆ (s.run normalizeUrl passes).closed :=
  List.foldlRecOn (motive := fun v : Watchdog => s.closed ⊆ v.closed) passes _
    (List.Subset.refl _) fun _ hv p _ => List.Subset.trans hv (closed_subset_pass _ p)

theorem updates_prefix_run (s : Watchdog) (passes : List Pass) :
    s.updates <+: (s.run normalizeUrl passes).updates :=
  List.foldlRecOn (motive := fun v : Watchdog => s.updates <+: v.updates) passes _
    (List.prefix_refl _) fun _ hv p _ => hv.trans (updates_prefix_pass _ p)

/-- A relay that the manager holds is closed by a list of passes one of which finds fault with
it. -/
theorem mem_closed_run (hconnected : s.Connected) (hheld : s.Holds relay) {p : Pass}
    (hp : p ∈ passes) (hblames : p.Blames relay) :
    relay ∈ (s.run normalizeUrl passes).closed := by
  obtain ⟨before, rest, rfl⟩ := List.append_of_mem hp
  rw [run_append, run_cons]
  refine closed_subset_run _ rest ?_
  have hknown : s.Known relay := .inl hheld
  rcases hknown.run before with hstill | hclosed
  · exact mem_closed_pass (hconnected.run before) hstill hblames
  · exact closed_subset_pass _ p hclosed

/-- The server has a manager. -/
theorem isSome_manager_run (h : s.manager.isSome = true) (passes : List Pass) :
    (s.run normalizeUrl passes).manager.isSome = true := by
  refine List.foldlRecOn (motive := fun v : Watchdog => v.manager.isSome = true) passes _ h ?_
  intro v hv p _
  refine pass_induction (I := fun v => v.manager.isSome = true) hv (fun _ _ hv => hv) ?_
    (fun _ _ _ _ _ _ => rfl) ?_ p
  · intro v relays hv
    unfold Watchdog.dropRelays
    split
    next => exact hv
    next => rfl
  · intro v subscriptions hv
    rw [Option.isSome_map]
    exact hv

/-- A URL that the manager does not sit on at first is tried by a list of passes one of which
attaches it. -/
theorem tried_run (hidem : ∀ url, normalizeUrl (normalizeUrl url) = normalizeUrl url)
    (hconnected : s.Connected) (hmanager : s.manager.isSome = true) {url : String}
    (hnot : ¬ s.SitsOn url) {listenRelayUrls : List String} {outcomes : Outcomes}
    (hp : .ensureListenerRelays listenRelayUrls outcomes ∈ passes)
    (hdesired : Desired normalizeUrl listenRelayUrls url) :
    (s.run normalizeUrl passes).TriedSince s.updates.length url := by
  obtain ⟨before, rest, rfl⟩ := List.append_of_mem hp
  have hearlier : s.updates <+: (s.run normalizeUrl before).updates := updates_prefix_run s before
  -- where the manager sits on the URL by then, it was tried before
  have hbefore : (s.run normalizeUrl before).SitsOn url →
      (s.run normalizeUrl before).TriedSince s.updates.length url := by
    refine (List.foldlRecOn (motive := fun v : Watchdog => s.updates <+: v.updates ∧
      (v.SitsOn url → v.TriedSince s.updates.length url)) before _
      ⟨List.prefix_refl _, fun hsits => absurd hsits hnot⟩ ?_).2
    rintro v ⟨hv, hsits⟩ p -
    exact ⟨hv.trans (updates_prefix_pass v p), tried_of_sitsOn_pass hv.length_le hsits p⟩
  rw [run_append, run_cons]
  refine TriedSince.mono ?_ (updates_prefix_run _ rest)
  by_cases hsits : (s.run normalizeUrl before).SitsOn url
  · exact (hbefore hsits).mono (updates_prefix_pass _ _)
  · obtain ⟨u, hu, hurl⟩ := tried_ensureListenerRelays hidem (hconnected.run before)
      (isSome_manager_run hmanager before) hdesired hsits outcomes
    exact ⟨u, List.drop_subset_drop_left _ hearlier.length_le hu, hurl⟩

theorem built_sampleManager : sampleManager.Built sampleNormalizeUrl := built_build _

theorem sampleNormalizeUrl_idem (url : String) :
    sampleNormalizeUrl (sampleNormalizeUrl url) = sampleNormalizeUrl url := by
  unfold sampleNormalizeUrl
  split
  next => decide
  next => rfl

end Watchdog

end ElectrumClink
