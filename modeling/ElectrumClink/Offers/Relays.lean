import ElectrumClink.Data.Distinct
import ElectrumClink.Offers.Store

/-!
# Relays to listen on

The relays that offers advertise and the relays to listen on are put together by two loops. Only
one of them asks whether the default relay is needed, and only the other one is empty without
offers.

`listened_relays_are_advertised` says that they agree as soon as there is an offer, and that the
test before a restart of the listener, whether the relay of the new offer is listened on, is whether
the relays change.
-/

namespace ElectrumClink

open Distinct

variable {tables : CharTables} {offers : List Offer} {defaultRelay url : String}

/-- `advertised_relays`: the distinct relays that the codes of the offers name. -/
def advertisedRelays (tables : CharTables) (offers : List Offer) (defaultRelay : String) :
    List String :=
  offers.foldl
    (fun out offer =>
      let url := tables.stripText (advertisedRelay tables (some offer) defaultRelay)
      if url ≠ "" ∧ url ∉ out then out ++ [url] else out) []

/-- An offer needs the default relay, or there is no offer. -/
def NeedsDefault (tables : CharTables) (offers : List Offer) : Prop :=
  offers = [] ∨ ∃ o ∈ offers, SavedOffers.lacksRelay tables o = true

/-- Distinct URLs, none blank or with whitespace around it. -/
structure CleanRelays (tables : CharTables) (urls : List String) : Prop where
  nodup : urls.Nodup
  stripped : ∀ url ∈ urls, tables.stripText url = url
  ne_empty : ∀ url ∈ urls, url ≠ ""

/-! ## The relays to listen on -/

/-- The loop of `listen_relays` collects what is left of the relays once they are stripped. -/
theorem listenRelays_eq (tables : CharTables) (offers : List Offer) (defaultRelay : String) :
    listenRelays tables offers defaultRelay =
      collect (· ≠ "") tables.stripText
        ((if offers.isEmpty || offers.any (fun o => tables.stripText o.relay == "")
          then [defaultRelay] else []) ++ offers.map Offer.relay) := rfl

/-- The relays to listen on are those of the offers, and the default while it is needed. -/
theorem mem_listenRelays :
    url ∈ listenRelays tables offers defaultRelay ↔
      url ≠ "" ∧ (NeedsDefault tables offers ∧ url = tables.stripText defaultRelay ∨
        ∃ o ∈ offers, url = tables.stripText o.relay) := by
  have hneeds : (offers.isEmpty || offers.any fun o => tables.stripText o.relay == "") = true ↔
      NeedsDefault tables offers := by
    rw [Bool.or_eq_true, List.isEmpty_iff, List.any_eq_true]
    rfl
  rw [listenRelays_eq, mem_collect]
  simp only [List.mem_append, List.mem_map]
  refine and_congr_right fun _ => ?_
  by_cases h : NeedsDefault tables offers
  · rw [if_pos (hneeds.2 h)]
    constructor
    · rintro ⟨u, hu | ⟨o, ho, rfl⟩, rfl⟩
      · exact .inl ⟨h, congrArg tables.stripText (List.mem_singleton.1 hu)⟩
      · exact .inr ⟨o, ho, rfl⟩
    · rintro (⟨-, rfl⟩ | ⟨o, ho, rfl⟩)
      · exact ⟨defaultRelay, .inl (List.mem_singleton.2 rfl), rfl⟩
      · exact ⟨o.relay, .inr ⟨o, ho, rfl⟩, rfl⟩
  · rw [if_neg fun hneed => h (hneeds.1 hneed)]
    constructor
    · rintro ⟨u, hu | ⟨o, ho, rfl⟩, rfl⟩
      · cases hu
      · exact .inr ⟨o, ho, rfl⟩
    · rintro (⟨hneed, -⟩ | ⟨o, ho, rfl⟩)
      · exact absurd hneed h
      · exact ⟨o.relay, .inr ⟨o, ho, rfl⟩, rfl⟩

/-- A relay to listen on is stripped. -/
theorem stripText_of_mem_listenRelays (h : url ∈ listenRelays tables offers defaultRelay) :
    tables.stripText url = url := by
  rcases (mem_listenRelays.1 h).2 with ⟨-, rfl⟩ | ⟨o, -, rfl⟩ <;> exact tables.stripText_stripText _

theorem cleanRelays_listenRelays (tables : CharTables) (offers : List Offer)
    (defaultRelay : String) : CleanRelays tables (listenRelays tables offers defaultRelay) where
  nodup := by
    rw [listenRelays_eq]
    exact nodup_collect _
  stripped _ h := stripText_of_mem_listenRelays h
  ne_empty _ h := (mem_listenRelays.1 h).1

/-! ## The advertised relays -/

theorem advertisedRelays_eq (tables : CharTables) (offers : List Offer) (defaultRelay : String) :
    advertisedRelays tables offers defaultRelay =
      collect (· ≠ "")
        (fun o => tables.stripText (advertisedRelay tables (some o) defaultRelay)) offers := rfl

/-- The advertised relays are what is left of those of the offers once they are stripped. -/
theorem mem_advertisedRelays :
    url ∈ advertisedRelays tables offers defaultRelay ↔
      url ≠ "" ∧
        ∃ o ∈ offers, url = tables.stripText (advertisedRelay tables (some o) defaultRelay) := by
  rw [advertisedRelays_eq, mem_collect]

theorem cleanRelays_advertisedRelays (tables : CharTables) (offers : List Offer)
    (defaultRelay : String) :
    CleanRelays tables (advertisedRelays tables offers defaultRelay) where
  nodup := by
    rw [advertisedRelays_eq]
    exact nodup_collect offers
  stripped url h := by
    obtain ⟨-, o, -, rfl⟩ := mem_advertisedRelays.1 h
    exact tables.stripText_stripText _
  ne_empty _ h := (mem_advertisedRelays.1 h).1

/-- The stripped relay of an offer: its own one, or the default where it has none. -/
theorem stripText_advertisedRelay (tables : CharTables) (o : Offer) (defaultRelay : String) :
    tables.stripText (advertisedRelay tables (some o) defaultRelay) =
      if SavedOffers.lacksRelay tables o then tables.stripText defaultRelay
      else tables.stripText o.relay := by
  by_cases hlacks : tables.stripText o.relay = ""
  · have hblank : SavedOffers.lacksRelay tables o = true := beq_iff_eq.2 hlacks
    rw [advertisedRelay, if_neg (not_not.2 hlacks), if_pos hblank]
  · have hpinned : ¬ SavedOffers.lacksRelay tables o = true := fun h => hlacks (beq_iff_eq.1 h)
    rw [advertisedRelay, if_pos hlacks, if_neg hpinned, tables.stripText_stripText]

/-! ## Both agree -/

/-- Once there is an offer, what is listened on is what is advertised. -/
theorem mem_listenRelays_iff_mem_advertisedRelays (hne : offers ≠ []) :
    url ∈ listenRelays tables offers defaultRelay ↔
      url ∈ advertisedRelays tables offers defaultRelay := by
  rw [mem_listenRelays, mem_advertisedRelays]
  refine and_congr_right fun hurl => ?_
  constructor
  · rintro (⟨hnone | ⟨o, ho, hlacks⟩, rfl⟩ | ⟨o, ho, rfl⟩)
    · exact absurd hnone hne
    · -- an offer that needs the default is what advertises it
      refine ⟨o, ho, ?_⟩
      rw [stripText_advertisedRelay, if_pos hlacks]
    · refine ⟨o, ho, ?_⟩
      have hpinned : ¬ SavedOffers.lacksRelay tables o = true := fun h => hurl (beq_iff_eq.1 h)
      rw [stripText_advertisedRelay, if_neg hpinned]
  · rintro ⟨o, ho, rfl⟩
    rw [stripText_advertisedRelay]
    split
    next hlacks => exact .inl ⟨.inr ⟨o, ho, hlacks⟩, rfl⟩
    next => exact .inr ⟨o, ho, rfl⟩

/-- A new offer that has a relay of its own adds that relay, and takes the default away where it was
listened on for want of an offer. -/
theorem mem_listenRelays_append {o : Offer} (hrelay : tables.stripText o.relay ≠ "") :
    url ∈ listenRelays tables (offers ++ [o]) defaultRelay ↔
      url = tables.stripText o.relay ∨
        offers ≠ [] ∧ url ∈ listenRelays tables offers defaultRelay := by
  have hpinned : ¬ SavedOffers.lacksRelay tables o = true := fun h => hrelay (beq_iff_eq.1 h)
  -- the new offer does not need the default, but it ends the time without offers
  have hneeds : NeedsDefault tables (offers ++ [o]) ↔
      ∃ o' ∈ offers, SavedOffers.lacksRelay tables o' = true := by
    simp [NeedsDefault, hpinned, or_and_right, exists_or]
  rw [mem_listenRelays, mem_listenRelays, hneeds]
  constructor
  · rintro ⟨hurl, ⟨⟨o', ho', hlacks⟩, rfl⟩ | ⟨o', ho', rfl⟩⟩
    · exact .inr ⟨List.ne_nil_of_mem ho', hurl, .inl ⟨.inr ⟨o', ho', hlacks⟩, rfl⟩⟩
    · rcases List.mem_append.1 ho' with ho' | ho'
      · exact .inr ⟨List.ne_nil_of_mem ho', hurl, .inr ⟨o', ho', rfl⟩⟩
      · obtain rfl := List.mem_singleton.1 ho'
        exact .inl rfl
  · rintro (rfl | ⟨hne, hurl, ⟨hnone | hlacks, rfl⟩ | ⟨o', ho', rfl⟩⟩)
    · exact ⟨hrelay, .inr ⟨o, by simp, rfl⟩⟩
    · exact absurd hnone hne
    · exact ⟨hurl, .inl ⟨hlacks, rfl⟩⟩
    · exact ⟨hurl, .inr ⟨o', List.mem_append_left _ ho', rfl⟩⟩

/-- The relays change with a new offer exactly when its relay was not listened on. -/
theorem toFinset_listenRelays_append_ne_iff {o : Offer} (hrelay : tables.stripText o.relay ≠ "") :
    (listenRelays tables (offers ++ [o]) defaultRelay).toFinset ≠
        (listenRelays tables offers defaultRelay).toFinset ↔
      tables.stripText o.relay ∉ listenRelays tables offers defaultRelay := by
  rw [ne_eq, not_iff_not]
  constructor
  · intro heq
    apply List.mem_toFinset.1
    rw [← heq, List.mem_toFinset]
    exact (mem_listenRelays_append hrelay).2 (.inl rfl)
  · intro hlistened
    ext url
    rw [List.mem_toFinset, List.mem_toFinset, mem_listenRelays_append hrelay]
    constructor
    · rintro (rfl | ⟨-, hurl⟩)
      · exact hlistened
      · exact hurl
    · intro hurl
      by_cases hne : offers = []
      · -- the default is the only relay, and so the one of the offer
        left
        subst hne
        have honly : ∀ u ∈ listenRelays tables [] defaultRelay,
            u = tables.stripText defaultRelay := by
          intro u hu
          rcases (mem_listenRelays.1 hu).2 with ⟨-, rfl⟩ | ⟨o, ho, -⟩
          · rfl
          · cases ho
        rw [honly url hurl, honly _ hlistened]
      · exact .inr ⟨hne, hurl⟩

/-- The relays that are listened on are the advertised ones, for every list of offers and every
default relay; and the test before a restart is whether they change. -/
theorem listened_relays_are_advertised (tables : CharTables) (offers : List Offer)
    (defaultRelay : String) :
    (CleanRelays tables (listenRelays tables offers defaultRelay) ∧
        CleanRelays tables (advertisedRelays tables offers defaultRelay)) ∧
      (offers ≠ [] →
        (listenRelays tables offers defaultRelay).toFinset =
            (advertisedRelays tables offers defaultRelay).toFinset ∧
          ∀ o ∈ offers, tables.stripText (advertisedRelay tables (some o) defaultRelay) ≠ "" →
            tables.stripText (advertisedRelay tables (some o) defaultRelay) ∈
              listenRelays tables offers defaultRelay) ∧
      (listenRelays tables [] defaultRelay =
          (if tables.stripText defaultRelay = "" then [] else [tables.stripText defaultRelay]) ∧
        advertisedRelays tables [] defaultRelay = []) ∧
      ∀ o : Offer, tables.stripText o.relay ≠ "" →
        ((listenRelays tables (offers ++ [o]) defaultRelay).toFinset ≠
            (listenRelays tables offers defaultRelay).toFinset ↔
          tables.stripText o.relay ∉ listenRelays tables offers defaultRelay) := by
  refine ⟨⟨?_, ?_⟩, ?_, ⟨?_, rfl⟩, ?_⟩
  · exact cleanRelays_listenRelays tables offers defaultRelay
  · exact cleanRelays_advertisedRelays tables offers defaultRelay
  · intro hne
    constructor
    · ext url
      rw [List.mem_toFinset, List.mem_toFinset]
      exact mem_listenRelays_iff_mem_advertisedRelays hne
    · intro o ho hurl
      apply (mem_listenRelays_iff_mem_advertisedRelays hne).2
      exact mem_advertisedRelays.2 ⟨hurl, o, ho, rfl⟩
  · rw [listenRelays_eq]
    by_cases hblank : tables.stripText defaultRelay = ""
    · simp [collect, insertNew, hblank]
    · simp [collect, insertNew, hblank]
  · intro o hrelay
    exact toFinset_listenRelays_append_ne_iff hrelay

end ElectrumClink
