import ElectrumClink.Receipts.Lifecycle

/-!
# The cap of the registry

The map of receipts is persisted, and anybody may have an invoice issued, so its size is bounded.
Only `remember` adds an entry, and an entry that was just added is not owed: the one entry over the
cap can always be evicted, even when every other one is owed.

`Operation` adds `forget` to the operations that make up the life of a receipt.

* `size_remember_le` is the step of the bound, `registry_cap` the bound over every sequence of
  operations from an empty storage.
* `MakesRoom` says what `remember` may drop, and `makesRoom_remember` that it drops just that.
-/

namespace ElectrumClink.ReceiptRegistry

/-- Every operation of the registry. -/
inductive Operation
  | ofOp (op : Op)
  | forget (rhash : PaymentHash)
deriving DecidableEq

namespace Operation

/-- The registry after an operation at time `now`. -/
def apply (operation : Operation) (now : Time) (reg : ReceiptRegistry) : ReceiptRegistry :=
  match operation with
  | ofOp op => op.apply now reg
  | forget rhash => reg.forget rhash

/-- One call of an operation, with the clock reading it makes. -/
structure Call where
  time : Time
  operation : Operation

/-- The registry after a sequence of calls. -/
def run (reg : ReceiptRegistry) (calls : List Call) : ReceiptRegistry :=
  calls.foldl (fun reg c => c.operation.apply c.time reg) reg

theorem run_snoc (reg : ReceiptRegistry) (calls : List Call) (c : Call) :
    run reg (calls ++ [c]) = c.operation.apply c.time (run reg calls) := by
  simp [run]

end Operation

section Remember

variable (reg : ReceiptRegistry) (rhash : PaymentHash) (payerPubkey : Pubkey)
  (requestEventId : EventId) (expiresAt : Time)

/-- The map that the cap is enforced on: the one with the new entry in it. -/
def remembering : Dict PaymentHash ReceiptEntry :=
  reg.pending.set rhash (awaiting payerPubkey requestEventId expiresAt)

/-! ## The evicted entries -/

/-- No hash is evicted twice. -/
theorem nodup_enforceCap (entries : Dict PaymentHash ReceiptEntry) :
    (enforceCap entries).Nodup := by
  have hkeys : ((prunable entries).map Prod.fst).Nodup :=
    entries.nodup_keys.sublist (List.filter_sublist.map Prod.fst)
  unfold enforceCap
  split
  · exact List.nodup_nil
  · have hsorted := (List.perm_insertionSort (fun a b => a.2.expiresAt ≤ b.2.expiresAt)
      (prunable entries)).map Prod.fst
    exact (hsorted.nodup_iff.2 hkeys).sublist ((List.take_sublist _ _).map Prod.fst)

/-- The evictions bring the map down to the cap, as far as there are entries to evict. -/
theorem length_enforceCap (entries : Dict PaymentHash ReceiptEntry) :
    (enforceCap entries).length = min (entries.size - maxPending) (prunable entries).length := by
  unfold enforceCap
  split
  next hle => simp [Nat.sub_eq_zero_of_le hle]
  next => rw [List.length_map, List.length_oldest]

/-- An entry that is evicted expires no later than an awaiting-payment entry that stays. -/
theorem expiresAt_le_of_mem_enforceCap {entries : Dict PaymentHash ReceiptEntry}
    {k k' : PaymentHash} {e e' : ReceiptEntry} (hk : k ∈ enforceCap entries)
    (he : entries.get? k = some e) (hk' : k' ∉ enforceCap entries)
    (he' : entries.get? k' = some e') (hdue' : e'.due = false) : e.expiresAt ≤ e'.expiresAt := by
  unfold enforceCap at hk hk'
  split at hk
  next => cases hk
  next hover =>
    rw [if_neg hover] at hk'
    obtain ⟨⟨k₀, e₀⟩, hmem, rfl⟩ := List.mem_map.1 hk
    have hentry := Dict.get?_eq_some_iff.2
      (List.mem_of_mem_filter (List.mem_of_mem_oldest hmem))
    obtain rfl := Option.some.inj (he.symm.trans hentry)
    -- the entry that stays is prunable, and not among the oldest
    refine List.stamp_le_of_mem_oldest hmem (b := (k', e')) ?_ fun h => ?_
    · exact List.mem_filter.2 ⟨Dict.get?_eq_some_iff.1 he', by simp [hdue']⟩
    · exact hk' (List.mem_map_of_mem h)

/-- What `remember` may do to make room for a new entry: it removes exactly the hashes that it
returns, none of them owed and none expiring later than an awaiting-payment entry that stays, and
changes no other entry. -/
structure MakesRoom (evicted : List PaymentHash) (reg' : ReceiptRegistry) : Prop where
  removed : ∀ k, k ∈ evicted ↔
    k ∈ reg.remembering rhash payerPubkey requestEventId expiresAt ∧ k ∉ reg'.pending
  notOwed : ∀ k ∈ evicted, ∃ e,
    (reg.remembering rhash payerPubkey requestEventId expiresAt).get? k = some e ∧ e.due = false
  soonest : ∀ k ∈ evicted, ∀ e,
    (reg.remembering rhash payerPubkey requestEventId expiresAt).get? k = some e →
      ∀ k' e', reg'.lookup k' = some e' → e'.due = false → e.expiresAt ≤ e'.expiresAt
  unchanged : ∀ k e, reg'.lookup k = some e →
    (reg.remembering rhash payerPubkey requestEventId expiresAt).get? k = some e

theorem makesRoom_remember :
    MakesRoom reg rhash payerPubkey requestEventId expiresAt
      (reg.remember rhash payerPubkey requestEventId expiresAt).1
      (reg.remember rhash payerPubkey requestEventId expiresAt).2 := by
  set entries := reg.remembering rhash payerPubkey requestEventId expiresAt with hentries
  show MakesRoom reg rhash payerPubkey requestEventId expiresAt (enforceCap entries)
    ⟨entries.eraseAll (enforceCap entries)⟩
  have hafter : ∀ k e, lookup ⟨entries.eraseAll (enforceCap entries)⟩ k = some e →
      k ∉ enforceCap entries ∧ entries.get? k = some e := by
    intro k e he
    rw [lookup, Dict.get?_eraseAll] at he
    exact Option.ite_none_left_eq_some.1 he
  refine ⟨fun k => ?_, fun k hk => exists_entry_of_mem_enforceCap hk, ?_, fun k e he =>
    (hafter k e he).2⟩
  · rw [Dict.mem_eraseAll, not_and_not_right]
    refine ⟨fun hk => ⟨?_, fun _ => hk⟩, fun h => h.2 h.1⟩
    obtain ⟨e, he, -⟩ := exists_entry_of_mem_enforceCap hk
    exact Dict.mem_of_get? he
  · intro k hk e he k' e' he' hdue'
    exact expiresAt_le_of_mem_enforceCap hk he (hafter k' e' he').1 (hafter k' e' he').2 hdue'

/-! ## The size of the map -/

/-- Remembering one more invoice keeps the map within its cap: the new entry itself may go. -/
theorem size_remember_le (hle : reg.pending.size ≤ maxPending) :
    (reg.remember rhash payerPubkey requestEventId expiresAt).2.pending.size ≤ maxPending := by
  set entries := reg.remembering rhash payerPubkey requestEventId expiresAt with hentries
  show (entries.eraseAll (enforceCap entries)).size ≤ maxPending
  have hsize : entries.size ≤ reg.pending.size + 1 := by
    by_cases hmem : rhash ∈ reg.pending
    · have hsame : entries.size ≤ reg.pending.size := Dict.size_le_of_forall_mem fun k hk =>
        (Dict.mem_set.1 hk).elim (fun h => h ▸ hmem) id
      omega
    · exact (Dict.size_set_of_notMem hmem _).le
  have hnew : (rhash, awaiting payerPubkey requestEventId expiresAt) ∈ prunable entries :=
    List.mem_filter.2 ⟨Dict.get?_eq_some_iff.1 (Dict.get?_set_self _ _ _), rfl⟩
  have hpos : 0 < (prunable entries).length := List.length_pos_of_mem hnew
  have herased := Dict.size_eraseAll (nodup_enforceCap entries) fun k hk =>
    let ⟨_, he, _⟩ := exists_entry_of_mem_enforceCap hk
    Dict.mem_of_get? he
  rw [length_enforceCap] at herased
  omega

end Remember

/-- Only `remember` adds an entry. -/
theorem size_apply_le {reg : ReceiptRegistry} (hle : reg.pending.size ≤ maxPending)
    (operation : Operation) (now : Time) :
    (operation.apply now reg).pending.size ≤ maxPending := by
  -- an operation that remembers nothing leaves no hash that was not there
  have hkeeps : ∀ op : Op, op.remembers = none →
      (op.apply now reg).pending.size ≤ maxPending := by
    intro op hop
    refine (Dict.size_le_of_forall_mem fun k hk => ?_).trans hle
    rcases mem_of_mem_apply hk with hk | hk
    · exact hk
    · cases hop.symm.trans hk
  rcases operation with op | rhash
  · cases op with
    | remember rhash payerPubkey requestEventId expiresAt =>
      exact size_remember_le reg rhash payerPubkey requestEventId expiresAt hle
    | _ => exact hkeeps _ rfl
  · exact (Dict.size_le_of_forall_mem fun k hk => (Dict.mem_erase.1 hk).2).trans hle

/-- Over every sequence of operations from an empty storage the map stays within its cap, whatever
is owed, and each `remember` makes room by dropping the awaiting-payment entries that expire soonest
and nothing else. -/
theorem registry_cap (calls : List Operation.Call) :
    (Operation.run empty calls).pending.size ≤ maxPending ∧
      ∀ rhash payerPubkey requestEventId expiresAt,
        MakesRoom (Operation.run empty calls) rhash payerPubkey requestEventId expiresAt
          ((Operation.run empty calls).remember rhash payerPubkey requestEventId expiresAt).1
          ((Operation.run empty calls).remember rhash payerPubkey requestEventId expiresAt).2 := by
  refine ⟨?_, fun rhash payerPubkey requestEventId expiresAt =>
    makesRoom_remember _ rhash payerPubkey requestEventId expiresAt⟩
  induction calls using List.reverseRecOn with
  | nil => exact Nat.zero_le _
  | append_singleton calls c ih =>
    rw [Operation.run_snoc]
    exact size_apply_le ih c.operation c.time

end ElectrumClink.ReceiptRegistry
