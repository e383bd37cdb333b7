import ElectrumClink.Basic
import ElectrumClink.Data.Dict

/-!
# Inbound-liquidity reservation

An invoice handed to a payer locks the inbound liquidity it needs until it is paid or expires. The
reserver keeps one soft reservation per payment hash; every read first sweeps the reservations
whose expiry has passed, so a reservation stays recorded past its expiry until the next read.

`tryReserve_eq` is the whole contract of a reservation attempt: it succeeds exactly on a positive
amount that fits beside everything still reserved.
-/

namespace ElectrumClink

/-- Current inbound capacity in sats, clamped to `≥ 0`; no `lnworker` counts as no capacity. -/
def receivableCapacitySat : Option ℤ → ℤ
  | none => 0
  | some numSatsCanReceive => max 0 numSatsCanReceive

theorem receivableCapacitySat_nonneg (lnworker : Option ℤ) :
    0 ≤ receivableCapacitySat lnworker := by
  cases lnworker <;> simp [receivableCapacitySat]

/-- The liquidity held for one issued invoice. -/
structure Reservation where
  /-- Payment hash of the issued invoice. -/
  key : PaymentHash
  amountSat : ℤ
  /-- Matches the invoice's own expiry. -/
  expiresAt : Time
deriving DecidableEq, Inhabited

/-- Soft reservations against live receivable capacity, by payment hash. -/
structure LiquidityReserver where
  reservations : Dict PaymentHash Reservation

namespace LiquidityReserver

/-- The reserver as the server's constructor builds it. -/
def init : LiquidityReserver := ⟨∅⟩

/-- The total currently recorded, swept or not. -/
def total (r : LiquidityReserver) : ℤ := r.reservations.sum fun _ res => res.amountSat

/-- Delete every reservation with `expires_at <= now`. -/
def sweep (r : LiquidityReserver) (now : Time) : LiquidityReserver :=
  ⟨r.reservations.filter fun _ res => !decide (res.expiresAt ≤ now)⟩

/-- `reserved_sat()`: the total after a sweep. -/
def reservedSat (r : LiquidityReserver) (now : Time) : ℤ := (r.sweep now).total

/-- `available_sat()`: receivable capacity minus everything currently reserved, never below 0. -/
def availableSat (r : LiquidityReserver) (capacity : ℤ) (now : Time) : ℤ :=
  max 0 (capacity - r.reservedSat now)

/-- Reserve `amountSat` for `key` if it fits; the swept reserver is kept either way. -/
def tryReserve (r : LiquidityReserver) (capacity : ℤ) (now : Time) (key : PaymentHash)
    (amountSat : ℤ) (expiresAt : Time) : Bool × LiquidityReserver :=
  let r := r.sweep now
  -- `available_sat` sweeps a second time
  if amountSat ≤ 0 then (false, r)
  else if amountSat > r.availableSat capacity now then (false, r.sweep now)
  else (true, ⟨(r.sweep now).reservations.set key ⟨key, amountSat, expiresAt⟩⟩)

/-- Drop a reservation early, e.g. once its invoice is paid. -/
def release (r : LiquidityReserver) (key : PaymentHash) : LiquidityReserver :=
  ⟨r.reservations.erase key⟩

/-! ## What each operation does to the recorded reservations -/

theorem get?_sweep {r : LiquidityReserver} {now : Time} {k : PaymentHash} {res : Reservation} :
    (r.sweep now).reservations.get? k = some res ↔
      r.reservations.get? k = some res ∧ now < res.expiresAt := by
  simp [sweep, Dict.get?_filter_eq_some]

@[simp]
theorem sweep_sweep (r : LiquidityReserver) (now : Time) :
    (r.sweep now).sweep now = r.sweep now := by
  simp [sweep, Dict.filter, List.filter_filter]

theorem get?_release_self (r : LiquidityReserver) (k : PaymentHash) :
    (r.release k).reservations.get? k = none :=
  Dict.get?_erase_self _ _

theorem get?_release_of_ne (r : LiquidityReserver) {k k' : PaymentHash} (h : k' ≠ k) :
    (r.release k).reservations.get? k' = r.reservations.get? k' :=
  Dict.get?_erase_of_ne _ h

/-- From `r` to `r'` only reservations that have expired at `now` are gone. -/
structure Lapses (now : Time) (r r' : LiquidityReserver) : Prop where
  subset : ∀ k res, r'.reservations.get? k = some res → r.reservations.get? k = some res
  kept : ∀ k res, r.reservations.get? k = some res → now < res.expiresAt →
    r'.reservations.get? k = some res

theorem Lapses.refl (now : Time) (r : LiquidityReserver) : Lapses now r r :=
  ⟨fun _ _ h => h, fun _ _ h _ => h⟩

theorem Lapses.trans {now : Time} {r r' r'' : LiquidityReserver} (h : Lapses now r r')
    (h' : Lapses now r' r'') : Lapses now r r'' :=
  ⟨fun k res hk => h.subset k res (h'.subset k res hk),
    fun k res hk hlive => h'.kept k res (h.kept k res hk hlive) hlive⟩

theorem lapses_sweep (now : Time) (r : LiquidityReserver) : Lapses now r (r.sweep now) :=
  ⟨fun _ _ hk => (get?_sweep.1 hk).1, fun _ _ hk hlive => get?_sweep.2 ⟨hk, hlive⟩⟩

section TryReserve

variable (r : LiquidityReserver) (capacity : ℤ) (now : Time) (key : PaymentHash) (amountSat : ℤ)
  (expiresAt : Time)

/-- A reservation succeeds exactly when its amount is positive and fits beside what is still
reserved. It then records the amount under its key; a failed one only sweeps. -/
theorem tryReserve_eq :
    r.tryReserve capacity now key amountSat expiresAt =
      if 0 < amountSat ∧ r.reservedSat now + amountSat ≤ capacity then
        (true, ⟨(r.sweep now).reservations.set key ⟨key, amountSat, expiresAt⟩⟩)
      else (false, r.sweep now) := by
  simp only [tryReserve, availableSat, reservedSat, sweep_sweep]
  by_cases hpos : 0 < amountSat
  -- the clamp of `available_sat` at 0 makes no difference to a positive amount
  · have hneg : ¬ amountSat ≤ 0 := not_le.2 hpos
    by_cases hfits : (r.sweep now).total + amountSat ≤ capacity
    · have hle : ¬ amountSat > max 0 (capacity - (r.sweep now).total) := by
        simp only [gt_iff_lt, not_lt, le_max_iff]
        omega
      simp only [hneg, hle, hpos, hfits, if_false, if_true, and_self]
    · have hgt : amountSat > max 0 (capacity - (r.sweep now).total) := by
        simp only [gt_iff_lt, max_lt_iff]
        omega
      simp only [hneg, hgt, hfits, if_false, if_true, and_false]
  · simp only [not_lt.1 hpos, hpos, if_true, if_false, false_and]

end TryReserve

/-- Two requests in sequence: what the first one locked is not promised to the second. -/
example :
    let r := (LiquidityReserver.init.tryReserve 50 0 "a" 40 120).2
    (r.tryReserve 50 0 "b" 20 120).1 = false ∧ (r.tryReserve 50 0 "c" 10 120).1 = true := by
  decide +kernel

end LiquidityReserver

end ElectrumClink
