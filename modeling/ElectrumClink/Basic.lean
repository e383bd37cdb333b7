import Mathlib.Data.Rat.Floor

/-!
# Shared vocabulary

The identifiers and the clock that every component of the plugin uses. `time.time()` returns a
float; a moment is modelled by the rational number it denotes, and sums and differences of moments
are exact.
-/

namespace ElectrumClink

/-- A moment, or a span, in seconds: a value of `time.time()`. -/
abbrev Time := ℚ

/-- The payment hash of an invoice, in hex (`rhash`). -/
abbrev PaymentHash := String

/-- A Nostr public key, in hex. -/
abbrev Pubkey := String

/-- A Nostr event id, in hex. -/
abbrev EventId := String

/-- An exception that a function raises. -/
inductive PyError
  | valueError (message : String)
  /-- A `ValueError` too. -/
  | unicodeDecodeError
  | typeError
  | indexError
  | overflowError
deriving DecidableEq

/-- After a step that returned, the rest runs on what it returned. -/
theorem PyError.ok_bind {α β : Type} (a : α) (f : α → Except PyError β) :
    (Except.ok a >>= f) = f a := rfl

/-- `int(t)` for a moment `t`: the fractional part is cut off. -/
def wholeSeconds (t : Time) : ℤ := if 0 ≤ t then ⌊t⌋ else ⌈t⌉

/-- A later moment has no smaller whole part. -/
theorem wholeSeconds_mono {s t : Time} (h : s ≤ t) : wholeSeconds s ≤ wholeSeconds t := by
  unfold wholeSeconds
  split
  next hs =>
    rw [if_pos (hs.trans h)]
    exact Int.floor_mono h
  next hs =>
    split
    next ht =>
      have hceil : ⌈s⌉ ≤ 0 := Int.ceil_le.2 (by push_cast; linarith)
      exact hceil.trans (Int.floor_nonneg.2 ht)
    next => exact Int.ceil_mono h

/-- A moment lies less than a second after its whole part. -/
theorem lt_wholeSeconds_add_one (t : Time) : t < wholeSeconds t + 1 := by
  unfold wholeSeconds
  split
  next => exact Int.lt_floor_add_one t
  next => exact (Int.le_ceil t).trans_lt (lt_add_one _)

end ElectrumClink
