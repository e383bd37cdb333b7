import ElectrumClink.Data.Dict
import ElectrumClink.Relay.Url

/-!
# Settings of a wallet

Every knob is set for one wallet, in its storage, or falls back to the global configuration. What is
read or set goes through `coerce`, which converts it to the type of the knob and checks nothing
else.

What was set is read back (`get_set`), and is of the type of its knob (`hasType_of_coerce`).
-/

namespace ElectrumClink

/-- A Python `float`; a finite one is the number that it denotes. -/
inductive PyFloat
  | finite (q : ℚ)
  | infinity (negative : Bool)
  | nan
deriving DecidableEq

/-- A value of a setting. -/
inductive SettingValue
  | str (s : String)
  | int (n : ℤ)
  | float (x : PyFloat)
  | bool (b : Bool)
deriving DecidableEq

/-- The type of a knob. -/
inductive KnobType
  | bool
  | str
  | int
  | float
deriving DecidableEq

/-- The knobs: their names, their types and the variables of the global configuration. -/
def knobs : List (String × KnobType × String) :=
  [("enabled", .bool, "CLINK_WALLET_DEFAULT_ENABLED"),
    ("relay", .str, "CLINK_RELAY"),
    ("invoice_expiry_sec", .int, "CLINK_INVOICE_EXPIRY"),
    ("ws_heartbeat_sec", .int, "CLINK_WS_HEARTBEAT_SEC"),
    ("watchdog_interval_sec", .int, "CLINK_WATCHDOG_INTERVAL_SEC"),
    ("listener_ping_interval_sec", .int, "CLINK_LISTENER_PING_INTERVAL_SEC"),
    ("devfee_enabled", .bool, "CLINK_DEVFEE_ENABLED"),
    ("devfee_rate_percent", .float, "CLINK_DEVFEE_RATE_PERCENT"),
    ("devfee_dest", .str, "CLINK_DEVFEE_DEST"),
    ("devfee_notice_shown", .bool, "CLINK_DEVFEE_NOTICE_SHOWN")]

def trueWords : List String := ["true", "1", "yes", "on"]

def falseWords : List String := ["false", "0", "no", "off"]

/-- Digits that `int` reads from a text at most. -/
def intMaxStrDigits : ℕ := 4300

/-! ## Conversions -/

/-- What the conversions use of Python: its character tables, and the texts of floats. -/
structure PyTables extends CharTables where
  /-- `unicodedata.decimal`. -/
  decimal : Char → Option ℕ
  /-- `str.lower`. -/
  lower : String → String
  /-- `repr` of a float. -/
  reprFloat : PyFloat → String
  /-- `float` of a text; `none` when it is not one. -/
  floatOfStr : String → Option PyFloat
  /-- `float` of an integer; `none` when it is too large. -/
  floatOfInt : ℤ → Option PyFloat

namespace PyTables

variable (py : PyTables)

/-- The values of digits, with single underscores between them. -/
def digits? : List Char → Option (List ℕ)
  | [] => none
  | [c] => (py.decimal c).map fun d => [d]
  | c :: '_' :: cs => (py.decimal c).bind fun d => (digits? cs).map (d :: ·)
  | c :: cs => (py.decimal c).bind fun d => (digits? cs).map (d :: ·)

/-- `int` of a text. -/
def intOfStr (raw : String) : Except PyError ℤ :=
  let text := py.strip raw.toList
  let (negative, text) := match text with
    | '-' :: rest => (true, rest)
    | '+' :: rest => (false, rest)
    | _ => (false, text)
  match py.digits? text with
  | none => .error (.valueError ("invalid literal for int() with base 10: " ++ py.repr raw))
  | some digits =>
    if digits.length > intMaxStrDigits then
      .error
        (.valueError ("Exceeds the limit (4300 digits) for integer string conversion: value has "
          ++ toString digits.length ++
          " digits; use sys.set_int_max_str_digits() to increase the limit"))
    else
      let magnitude : ℤ := digits.foldl (fun n d => 10 * n + d) 0
      .ok (if negative then -magnitude else magnitude)

/-- `repr(raw)`. -/
def reprValue : Option SettingValue → String
  | none => "None"
  | some (.str s) => py.repr s
  | some (.int n) => toString n
  | some (.float x) => py.reprFloat x
  | some (.bool b) => if b then "True" else "False"

/-- `str(raw)`. -/
def strOf : Option SettingValue → String
  | some (.str s) => s
  | raw => py.reprValue raw

/-- `int(raw)`. -/
def intOf : Option SettingValue → Except PyError ℤ
  | none => .error .typeError
  | some (.str s) => py.intOfStr s
  | some (.int n) => .ok n
  -- the fractional part is cut off, as it is of a moment
  | some (.float (.finite q)) => .ok (wholeSeconds q)
  | some (.float (.infinity _)) => .error .overflowError
  | some (.float .nan) => .error (.valueError "cannot convert float NaN to integer")
  | some (.bool b) => .ok (if b then 1 else 0)

/-- `float(raw)`. -/
def floatOf : Option SettingValue → Except PyError PyFloat
  | none => .error .typeError
  | some (.str s) =>
    match py.floatOfStr s with
    | none => .error (.valueError ("could not convert string to float: " ++ py.repr s))
    | some x => .ok x
  | some (.int n) =>
    match py.floatOfInt n with
    | none => .error .overflowError
    | some x => .ok x
  | some (.float x) => .ok x
  | some (.bool b) => .ok (.finite (if b then 1 else 0))

end PyTables

/-- `coerce` for a knob that is a truth value. -/
def coerceBool (py : PyTables) (name : String) (raw : Option SettingValue) :
    Except PyError SettingValue :=
  match raw with
  | some (.bool b) => .ok (.bool b)
  | _ =>
    let word := py.lower (py.stripText (py.strOf raw))
    if word ∈ trueWords then .ok (.bool true)
    else if word ∈ falseWords then .ok (.bool false)
    else .error (.valueError (name ++ " expects true/false, got " ++ py.reprValue raw))

/-- `coerce` for a knob of another type, which `convert` constructs. -/
def coerceTo (py : PyTables) (convert : Option SettingValue → Except PyError SettingValue)
    (typeName name : String) (raw : Option SettingValue) : Except PyError SettingValue :=
  match raw with
  -- a truth value is an integer to Python, and refused
  | some (.bool _) => .error (.valueError (name ++ " expects " ++ typeName ++ ", got a bool"))
  | _ =>
    match convert raw with
    | .error .typeError | .error (.valueError _) =>
      .error (.valueError (name ++ " expects " ++ typeName ++ ", got " ++ py.reprValue raw))
    -- an `OverflowError` is not caught
    | result => result

/-- `coerce`. -/
def coerce (py : PyTables) (name : String) (raw : Option SettingValue) :
    Except PyError SettingValue :=
  match knobs.lookup name with
  | none =>
    let known := (knobs.map Prod.fst).mergeSort fun a b => decide (a ≤ b)
    .error (.valueError ("unknown CLINK setting: " ++ py.repr name ++
      " (known: " ++ ", ".intercalate known ++ ")"))
  | some (.bool, _) => coerceBool py name raw
  | some (.str, _) => coerceTo py (fun raw => .ok (.str (py.strOf raw))) "str" name raw
  | some (.int, _) => coerceTo py (fun raw => (py.intOf raw).map .int) "int" name raw
  | some (.float, _) => coerceTo py (fun raw => (py.floatOf raw).map .float) "float" name raw

/-! ## The settings of one wallet -/

/-- A `WalletSettings`: what it reads of the storage of the wallet and of the configuration. -/
structure WalletSettings where
  /-- The mapping under `STORAGE_KEY`, when there is one. -/
  stored : Option (Dict String SettingValue)
  /-- Whether the storage holds offers. -/
  holdsOffers : Bool
  /-- The variables of the global configuration. -/
  config : String → Option SettingValue

namespace WalletSettings

/-- `_overrides`. -/
def overrides (s : WalletSettings) : Dict String SettingValue := s.stored.getD ∅

/-- The error of a name that is no knob. -/
def unknownSetting (py : PyTables) (name : String) : PyError :=
  .valueError ("unknown CLINK setting: " ++ py.repr name)

/-- `get`: the value of the wallet, or else that of the configuration. -/
def get (py : PyTables) (s : WalletSettings) (name : String) : Except PyError SettingValue :=
  match knobs.lookup name with
  | none => .error (unknownSetting py name)
  | some (_, configAttr) =>
    match s.overrides.get? name with
    | some value => coerce py name (some value)
    | none =>
      -- a wallet that held offers before activation became opt-in keeps serving them
      if name = "enabled" ∧ s.holdsOffers then .ok (.bool true)
      else coerce py name (s.config configAttr)

/-- `set`: returns the coerced value. -/
def set (py : PyTables) (s : WalletSettings) (name : String) (value : Option SettingValue) :
    Except PyError (SettingValue × WalletSettings) := do
  let coerced ← coerce py name value
  return (coerced, { s with stored := some (s.overrides.set name coerced) })

/-- `invoice_expiry_sec`. -/
def invoiceExpirySec (py : PyTables) (s : WalletSettings) : Except PyError ℤ := do
  py.intOf (some (← s.get py "invoice_expiry_sec"))

end WalletSettings

/-! ## What is accepted -/

/-- A value is of the type of a knob. -/
def HasType : SettingValue → KnobType → Prop
  | .bool _, .bool | .str _, .str | .int _, .int | .float _, .float => True
  | _, _ => False

section Coerce

variable {py : PyTables} {name : String} {raw : Option SettingValue} {value : SettingValue}

theorem coerceTo_eq_ok_iff {convert : Option SettingValue → Except PyError SettingValue}
    {typeName : String} :
    coerceTo py convert typeName name raw = .ok value ↔
      (∀ b, raw ≠ some (.bool b)) ∧ convert raw = .ok value := by
  unfold coerceTo
  split
  next b => simp
  next hbool =>
    have hraw : ∀ b, raw ≠ some (.bool b) := hbool
    split
    next hconvert => simp [hconvert]
    next hconvert => simp [hconvert]
    next => simp [hraw]

/-- An accepted value is a value of a known knob, of its type. -/
theorem hasType_of_coerce (h : coerce py name raw = .ok value) :
    ∃ type configAttr, knobs.lookup name = some (type, configAttr) ∧ HasType value type := by
  unfold coerce at h
  split at h
  next => cases h
  -- a bool knob has a conversion of its own
  next configAttr hknob =>
    refine ⟨.bool, configAttr, hknob, ?_⟩
    unfold coerceBool at h
    split at h
    next =>
      obtain rfl := Except.ok.inj h
      trivial
    next =>
      dsimp only at h
      split at h
      next =>
        obtain rfl := Except.ok.inj h
        trivial
      next =>
        split at h
        next =>
          obtain rfl := Except.ok.inj h
          trivial
        next => cases h
  next configAttr hknob =>
    obtain ⟨-, hconvert⟩ := coerceTo_eq_ok_iff.1 h
    obtain rfl := Except.ok.inj hconvert
    exact ⟨.str, configAttr, hknob, trivial⟩
  next configAttr hknob =>
    obtain ⟨-, hconvert⟩ := coerceTo_eq_ok_iff.1 h
    refine ⟨.int, configAttr, hknob, ?_⟩
    -- `int` made the value, and it may have raised
    rcases hint : py.intOf raw with e | n
    · rw [hint] at hconvert
      cases hconvert
    · rw [hint] at hconvert
      obtain rfl := Except.ok.inj hconvert
      trivial
  next configAttr hknob =>
    obtain ⟨-, hconvert⟩ := coerceTo_eq_ok_iff.1 h
    refine ⟨.float, configAttr, hknob, ?_⟩
    rcases hfloat : py.floatOf raw with e | x
    · rw [hfloat] at hconvert
      cases hconvert
    · rw [hfloat] at hconvert
      obtain rfl := Except.ok.inj hconvert
      trivial

/-- A value of the type of a knob is accepted as it is: there is no other check. -/
theorem coerce_of_hasType {type : KnobType} {configAttr : String}
    (hknob : knobs.lookup name = some (type, configAttr)) (h : HasType value type) :
    coerce py name (some value) = .ok value := by
  unfold coerce
  rw [hknob]
  cases type <;> cases value <;> first | exact h.elim | rfl

/-- What was accepted once is accepted again, unchanged. -/
theorem coerce_coerce (h : coerce py name raw = .ok value) :
    coerce py name (some value) = .ok value := by
  obtain ⟨type, configAttr, hknob, htype⟩ := hasType_of_coerce h
  exact coerce_of_hasType hknob htype

end Coerce

namespace WalletSettings

variable {py : PyTables} {s s' : WalletSettings} {name : String} {raw : Option SettingValue}
  {value : SettingValue}

theorem set_eq_ok_iff :
    s.set py name raw = .ok (value, s') ↔
      coerce py name raw = .ok value ∧
        s' = { s with stored := some (s.overrides.set name value) } := by
  unfold set
  rcases hcoerce : coerce py name raw with e | coerced
  · constructor
    · rintro ⟨⟩
    · rintro ⟨⟨⟩, -⟩
  · rw [PyError.ok_bind]
    constructor
    · intro h
      obtain ⟨rfl, rfl⟩ := Prod.mk.inj (Except.ok.inj h)
      exact ⟨rfl, rfl⟩
    · rintro ⟨h, rfl⟩
      obtain rfl := Except.ok.inj h
      rfl

/-- What was set is read back, by any reader of the storage. -/
theorem get_set (h : s.set py name raw = .ok (value, s')) : s'.get py name = .ok value := by
  obtain ⟨hcoerce, rfl⟩ := set_eq_ok_iff.1 h
  obtain ⟨type, configAttr, hknob, -⟩ := hasType_of_coerce hcoerce
  have hget : (s.overrides.set name value).get? name = some value := Dict.get?_set_self _ _ _
  unfold get
  rw [hknob]
  show (match (s.overrides.set name value).get? name with
    | some value => coerce py name (some value)
    | none => _) = _
  rw [hget]
  exact coerce_coerce hcoerce

/-- The invoice expiry is read back as the integer that was accepted, whatever its sign. -/
theorem invoiceExpirySec_set (h : s.set py "invoice_expiry_sec" raw = .ok (value, s')) :
    ∃ expiry, value = .int expiry ∧ s'.invoiceExpirySec py = .ok expiry := by
  obtain ⟨type, configAttr, hknob, htype⟩ := hasType_of_coerce (set_eq_ok_iff.1 h).1
  obtain ⟨rfl, -⟩ : KnobType.int = type ∧ "CLINK_INVOICE_EXPIRY" = configAttr :=
    Prod.mk.inj (Option.some.inj ((by decide : knobs.lookup "invoice_expiry_sec" =
      some (.int, "CLINK_INVOICE_EXPIRY")).symm.trans hknob))
  cases value with
  | int expiry =>
    refine ⟨expiry, rfl, ?_⟩
    rw [invoiceExpirySec, get_set h]
    rfl
  | _ => exact htype.elim

end WalletSettings

end ElectrumClink
