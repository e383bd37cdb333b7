import ElectrumClink.Protocol
import Mathlib.Data.Int.Notation
import Mathlib.Data.String.Basic

/-!
# The texts of JSON objects

`json.dumps` with its default separators, and `json.loads` on what it writes: objects over integers
and strings, the strings of printable ASCII characters.
-/

namespace ElectrumClink

namespace JsonText

/-! ## Strings -/

/-- The characters of a string up to its closing quote, which ends it. -/
def escape : List Char → List Char
  | [] => ['"']
  | c :: cs => if c = '"' ∨ c = '\\' then '\\' :: c :: escape cs else c :: escape cs

/-- The text of a string. -/
def quote (s : String) : List Char := '"' :: escape s.toList

/-- What stands before the closing quote, and the rest. -/
def unescape : List Char → Option (List Char × List Char)
  | [] => none
  | '"' :: rest => some ([], rest)
  | '\\' :: c :: rest => (unescape rest).map fun (s, rest) => (c :: s, rest)
  | c :: rest => (unescape rest).map fun (s, rest) => (c :: s, rest)

/-- A string is read up to its closing quote. -/
theorem unescape_escape (cs rest : List Char) :
    unescape (escape cs ++ rest) = some (cs, rest) := by
  induction cs with
  | nil => rfl
  | cons c cs ih =>
    by_cases hspecial : c = '"' ∨ c = '\\'
    · rw [escape, if_pos hspecial, List.cons_append, List.cons_append, unescape, ih]
      rfl
    · rw [escape, if_neg hspecial, List.cons_append]
      push Not at hspecial
      rw [unescape, ih]
      · rfl
      · exact hspecial.1
      · exact fun _ _ h => absurd h hspecial.2

/-! ## Integers -/

/-- The digits at the front, as a number, and the rest. -/
def natural (cs : List Char) : ℕ × List Char :=
  (Nat.ofDigitChars 10 (cs.takeWhile Char.isDigit) 0, cs.dropWhile Char.isDigit)

/-- An integer, and the rest. -/
def integer (cs : List Char) : ℤ × List Char :=
  match cs with
  | '-' :: cs => (-((natural cs).1 : ℤ), (natural cs).2)
  | cs => ((natural cs).1, (natural cs).2)

/-- The text goes on with no digit. -/
def NoDigit (rest : List Char) : Prop := ∀ c ∈ rest.head?, c.isDigit = false

theorem noDigit_cons {c : Char} (rest : List Char) (hc : c.isDigit = false) :
    NoDigit (c :: rest) := by
  rintro _ ⟨⟩
  exact hc

/-- A number is read up to a character that is no digit. -/
theorem natural_repr (n : ℕ) {rest : List Char} (hrest : NoDigit rest) :
    natural (n.repr.toList ++ rest) = (n, rest) := by
  have hdigits : ∀ d ∈ n.repr.toList, d.isDigit = true := by
    rw [Nat.toList_repr]
    exact fun d hd => Nat.isDigit_of_mem_toDigits (by decide) (by decide) hd
  have hstop : rest.takeWhile Char.isDigit = [] ∧ rest.dropWhile Char.isDigit = rest := by
    rcases rest with _ | ⟨c, rest⟩
    · exact ⟨rfl, rfl⟩
    · have hc : ¬ c.isDigit = true := by simp [hrest c rfl]
      exact ⟨List.takeWhile_cons_of_neg hc, List.dropWhile_cons_of_neg hc⟩
  rw [natural, List.takeWhile_append_of_pos hdigits, List.dropWhile_append_of_pos hdigits, hstop.1,
    hstop.2, List.append_nil, Nat.toList_repr, Nat.ofDigitChars_ten_toDigits]

/-- The text of a number starts with a digit. -/
theorem exists_repr_eq_cons (n : ℕ) : ∃ d ds, n.repr.toList = d :: ds ∧ d.isDigit = true := by
  rcases hlist : n.repr.toList with _ | ⟨d, ds⟩
  · rw [Nat.toList_repr] at hlist
    exact absurd hlist Nat.toDigits_ne_nil
  · refine ⟨d, ds, rfl, ?_⟩
    rw [Nat.toList_repr] at hlist
    exact Nat.isDigit_of_mem_toDigits (by decide) (by decide)
      (hlist ▸ (List.mem_cons_self : d ∈ d :: ds))

/-- The text of a negative integer is its sign and a number. -/
theorem repr_negSucc (n : ℕ) : (Int.negSucc n).repr.toList = '-' :: (n + 1).repr.toList := by
  have hrepr : (Int.negSucc n).repr = "-" ++ (n + 1).repr := rfl
  rw [hrepr, String.toList_append]
  rfl

/-- The text of an integer starts with a digit or with the sign. -/
theorem exists_int_repr_eq_cons (n : ℤ) :
    ∃ c cs, n.repr.toList = c :: cs ∧ (c.isDigit = true ∨ c = '-') := by
  cases n with
  | ofNat n =>
    obtain ⟨d, ds, hlist, hd⟩ := exists_repr_eq_cons n
    exact ⟨d, ds, hlist, .inl hd⟩
  | negSucc n => exact ⟨'-', _, repr_negSucc n, .inr rfl⟩

/-- An integer is read up to a character that is no digit. -/
theorem integer_repr (n : ℤ) {rest : List Char} (hrest : NoDigit rest) :
    integer (n.repr.toList ++ rest) = (n, rest) := by
  cases n with
  | ofNat n =>
    obtain ⟨d, ds, hlist, hd⟩ := exists_repr_eq_cons n
    have hnat : natural (d :: (ds ++ rest)) = (n, rest) := by
      rw [← List.cons_append, ← hlist]
      exact natural_repr n hrest
    have hrepr : (Int.ofNat n).repr.toList = d :: ds := hlist
    rw [hrepr, List.cons_append]
    unfold integer
    split
    next cs heq =>
      -- no digit is the sign
      obtain ⟨rfl, -⟩ := List.cons.inj heq
      cases hd
    next => rw [hnat]; rfl
  | negSucc n =>
    rw [repr_negSucc, List.cons_append, integer, natural_repr _ hrest]
    rfl

/-! ## Values -/

mutual

/-- The text of a value. -/
def dumps : Json → List Char
  | .null => "null".toList
  | .bool b => (if b then "true" else "false").toList
  | .int n => n.repr.toList
  | .float literal => literal.toList
  | .str s => quote s
  | .array [] => "[]".toList
  | .array (x :: xs) => '[' :: (dumps x ++ dumpsElems xs)
  | .object [] => "\x7b\x7d".toList
  | .object ((k, x) :: xs) => '\x7b' :: (quote k ++ ':' :: ' ' :: (dumps x ++ dumpsMembers xs))

/-- The text of the further elements of an array. -/
def dumpsElems : List Json → List Char
  | [] => [']']
  | x :: xs => ',' :: ' ' :: (dumps x ++ dumpsElems xs)

/-- The text of the further members of an object. -/
def dumpsMembers : List (String × Json) → List Char
  | [] => ['\x7d']
  | (k, x) :: xs => ',' :: ' ' :: (quote k ++ ':' :: ' ' :: (dumps x ++ dumpsMembers xs))

end

mutual

/-- A string, an integer or an object, and the rest; `fuel` bounds the nesting. -/
def value : (fuel : ℕ) → List Char → Option (Json × List Char)
  | 0, _ => none
  | _ + 1, '"' :: cs => (unescape cs).map fun (s, rest) => (.str (String.ofList s), rest)
  | fuel + 1, '\x7b' :: cs => (members fuel cs).map fun (ms, rest) => (.object ms, rest)
  | _ + 1, cs => some (.int (integer cs).1, (integer cs).2)

/-- The members of an object up to its closing brace. -/
def members : (fuel : ℕ) → List Char → Option (List (String × Json) × List Char)
  | 0, _ => none
  | fuel + 1, '"' :: cs => do
    let (k, cs) ← unescape cs
    let (x, cs) ← value fuel (cs.drop 2)
    match cs with
    | '\x7d' :: rest => return ([(String.ofList k, x)], rest)
    | cs =>
      let (ms, rest) ← members fuel (cs.drop 2)
      return ((String.ofList k, x) :: ms, rest)
  | _ + 1, _ => none

end

mutual

/-- Integers, strings, and the objects over them that have members. -/
def Plain : Json → Prop
  | .int _ | .str _ => True
  | .object ((_, x) :: xs) => Plain x ∧ PlainMembers xs
  | _ => False

/-- Every member is plain. -/
def PlainMembers : List (String × Json) → Prop
  | [] => True
  | (_, x) :: xs => Plain x ∧ PlainMembers xs

end

/-- An integer is none of the other values. -/
theorem value_int (fuel : ℕ) (n : ℤ) {rest : List Char} (hrest : NoDigit rest) :
    value (fuel + 1) (n.repr.toList ++ rest) = some (.int n, rest) := by
  have hread := integer_repr n hrest
  obtain ⟨c, cs, hlist, hc⟩ := exists_int_repr_eq_cons n
  rw [hlist] at hread ⊢
  rw [List.cons_append] at hread ⊢
  rw [value, hread]
  all_goals
    intro _ heq
    obtain ⟨rfl, -⟩ := List.cons.inj heq
    exact absurd hc (by decide)

/-- A string is read up to its closing quote. -/
theorem value_str (fuel : ℕ) (s : String) (rest : List Char) :
    value (fuel + 1) (quote s ++ rest) = some (.str s, rest) := by
  rw [quote, List.cons_append, value, unescape_escape]
  simp

/-- The last member of an object. -/
theorem members_last {fuel : ℕ} (k : String) {x : Json} {text rest : List Char}
    (hx : value fuel (text ++ '\x7d' :: rest) = some (x, '\x7d' :: rest)) :
    members (fuel + 1) (quote k ++ ':' :: ' ' :: (text ++ '\x7d' :: rest)) =
      some ([(k, x)], rest) := by
  rw [quote, List.cons_append, members, unescape_escape]
  simp [hx]

/-- A member of an object that is not the last one. -/
theorem members_cons {fuel : ℕ} (k : String) {x : Json} {ms : List (String × Json)}
    {text more rest : List Char}
    (hx : value fuel (text ++ ',' :: ' ' :: more) = some (x, ',' :: ' ' :: more))
    (hms : members fuel more = some (ms, rest)) :
    members (fuel + 1) (quote k ++ ':' :: ' ' :: (text ++ ',' :: ' ' :: more)) =
      some ((k, x) :: ms, rest) := by
  rw [quote, List.cons_append, members, unescape_escape]
  simp [hx, hms]

mutual

/-- A value is read back, with enough fuel. -/
theorem value_dumps (fuel : ℕ) (rest : List Char) : (j : Json) → Plain j → NoDigit rest →
    (dumps j).length ≤ fuel → value fuel (dumps j ++ rest) = some (j, rest)
  | .int n, _, hrest, hfuel => by
    obtain ⟨fuel, rfl⟩ : ∃ fuel', fuel = fuel' + 1 := by
      refine Nat.exists_eq_succ_of_ne_zero ?_
      rintro rfl
      obtain ⟨c, cs, hlist, -⟩ := exists_int_repr_eq_cons n
      rw [dumps, hlist] at hfuel
      cases hfuel
    exact value_int fuel n hrest
  | .str s, _, _, hfuel => by
    rw [dumps, quote, List.length_cons] at hfuel
    obtain ⟨fuel, rfl⟩ := Nat.exists_eq_add_of_le' (Nat.le_of_add_left_le hfuel)
    exact value_str fuel s rest
  | .object ((k, x) :: xs), ⟨hx, hxs⟩, _, hfuel => by
    rw [dumps, List.length_cons] at hfuel
    obtain ⟨fuel, rfl⟩ := Nat.exists_eq_add_of_le' (Nat.le_of_add_left_le hfuel)
    have hmembers := members_dumps fuel rest k x xs hx hxs (by omega)
    rw [dumps, List.cons_append, value, hmembers]
    rfl

/-- The members of an object are read back. -/
theorem members_dumps (fuel : ℕ) (rest : List Char) (k : String) (x : Json) :
    (xs : List (String × Json)) → Plain x → PlainMembers xs →
    (quote k ++ ':' :: ' ' :: (dumps x ++ dumpsMembers xs)).length ≤ fuel →
    members fuel (quote k ++ ':' :: ' ' :: (dumps x ++ dumpsMembers xs) ++ rest) =
      some ((k, x) :: xs, rest)
  | [], hx, _, hfuel => by
    simp only [List.length_append, List.length_cons] at hfuel
    obtain ⟨fuel, rfl⟩ := Nat.exists_eq_add_of_le' (show 1 ≤ fuel by omega)
    have hvalue := value_dumps fuel ('\x7d' :: rest) x hx (noDigit_cons _ rfl) (by omega)
    simpa [dumpsMembers] using members_last k hvalue
  | (k', x') :: xs, hx, ⟨hx', hxs⟩, hfuel => by
    simp only [dumpsMembers, List.length_append, List.length_cons] at hfuel
    obtain ⟨fuel, rfl⟩ := Nat.exists_eq_add_of_le' (show 1 ≤ fuel by omega)
    have hmore := members_dumps fuel rest k' x' xs hx' hxs
      (by simp only [List.length_append, List.length_cons]; omega)
    have hvalue := value_dumps fuel (',' :: ' ' :: (quote k' ++ ':' :: ' ' ::
      (dumps x' ++ dumpsMembers xs) ++ rest)) x hx (noDigit_cons _ rfl) (by omega)
    simpa [dumpsMembers] using members_cons k hvalue hmore

end

/-- `json.loads` on the text of a plain value. -/
def loads (text : String) : Option Json := (value text.length text.toList).map Prod.fst

/-- What is written is read back. -/
theorem loads_dumps {j : Json} (hj : Plain j) : loads (String.ofList (dumps j)) = some j := by
  have hread := value_dumps (dumps j).length [] j hj (by rintro _ ⟨⟩) le_rfl
  rw [List.append_nil] at hread
  rw [loads, String.length_ofList, String.toList_ofList, hread]
  rfl

end JsonText

end ElectrumClink
