import ElectrumClink.Data.Dict
import ElectrumClink.Data.GrowingList

/-!
# Waiting for what is said under a key

Waiters register in a table under a key and wait for the next thing that is said under it. The
table has one place for a key: a waiter that registers under a key that is taken displaces the
waiter there, and a waiter that leaves gives its place up, unless it was displaced.

`Inv` is what the operations keep: the table holds exactly the waiters that have not left and were
not displaced; a waiter is answered with nothing but the first thing said under its key since it
registered, and one in the table has heard that thing.
-/

/-- Someone who waits for what is said under a key. -/
structure Waiter (κ ν : Type*) where
  key : κ
  /-- How much had been said when it registered; no operation reads it. -/
  since : ℕ
  answer : Option ν
  left : Bool
deriving DecidableEq

/-- The waiters, by the order in which they registered, and their table. -/
structure Rendezvous (κ ν : Type*) where
  table : Dict κ ℕ
  waiters : List (Waiter κ ν)
  /-- What was said, oldest first; no operation reads it. -/
  said : List (κ × ν)

namespace Rendezvous

variable {κ ν : Type*} [DecidableEq κ] {s : Rendezvous κ ν} {k k' : κ} {v v' : ν} {w w' : ℕ}
  {x y : Waiter κ ν}

/-- Nobody waits. -/
def init : Rendezvous κ ν := ⟨∅, [], []⟩

/-- A waiter registers. It is known by the number of those before it. -/
def register (s : Rendezvous κ ν) (k : κ) : Rendezvous κ ν :=
  { s with
    table := s.table.set k s.waiters.length
    waiters := s.waiters ++ [⟨k, s.said.length, none, false⟩] }

/-- Answer a waiter, once. -/
def answer (s : Rendezvous κ ν) (w : ℕ) (v : ν) : List (Waiter κ ν) :=
  match s.waiters[w]? with
  | some x => s.waiters.set w { x with answer := x.answer.or (some v) }
  | none => s.waiters

/-- Something is said under a key: the waiter in the table hears it, if it has not heard anything
yet. -/
def say (s : Rendezvous κ ν) (k : κ) (v : ν) : Rendezvous κ ν :=
  { s with
    waiters :=
      match s.table.get? k with
      | some w => s.answer w v
      | none => s.waiters
    said := s.said ++ [(k, v)] }

/-- A waiter leaves, and takes its entry with it. -/
def leave (s : Rendezvous κ ν) (w : ℕ) : Rendezvous κ ν :=
  match s.waiters[w]? with
  | some x =>
    { s with
      table := if s.table.get? x.key = some w then s.table.erase x.key else s.table
      waiters := s.waiters.set w { x with left := true } }
  | none => s

/-- Several waiters leave. -/
def leaveAll (s : Rendezvous κ ν) (ws : List ℕ) : Rendezvous κ ν := ws.foldl leave s

/-- Something is said under a key, and the waiter that hears it leaves. -/
def deliver (s : Rendezvous κ ν) (k : κ) (v : ν) : Rendezvous κ ν :=
  match s.table.get? k with
  | some w => (s.say k v).leave w
  | none => s.say k v

/-- The first thing said under the key of a waiter since it registered. -/
def firstSaid (s : Rendezvous κ ν) (x : Waiter κ ν) : Option ν :=
  ((s.said.drop x.since).find? fun e => e.1 = x.key).map Prod.snd

/-- No later waiter has displaced this one. -/
def Latest (s : Rendezvous κ ν) (w : ℕ) (x : Waiter κ ν) : Prop :=
  ∀ w' y, w < w' → s.waiters[w']? = some y → y.key ≠ x.key

/-- A waiter has its place in the table. -/
def Seated (s : Rendezvous κ ν) (k : κ) (w : ℕ) : Prop :=
  ∃ x, s.waiters[w]? = some x ∧ x.key = k ∧ x.left = false ∧ s.Latest w x

/-- What the operations keep. -/
structure Inv (s : Rendezvous κ ν) : Prop where
  since_le : ∀ (w : ℕ) (x : Waiter κ ν), s.waiters[w]? = some x → x.since ≤ s.said.length
  table_iff : ∀ k w, s.table.get? k = some w ↔ s.Seated k w
  answered : ∀ (w : ℕ) (x : Waiter κ ν) (v : ν),
    s.waiters[w]? = some x → x.answer = some v → s.firstSaid x = some v
  current : ∀ (k : κ) (w : ℕ) (x : Waiter κ ν),
    s.table.get? k = some w → s.waiters[w]? = some x → x.answer = s.firstSaid x

/-! ## What the operations do -/

/-- What is said last is the first thing said to those who had heard nothing. -/
theorem firstSaid_concat (h : x.since ≤ s.said.length) (waiters : List (Waiter κ ν))
    (table : Dict κ ℕ) :
    firstSaid ⟨table, waiters, s.said ++ [(k, v)]⟩ x =
      (s.firstSaid x).or (if k = x.key then some v else none) := by
  unfold firstSaid
  rw [List.drop_append_of_le_length h, List.find?_append, Option.map_or]
  by_cases hk : k = x.key <;> simp [hk]

/-- The waiters after something was said: at most an answer was added. -/
theorem getElem?_say :
    (s.say k v).waiters[w]? = some y ↔ ∃ x, s.waiters[w]? = some x ∧
      y = { x with
        answer := if s.table.get? k = some w then x.answer.or (some v) else x.answer } := by
  have hwaiters : (s.say k v).waiters =
      match s.table.get? k with
      | some w => s.answer w v
      | none => s.waiters := rfl
  rw [hwaiters]
  split
  next u hu =>
    unfold answer
    -- the waiter in the table is the only one that hears
    split
    next z hz =>
      rw [GrowingList.getElem?_set_iff hz]
      constructor
      · rintro (⟨rfl, rfl⟩ | ⟨hne, hy⟩)
        · exact ⟨z, hz, by rw [if_pos hu]⟩
        · refine ⟨y, hy, ?_⟩
          rw [if_neg]
          exact fun h => hne (Option.some.inj (hu.symm.trans h)).symm
      · rintro ⟨x, hx, rfl⟩
        by_cases hw : w = u
        · subst hw
          obtain rfl := Option.some.inj (hx.symm.trans hz)
          exact .inl ⟨rfl, by rw [if_pos hu]⟩
        · refine .inr ⟨hw, ?_⟩
          rw [if_neg fun h => hw (Option.some.inj (hu.symm.trans h)).symm]
          exact hx
    next hz =>
      have hne : ∀ x, s.waiters[w]? = some x → s.table.get? k ≠ some w := by
        intro x hx h
        obtain rfl := Option.some.inj (hu.symm.trans h)
        cases hz.symm.trans hx
      constructor
      · exact fun hy => ⟨y, hy, by rw [if_neg (hne y hy)]⟩
      · rintro ⟨x, hx, rfl⟩
        rw [if_neg (hne x hx)]
        exact hx
  next hnone => simp [hnone, eq_comm]

/-- The waiters after one of them left. -/
theorem getElem?_leave :
    (s.leave w).waiters[w']? = some y ↔
      ∃ x, s.waiters[w']? = some x ∧ y = { x with left := x.left || decide (w' = w) } := by
  unfold leave
  split
  next z hz =>
    rw [GrowingList.getElem?_set_iff hz]
    constructor
    · rintro (⟨rfl, rfl⟩ | ⟨hne, hy⟩)
      · exact ⟨z, hz, by simp⟩
      · exact ⟨y, hy, by simp [hne]⟩
    · rintro ⟨x, hx, rfl⟩
      by_cases hw : w' = w
      · subst hw
        obtain rfl := Option.some.inj (hx.symm.trans hz)
        exact .inl ⟨rfl, by simp⟩
      · exact .inr ⟨hw, by simpa [hw] using hx⟩
  next hz =>
    have hne : ∀ x, s.waiters[w']? = some x → w' ≠ w := by
      rintro x hx rfl
      cases hz.symm.trans hx
    constructor
    · exact fun hy => ⟨y, hy, by simp [hne y hy]⟩
    · rintro ⟨x, hx, rfl⟩
      simpa [hne x hx] using hx

/-- The waiters after one registered. -/
theorem getElem?_register : (s.register k).waiters[w]? = some x ↔
    s.waiters[w]? = some x ∨ w = s.waiters.length ∧ x = ⟨k, s.said.length, none, false⟩ :=
  GrowingList.getElem?_concat_iff

@[simp] theorem said_leave (w : ℕ) : (s.leave w).said = s.said := by
  unfold leave
  split <;> rfl

@[simp] theorem said_leaveAll (ws : List ℕ) : (s.leaveAll ws).said = s.said := by
  induction ws generalizing s with
  | nil => rfl
  | cons w ws ih => exact ih.trans (said_leave w)

/-- The waiters after several of them left. -/
theorem getElem?_leaveAll {ws : List ℕ} :
    (s.leaveAll ws).waiters[w]? = some y ↔
      ∃ x, s.waiters[w]? = some x ∧ y = { x with left := x.left || decide (w ∈ ws) } := by
  induction ws generalizing s with
  | nil => simp [leaveAll, eq_comm]
  | cons u ws ih =>
    have hcons : s.leaveAll (u :: ws) = (s.leave u).leaveAll ws := rfl
    rw [hcons, ih]
    constructor
    · rintro ⟨z, hz, rfl⟩
      obtain ⟨x, hx, rfl⟩ := getElem?_leave.1 hz
      exact ⟨x, hx, by simp [Bool.or_assoc]⟩
    · rintro ⟨x, hx, rfl⟩
      exact ⟨_, getElem?_leave.2 ⟨x, hx, rfl⟩, by simp [Bool.or_assoc]⟩

@[simp] theorem said_deliver : (s.deliver k v).said = s.said ++ [(k, v)] := by
  unfold deliver
  split <;> simp [say]

/-- The waiters after something was said to one that then left. -/
theorem getElem?_deliver : (s.deliver k v).waiters[w]? = some y ↔ ∃ x, s.waiters[w]? = some x ∧
    y = if s.table.get? k = some w then { x with answer := x.answer.or (some v), left := true }
      else x := by
  unfold deliver
  split
  next u hu =>
    rw [getElem?_leave]
    constructor
    · rintro ⟨z, hz, rfl⟩
      obtain ⟨x, hx, rfl⟩ := getElem?_say.1 hz
      refine ⟨x, hx, ?_⟩
      by_cases hw : w = u
      · subst hw
        simp [hu]
      · simp [hu, Ne.symm hw, hw]
    · rintro ⟨x, hx, rfl⟩
      refine ⟨_, getElem?_say.2 ⟨x, hx, rfl⟩, ?_⟩
      by_cases hw : w = u
      · subst hw
        simp [hu]
      · simp [hu, Ne.symm hw, hw]
  next hnone =>
    rw [getElem?_say]
    simp [hnone]

/-! ## The invariant -/

theorem inv_init : Inv (init : Rendezvous κ ν) := by
  constructor
  case since_le => rintro w x ⟨⟩
  case table_iff =>
    intro k w
    constructor
    · rintro ⟨⟩
    · rintro ⟨x, ⟨⟩, -⟩
  case answered => rintro w x v ⟨⟩
  case current => rintro k w x ⟨⟩

/-- The invariant is kept when a waiter registers. -/
theorem Inv.register (hinv : Inv s) (k : κ) : Inv (s.register k) := by
  have hlt : ∀ (w : ℕ) (x : Waiter κ ν), s.waiters[w]? = some x → w < s.waiters.length :=
    fun w x hw => (List.getElem?_eq_some_iff.1 hw).1
  constructor
  case since_le =>
    intro w x hw
    rcases getElem?_register.1 hw with hw | ⟨-, rfl⟩
    · exact hinv.since_le w x hw
    · exact le_rfl
  case table_iff =>
    intro k' w
    have htable : (s.register k).table.get? k' =
        if k' = k then some s.waiters.length else s.table.get? k' := Dict.get?_set _ _ _ _
    rw [htable]
    split
    next hk =>
      subst hk
      -- the new waiter displaces the one before it under its key
      constructor
      · rintro ⟨⟩
        refine ⟨_, getElem?_register.2 (.inr ⟨rfl, rfl⟩), rfl, rfl, fun w' y hlt' hy => ?_⟩
        rcases getElem?_register.1 hy with hy | ⟨rfl, -⟩
        · exact absurd (hlt w' y hy) (Nat.lt_asymm hlt')
        · exact absurd hlt' (lt_irrefl _)
      · rintro ⟨x, hx, hkey, -, hlatest⟩
        rcases getElem?_register.1 hx with hx | ⟨rfl, -⟩
        · exact absurd hkey.symm (hlatest _ _ (hlt w x hx) (getElem?_register.2 (.inr ⟨rfl, rfl⟩)))
        · rfl
    next hk =>
      rw [hinv.table_iff]
      constructor
      · rintro ⟨x, hx, hkey, hleft, hlatest⟩
        refine ⟨x, getElem?_register.2 (.inl hx), hkey, hleft, fun w' y hlt' hy => ?_⟩
        rcases getElem?_register.1 hy with hy | ⟨-, rfl⟩
        · exact hlatest w' y hlt' hy
        -- the new waiter has another key
        · exact fun heq => hk (hkey.symm.trans heq.symm)
      · rintro ⟨x, hx, hkey, hleft, hlatest⟩
        rcases getElem?_register.1 hx with hx | ⟨-, rfl⟩
        · exact ⟨x, hx, hkey, hleft,
            fun w' y hlt' hy => hlatest w' y hlt' (getElem?_register.2 (.inl hy))⟩
        · exact absurd hkey.symm hk
  case answered =>
    intro w x v hw hanswer
    rcases getElem?_register.1 hw with hw | ⟨-, rfl⟩
    · exact hinv.answered w x v hw hanswer
    · cases hanswer
  case current =>
    intro k' w x hk' hw
    rcases getElem?_register.1 hw with hold | ⟨-, rfl⟩
    · have hne : k' ≠ k := by
        rintro rfl
        have hself := Dict.get?_set_self s.table k' s.waiters.length
        have hw : w = s.waiters.length := Option.some.inj (hk'.symm.trans hself)
        exact (hlt w x hold).ne hw
      have hkeep : s.table.get? k' = some w := (Dict.get?_set_of_ne _ hne _).symm.trans hk'
      exact hinv.current k' w x hkeep hold
    · simp [firstSaid, Rendezvous.register]

/-- Whether a waiter has a place does not depend on what is said. -/
theorem seated_say : (s.say k v).Seated k' w ↔ s.Seated k' w := by
  constructor
  · rintro ⟨y, hy, rfl, hleft, hlatest⟩
    obtain ⟨x, hx, rfl⟩ := getElem?_say.1 hy
    refine ⟨x, hx, rfl, hleft, fun w' z hlt hz => ?_⟩
    have hne := hlatest w' _ hlt ((getElem?_say (k := k) (v := v)).2 ⟨z, hz, rfl⟩)
    exact hne
  · rintro ⟨x, hx, rfl, hleft, hlatest⟩
    refine ⟨_, getElem?_say.2 ⟨x, hx, rfl⟩, rfl, hleft, fun w' y hlt hy => ?_⟩
    obtain ⟨z, hz, rfl⟩ := getElem?_say.1 hy
    exact hlatest w' z hlt hz

/-- A waiter in the table waits under the key of its entry. -/
theorem Inv.key_eq (hinv : Inv s) (hk : s.table.get? k = some w) (hw : s.waiters[w]? = some x) :
    x.key = k := by
  obtain ⟨y, hy, hkey, -⟩ := (hinv.table_iff k w).1 hk
  obtain rfl := Option.some.inj (hw.symm.trans hy)
  exact hkey

/-- The invariant is kept when something is said. -/
theorem Inv.say (hinv : Inv s) (k : κ) (v : ν) : Inv (s.say k v) := by
  have hfirst : ∀ (w : ℕ) (x : Waiter κ ν) (a : Option ν), s.waiters[w]? = some x →
      (s.say k v).firstSaid { x with answer := a } =
        (s.firstSaid x).or (if k = x.key then some v else none) :=
    fun w x _ hw => firstSaid_concat (hinv.since_le w x hw) _ _
  constructor
  case since_le =>
    intro w y hy
    obtain ⟨x, hx, rfl⟩ := getElem?_say.1 hy
    exact (hinv.since_le w x hx).trans (by simp [Rendezvous.say])
  case table_iff => exact fun k' w => (hinv.table_iff k' w).trans seated_say.symm
  case answered =>
    intro w y v' hy hanswer
    obtain ⟨x, hx, rfl⟩ := getElem?_say.1 hy
    rw [hfirst w x _ hx]
    -- who is in the table has heard what was said first, others do not hear this
    by_cases hk : s.table.get? k = some w
    · simp only [hk, ↓reduceIte] at hanswer
      rwa [if_pos (hinv.key_eq hk hx).symm, ← hinv.current k w x hk hx]
    · simp only [hk, ↓reduceIte] at hanswer
      rw [hinv.answered w x v' hx hanswer]
      rfl
  case current =>
    intro k' w y hk' hy
    obtain ⟨x, hx, rfl⟩ := getElem?_say.1 hy
    rw [hfirst w x _ hx, ← hinv.current k' w x hk' hx]
    by_cases hk : s.table.get? k = some w
    · simp [hk, hinv.key_eq hk hx]
    · have hne : k ≠ x.key := by
        rintro rfl
        rw [hinv.key_eq hk' hx] at hk
        exact hk hk'
      simp [hk, hne]

/-- The table without the waiter that left. -/
theorem Inv.get?_leave (hinv : Inv s) :
    (s.leave w).table.get? k = some w' ↔ s.table.get? k = some w' ∧ w' ≠ w := by
  unfold leave
  split
  next x hx =>
    -- a waiter that was displaced has no entry to take along
    by_cases hseat : s.table.get? x.key = some w
    · simp only [hseat, ↓reduceIte]
      by_cases hk : k = x.key
      · subst hk
        rw [Dict.get?_erase_self, hseat]
        constructor
        · rintro ⟨⟩
        · rintro ⟨⟨⟩, hne⟩
          exact absurd rfl hne
      · rw [Dict.get?_erase_of_ne _ hk]
        refine ⟨fun hget => ⟨hget, ?_⟩, And.left⟩
        rintro rfl
        exact hk (hinv.key_eq hget hx).symm
    · simp only [hseat, ↓reduceIte]
      refine ⟨fun hget => ⟨hget, ?_⟩, And.left⟩
      rintro rfl
      rw [hinv.key_eq hget hx] at hseat
      exact hseat hget
  next hnone =>
    refine ⟨fun hget => ⟨hget, ?_⟩, And.left⟩
    rintro rfl
    obtain ⟨x, hx, -⟩ := (hinv.table_iff k w').1 hget
    rw [hnone] at hx
    cases hx

/-- The invariant is kept when a waiter leaves. -/
theorem Inv.leave (hinv : Inv s) (w : ℕ) : Inv (s.leave w) := by
  have hsaid : (s.leave w).said = s.said := said_leave w
  have hfirst : ∀ (x : Waiter κ ν) (b : Bool),
      (s.leave w).firstSaid { x with left := b } = s.firstSaid x := by
    intro x b
    rw [firstSaid, hsaid]
    rfl
  constructor
  case since_le =>
    intro w' y hy
    obtain ⟨x, hx, rfl⟩ := getElem?_leave.1 hy
    rw [hsaid]
    exact hinv.since_le w' x hx
  case table_iff =>
    intro k w'
    rw [hinv.get?_leave, hinv.table_iff]
    constructor
    -- a waiter that leaves stays in the history, so the latest under each key stays the latest
    · rintro ⟨⟨x, hx, rfl, hleft, hlatest⟩, hne⟩
      refine ⟨_, getElem?_leave.2 ⟨x, hx, rfl⟩, rfl, by simp [hleft, hne], fun u y hlt hy => ?_⟩
      obtain ⟨z, hz, rfl⟩ := getElem?_leave.1 hy
      exact hlatest u z hlt hz
    · rintro ⟨y, hy, rfl, hleft, hlatest⟩
      obtain ⟨x, hx, rfl⟩ := getElem?_leave.1 hy
      obtain ⟨hleft, hne⟩ : x.left = false ∧ w' ≠ w := by simpa using hleft
      refine ⟨⟨x, hx, rfl, hleft, fun u z hlt hz => ?_⟩, hne⟩
      have hne := hlatest u _ hlt ((getElem?_leave (w := w)).2 ⟨z, hz, rfl⟩)
      exact hne
  case answered =>
    intro w' y v hy hanswer
    obtain ⟨x, hx, rfl⟩ := getElem?_leave.1 hy
    rw [hfirst]
    exact hinv.answered w' x v hx hanswer
  case current =>
    intro k w' y hk hy
    obtain ⟨x, hx, rfl⟩ := getElem?_leave.1 hy
    rw [hfirst]
    exact hinv.current k w' x (hinv.get?_leave.1 hk).1 hx

theorem Inv.leaveAll (hinv : Inv s) (ws : List ℕ) : Inv (s.leaveAll ws) := by
  induction ws generalizing s with
  | nil => exact hinv
  | cons w ws ih => exact ih (hinv.leave w)

theorem Inv.deliver (hinv : Inv s) (k : κ) (v : ν) : Inv (s.deliver k v) := by
  unfold Rendezvous.deliver
  split
  next w hw => exact (hinv.say k v).leave w
  next => exact hinv.say k v

/-! ## Later states -/

/-- What the operations leave of a waiter: what it waits for, and, once it left, its answer. -/
structure Extends (s t : Rendezvous κ ν) : Prop where
  waiter : ∀ (w : ℕ) (x : Waiter κ ν), s.waiters[w]? = some x → ∃ y, t.waiters[w]? = some y ∧
    y.key = x.key ∧ y.since = x.since ∧
    (x.left = true → y.left = true ∧ y.answer = x.answer)
  said : s.said <+: t.said

theorem extends_register : Extends s (s.register k) where
  waiter _ x hw := ⟨x, getElem?_register.2 (.inl hw), rfl, rfl, fun hleft => ⟨hleft, rfl⟩⟩
  said := List.prefix_rfl

theorem extends_leaveAll (ws : List ℕ) : Extends s (s.leaveAll ws) where
  waiter w x hw := by
    refine ⟨_, getElem?_leaveAll.2 ⟨x, hw, rfl⟩, rfl, rfl, fun hleft => ⟨?_, rfl⟩⟩
    simp [hleft]
  said := by
    rw [said_leaveAll]

/-- A waiter in the table has not left, so what is said later does not reach those that have. -/
theorem Inv.extends_deliver (hinv : Inv s) (k : κ) (v : ν) : Extends s (s.deliver k v) where
  waiter w x hw := by
    refine ⟨_, getElem?_deliver.2 ⟨x, hw, rfl⟩, ?_⟩
    split
    next hk =>
      refine ⟨rfl, rfl, fun hleft => ?_⟩
      obtain ⟨y, hy, -, hstays, -⟩ := (hinv.table_iff k w).1 hk
      obtain rfl := Option.some.inj (hw.symm.trans hy)
      cases hleft.symm.trans hstays
    next => exact ⟨rfl, rfl, fun hleft => ⟨hleft, rfl⟩⟩
  said := by
    rw [said_deliver]
    exact List.prefix_append _ _

end Rendezvous
