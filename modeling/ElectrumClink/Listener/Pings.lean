import ElectrumClink.Data.Rendezvous
import ElectrumClink.Data.Transition
import ElectrumClink.Listener.Watchdog

/-!
# The self-pings

`ping_listener` publishes a ping over each relay and waits until the pings come back to `_dispatch`.
Both share `_pending_pings`, a table of the pings that have not come back. The relays that it drops
are those whose pings did not come back in time (`pingListener_verdict`), and the table keeps none
of its pings, unless it was cancelled while it still sent some (`pendingPings_get?_iff`).

`Pings.step` performs what a call of `ping_listener` does between two awaits, and what `_dispatch`
does with the events meanwhile.
-/

namespace ElectrumClink

/-- Where a call of `ping_listener` is. -/
inductive PingStage
  /-- It awaits the `add_event` of its last ping. -/
  | sending
  /-- It awaits its waiters. -/
  | waiting
  /-- It goes on with the relays that it does not hear. -/
  | returned (failed : List Watchdog.Relay)
  /-- It was cancelled while it sent its pings: the `finally` does not cover that. -/
  | abandoned
  /-- It was cancelled while it waited. -/
  | cancelled
deriving DecidableEq

/-- A call of `ping_listener`. -/
structure PingCall where
  /-- The relays of the manager when it was called; no step reads them. -/
  relays : List Watchdog.Relay
  /-- The relays that it has not pinged yet. -/
  remaining : List Watchdog.Relay
  /-- The relays that it has pinged, each with its waiter. -/
  pinged : List (Watchdog.Relay × ℕ)
  stage : PingStage
  /-- How many events had come in when it stopped waiting; no step reads it. -/
  heard : ℕ
deriving DecidableEq

/-- The waiters of a call. -/
def PingCall.waiters (call : PingCall) : List ℕ := call.pinged.map Prod.snd

/-- The self-pings of a server. -/
structure Pings where
  /-- `_pending_pings`, with every event that came in. -/
  pending : Rendezvous EventId Unit
  calls : List PingCall

/-- What can happen next. -/
inductive PingAction
  /-- `ping_listener` is called over these relays; the event is the ping of the first. -/
  | call (relay : Watchdog.Relay) (relays : List Watchdog.Relay) (id : EventId)
  /-- An `add_event` is over, whether it returned, raised or timed out; the event is the next ping,
  if there is one. -/
  | sendOver (call : ℕ) (id : EventId)
  /-- `_dispatch` takes an event. -/
  | dispatch (id : EventId)
  /-- All pings of a call have come back. -/
  | gathered (call : ℕ)
  /-- They did not in time. -/
  | timedOut (call : ℕ)
  | cancel (call : ℕ)

namespace Pings

/-- No ping was sent. -/
def init : Pings := ⟨.init, []⟩

/-- `waiter.is_set()`. -/
def isSet (s : Pings) (w : ℕ) : Bool := ((s.pending.waiters[w]?).bind Waiter.answer).isSome

/-- No ping before was this event: its content is drawn at random. -/
def Fresh (s : Pings) (id : EventId) : Prop := ∀ x ∈ s.pending.waiters, x.key ≠ id

instance (s : Pings) (id : EventId) : Decidable (s.Fresh id) :=
  inferInstanceAs (Decidable (∀ x ∈ s.pending.waiters, x.key ≠ id))

/-- A call gets on. -/
def setCall (s : Pings) (c : ℕ) (call : PingCall) : Pings :=
  { s with calls := s.calls.set c call }

/-- A call pings the next relay. -/
def ping (s : Pings) (c : ℕ) (call : PingCall) (relay : Watchdog.Relay)
    (relays : List Watchdog.Relay) (id : EventId) : Pings :=
  { s.setCall c { call with
      remaining := relays
      pinged := call.pinged ++ [(relay, s.pending.waiters.length)] } with
    pending := s.pending.register id }

/-- The relays of the pings that have not come back. -/
def failed (s : Pings) (call : PingCall) : List Watchdog.Relay :=
  (call.pinged.filter fun p => !s.isSet p.2).map Prod.fst

/-- A call stops waiting, and its `finally` clears the table. -/
def leave (s : Pings) (c : ℕ) (call : PingCall) (stage : PingStage) : Pings :=
  { s.setCall c { call with stage := stage, heard := s.pending.said.length } with
    pending := s.pending.leaveAll call.waiters }

/-- Perform an action, if it is enabled. -/
def step (s : Pings) : PingAction → Option Pings
  | .call relay relays id =>
    if s.Fresh id then
      let call : PingCall := ⟨relay :: relays, relay :: relays, [], .sending, 0⟩
      some ({ s with calls := s.calls ++ [call] }.ping s.calls.length call relay relays id)
    else none
  | .sendOver c id =>
    (s.calls[c]?).bind fun call =>
      if call.stage = .sending then
        match call.remaining with
        | [] => some (s.setCall c { call with stage := .waiting })
        | relay :: relays => if s.Fresh id then some (s.ping c call relay relays id) else none
      else none
  | .dispatch id => some { s with pending := s.pending.deliver id () }
  | .gathered c =>
    (s.calls[c]?).bind fun call =>
      if call.stage = .waiting ∧ ∀ w ∈ call.waiters, s.isSet w = true then
        some (s.leave c call (.returned (s.failed call)))
      else none
  | .timedOut c =>
    (s.calls[c]?).bind fun call =>
      if call.stage = .waiting then some (s.leave c call (.returned (s.failed call))) else none
  | .cancel c =>
    (s.calls[c]?).bind fun call =>
      match call.stage with
      | .sending => some (s.setCall c { call with stage := .abandoned })
      | .waiting => some (s.leave c call .cancelled)
      | _ => none

/-- The states that a run reaches. -/
abbrev Reachable : Pings → Prop := Transition.Reachable step (fun _ _ => True) init

end Pings

/-! ## The invariant -/

/-- The pings of a call stay in the table until they come back. -/
def PingStage.Holds : PingStage → Prop
  | .sending | .waiting | .abandoned => True
  | .returned _ | .cancelled => False

/-- Every relay was pinged. -/
def PingStage.Sent : PingStage → Prop
  | .waiting | .returned _ => True
  | _ => False

namespace Pings

variable {s t : Pings} {c c' : ℕ} {call call' : PingCall} {id : EventId}
  {relay : Watchdog.Relay} {relays failed : List Watchdog.Relay} {w w' : ℕ}

/-- An event with the id of a ping came in between its registration and the end of the call. -/
def Echoed (s : Pings) (call : PingCall) (x : Waiter EventId Unit) : Prop :=
  x.key ∈ ((s.pending.said.take call.heard).drop x.since).map Prod.fst

/-- A call that returned has judged its relays by what came in. -/
structure Judged (s : Pings) (call : PingCall) (failed : List Watchdog.Relay) : Prop where
  failed : failed = s.failed call
  heard : call.heard ≤ s.pending.said.length
  waiter : ∀ w ∈ call.waiters, ∃ x, s.pending.waiters[w]? = some x ∧ x.left = true ∧
    (x.answer.isSome = true ↔ s.Echoed call x)

/-- What is known of a call. -/
structure CallInv (s : Pings) (call : PingCall) : Prop where
  relays : call.pinged.map Prod.fst ++ call.remaining = call.relays
  sent : call.stage.Sent → call.remaining = []
  nodup : call.waiters.Nodup
  waiter : ∀ w ∈ call.waiters, ∃ x, s.pending.waiters[w]? = some x ∧
    (call.stage.Holds → x.left = false ∨ x.answer.isSome = true)
  returned : ∀ failed, call.stage = .returned failed → s.Judged call failed

/-- What every step keeps. -/
structure PingsInv (s : Pings) : Prop where
  pending : s.pending.Inv
  /-- A ping that came back has left the table. -/
  unset : ∀ (w : ℕ) (x : Waiter EventId Unit),
    s.pending.waiters[w]? = some x → x.left = false → x.answer = none
  keys : ∀ (w w' : ℕ) (x x' : Waiter EventId Unit), s.pending.waiters[w]? = some x →
    s.pending.waiters[w']? = some x' → x.key = x'.key → w = w'
  calls : ∀ (c : ℕ) (call : PingCall), s.calls[c]? = some call → s.CallInv call
  owner : ∀ (w : ℕ) (x : Waiter EventId Unit), s.pending.waiters[w]? = some x →
    ∃ (c : ℕ) (call : PingCall), s.calls[c]? = some call ∧ w ∈ call.waiters ∧
      (x.left = false → call.stage.Holds)
  apart : ∀ (c c' : ℕ) (call call' : PingCall) (w : ℕ), s.calls[c]? = some call →
    s.calls[c']? = some call' → w ∈ call.waiters → w ∈ call'.waiters → c = c'

/-- What a call has judged stays so. -/
theorem Judged.mono (h : s.Judged call failed) (hext : s.pending.Extends t.pending) :
    t.Judged call failed := by
  have hget : ∀ w ∈ call.waiters, ∃ x y, s.pending.waiters[w]? = some x ∧
      t.pending.waiters[w]? = some y ∧ y.key = x.key ∧ y.since = x.since ∧ y.left = true ∧
      y.answer = x.answer ∧ (x.answer.isSome = true ↔ s.Echoed call x) := by
    intro w hw
    obtain ⟨x, hx, hleft, hechoed⟩ := h.waiter w hw
    obtain ⟨y, hy, hkey, hsince, hover⟩ := hext.waiter w x hx
    obtain ⟨hleft', hanswer⟩ := hover hleft
    exact ⟨x, y, hx, hy, hkey, hsince, hleft', hanswer, hechoed⟩
  have htake : t.pending.said.take call.heard = s.pending.said.take call.heard := by
    obtain ⟨rest, hrest⟩ := hext.said
    rw [← hrest, List.take_append_of_le_length h.heard]
  constructor
  case failed =>
    rw [h.failed]
    unfold Pings.failed
    congr 1
    refine List.filter_congr fun p hp => ?_
    obtain ⟨x, y, hx, hy, -, -, -, hanswer, -⟩ := hget p.2 (List.mem_map_of_mem hp)
    simp only [isSet, hx, hy, Option.bind_some, hanswer]
  case heard => exact h.heard.trans hext.said.length_le
  case waiter =>
    intro w hw
    obtain ⟨x, y, -, hy, hkey, hsince, hleft, hanswer, hechoed⟩ := hget w hw
    refine ⟨y, hy, hleft, ?_⟩
    rw [hanswer, hechoed, Echoed, Echoed, hkey, hsince, htake]

/-- What is known of a call, once the table changed. -/
theorem CallInv.mono (h : s.CallInv call) (hext : s.pending.Extends t.pending)
    (hholds : call.stage.Holds → ∀ w ∈ call.waiters, ∀ x, s.pending.waiters[w]? = some x →
      (x.left = false ∨ x.answer.isSome = true) →
        ∃ y, t.pending.waiters[w]? = some y ∧ (y.left = false ∨ y.answer.isSome = true)) :
    t.CallInv call where
  relays := h.relays
  sent := h.sent
  nodup := h.nodup
  waiter w hw := by
    obtain ⟨x, hx, hx'⟩ := h.waiter w hw
    obtain ⟨y, hy, -⟩ := hext.waiter w x hx
    refine ⟨y, hy, fun hhold => ?_⟩
    obtain ⟨y', hy', hgoal⟩ := hholds hhold w hw x hx (hx' hhold)
    obtain rfl := Option.some.inj (hy.symm.trans hy')
    exact hgoal
  returned failed hfailed := (h.returned failed hfailed).mono hext

/-- The pings of a call are older than the next. -/
theorem CallInv.lt_length (h : s.CallInv call) (hw : w ∈ call.waiters) :
    w < s.pending.waiters.length := by
  obtain ⟨x, hx, -⟩ := h.waiter w hw
  exact (List.getElem?_eq_some_iff.1 hx).1

/-! ## The steps -/

/-- A call with no pings yet. -/
theorem PingsInv.concat (h : PingsInv s) (relays : List Watchdog.Relay) :
    PingsInv { s with calls := s.calls ++ [⟨relays, relays, [], .sending, 0⟩] } := by
  have hnew : ∀ w, w ∉ (⟨relays, relays, [], .sending, 0⟩ : PingCall).waiters := fun _ => by
    rintro ⟨⟩
  constructor
  case pending => exact h.pending
  case unset => exact h.unset
  case keys => exact h.keys
  case calls =>
    intro c call hcall
    rcases GrowingList.getElem?_concat_iff.1 hcall with hcall | ⟨-, rfl⟩
    · exact (h.calls c call hcall).mono (Rendezvous.extends_leaveAll [])
        fun _ _ _ x hx hgoal => ⟨x, hx, hgoal⟩
    · exact ⟨rfl, False.elim, List.nodup_nil, fun w hw => absurd hw (hnew w), by rintro _ ⟨⟩⟩
  case owner =>
    intro w x hx
    obtain ⟨c, call, hcall, hrest⟩ := h.owner w x hx
    exact ⟨c, call, GrowingList.getElem?_concat_iff.2 (.inl hcall), hrest⟩
  case apart =>
    intro c c' call call' w hcall hcall' hw hw'
    rcases GrowingList.getElem?_concat_iff.1 hcall with hcall | ⟨-, rfl⟩
    · rcases GrowingList.getElem?_concat_iff.1 hcall' with hcall' | ⟨-, rfl⟩
      · exact h.apart c c' call call' w hcall hcall' hw hw'
      · exact absurd hw' (hnew w)
    · exact absurd hw (hnew w)

/-- A new ping is none of those before it. -/
theorem notMem_waiters_length (h : s.CallInv call) : s.pending.waiters.length ∉ call.waiters :=
  fun hmem => (h.lt_length hmem).false

/-- A call pings the next relay. -/
theorem PingsInv.ping (h : PingsInv s) (hcall : s.calls[c]? = some call)
    (hstage : call.stage = .sending) (hremaining : call.remaining = relay :: relays)
    (hfresh : s.Fresh id) : PingsInv (s.ping c call relay relays id) := by
  have hinv := h.calls c call hcall
  have hget : ∀ c' call', (s.ping c call relay relays id).calls[c']? = some call' ↔
      c' = c ∧ call' = { call with
        remaining := relays
        pinged := call.pinged ++ [(relay, s.pending.waiters.length)] } ∨
      c' ≠ c ∧ s.calls[c']? = some call' := fun _ _ => GrowingList.getElem?_set_iff hcall
  have hwaiters : PingCall.waiters { call with
      remaining := relays
      pinged := call.pinged ++ [(relay, s.pending.waiters.length)] } =
        call.waiters ++ [s.pending.waiters.length] := by
    rw [PingCall.waiters, List.map_append]
    rfl
  have hext : s.pending.Extends (s.ping c call relay relays id).pending :=
    Rendezvous.extends_register
  have hregistered : ∀ w x, (s.ping c call relay relays id).pending.waiters[w]? = some x ↔
      s.pending.waiters[w]? = some x ∨ w = s.pending.waiters.length ∧
        x = ⟨id, s.pending.said.length, none, false⟩ := fun _ _ => Rendezvous.getElem?_register
  -- nothing is taken away from the calls
  have hkeep : ∀ call', s.CallInv call' → (s.ping c call relay relays id).CallInv call' :=
    fun call' hinv' => hinv'.mono hext fun _ w hw x hx hgoal =>
      ⟨x, (hregistered w x).2 (.inl hx), hgoal⟩
  constructor
  case pending => exact h.pending.register id
  case unset =>
    intro w x hx hleft
    rcases (hregistered w x).1 hx with hx | ⟨-, rfl⟩
    · exact h.unset w x hx hleft
    · rfl
  case keys =>
    intro w w' x x' hx hx' hkey
    rcases (hregistered w x).1 hx with hx | ⟨rfl, rfl⟩ <;>
      rcases (hregistered w' x').1 hx' with hx' | ⟨rfl, rfl⟩
    · exact h.keys w w' x x' hx hx' hkey
    -- the event of the new ping is not that of another one
    · exact absurd hkey (hfresh x (List.mem_of_getElem? hx))
    · exact absurd hkey.symm (hfresh x' (List.mem_of_getElem? hx'))
    · rfl
  case calls =>
    intro c' call' hcall'
    rcases (hget c' call').1 hcall' with ⟨-, rfl⟩ | ⟨-, hcall'⟩
    · have hkept := hkeep call hinv
      constructor
      case relays =>
        rw [← hinv.relays, hremaining, List.map_append, List.append_assoc]
        rfl
      case sent =>
        rw [hstage]
        exact False.elim
      case nodup =>
        rw [hwaiters]
        exact hinv.nodup.append (List.nodup_singleton _)
          (by simpa using notMem_waiters_length hinv)
      case waiter =>
        rw [hwaiters]
        intro w hw
        rcases List.mem_append.1 hw with hw | hw
        · exact hkept.waiter w hw
        · rw [List.mem_singleton.1 hw]
          exact ⟨_, (hregistered _ _).2 (.inr ⟨rfl, rfl⟩), fun _ => .inl rfl⟩
      case returned =>
        intro failed hfailed
        cases hstage.symm.trans hfailed
    · exact hkeep call' (h.calls c' call' hcall')
  case owner =>
    intro w x hx
    rcases (hregistered w x).1 hx with hx | ⟨rfl, rfl⟩
    · obtain ⟨c', call', hcall', hw, hholds⟩ := h.owner w x hx
      by_cases hc : c' = c
      · subst hc
        obtain rfl := Option.some.inj (hcall.symm.trans hcall')
        refine ⟨c', _, (hget _ _).2 (.inl ⟨rfl, rfl⟩), ?_, hholds⟩
        rw [hwaiters]
        exact List.mem_append_left _ hw
      · exact ⟨c', call', (hget _ _).2 (.inr ⟨hc, hcall'⟩), hw, hholds⟩
    · refine ⟨c, _, (hget _ _).2 (.inl ⟨rfl, rfl⟩), ?_, fun _ => ?_⟩
      · rw [hwaiters]
        exact List.mem_append_right _ (List.mem_singleton.2 rfl)
      · rw [hstage]
        trivial
  case apart =>
    -- no other call has the new ping
    have hold : ∀ c' call', s.calls[c']? = some call' → c' ≠ c → ∀ w, w ∈ call'.waiters →
        w ∉ call.waiters ++ [s.pending.waiters.length] := by
      intro c' call' hcall' hne w hw hmem
      rcases List.mem_append.1 hmem with hmem | hmem
      · exact hne (h.apart c' c call' call w hcall' hcall hw hmem)
      · rw [List.mem_singleton.1 hmem] at hw
        exact notMem_waiters_length (h.calls c' call' hcall') hw
    intro c₁ c₂ call₁ call₂ w hcall₁ hcall₂ hw₁ hw₂
    rcases (hget c₁ call₁).1 hcall₁ with ⟨hc₁, rfl⟩ | ⟨hne₁, hold₁⟩ <;>
      rcases (hget c₂ call₂).1 hcall₂ with ⟨hc₂, rfl⟩ | ⟨hne₂, hold₂⟩
    · exact hc₁.trans hc₂.symm
    · rw [hwaiters] at hw₁
      exact absurd hw₁ (hold c₂ call₂ hold₂ hne₂ w hw₂)
    · rw [hwaiters] at hw₂
      exact absurd hw₂ (hold c₁ call₁ hold₁ hne₁ w hw₁)
    · exact h.apart c₁ c₂ call₁ call₂ w hold₁ hold₂ hw₁ hw₂

/-- An event comes in. -/
theorem PingsInv.deliver (h : PingsInv s) (id : EventId) :
    PingsInv { s with pending := s.pending.deliver id () } := by
  have hget : ∀ w y, (s.pending.deliver id ()).waiters[w]? = some y ↔
      ∃ x, s.pending.waiters[w]? = some x ∧
        y = if s.pending.table.get? id = some w then
          { x with answer := x.answer.or (some ()), left := true } else x :=
    fun _ _ => Rendezvous.getElem?_deliver
  constructor
  case pending => exact h.pending.deliver id ()
  case unset =>
    intro w y hy hleft
    obtain ⟨x, hx, rfl⟩ := (hget w y).1 hy
    -- a ping that is still in the table was not this one
    split at hleft
    next => cases hleft
    next hk =>
      rw [if_neg hk]
      exact h.unset w x hx hleft
  case keys =>
    intro w w' y y' hy hy' hkey
    obtain ⟨x, hx, rfl⟩ := (hget w y).1 hy
    obtain ⟨x', hx', rfl⟩ := (hget w' y').1 hy'
    refine h.keys w w' x x' hx hx' ?_
    split at hkey <;> split at hkey <;> exact hkey
  case calls =>
    intro c call hcall
    refine (h.calls c call hcall).mono (h.pending.extends_deliver id ()) fun _ w _ x hx hgoal => ?_
    refine ⟨_, (hget w _).2 ⟨x, hx, rfl⟩, ?_⟩
    split
    next => exact .inr (by cases x.answer <;> rfl)
    next => exact hgoal
  case owner =>
    intro w y hy
    obtain ⟨x, hx, rfl⟩ := (hget w y).1 hy
    obtain ⟨c, call, hcall, hw, hholds⟩ := h.owner w x hx
    refine ⟨c, call, hcall, hw, fun hleft => hholds ?_⟩
    split at hleft
    next => cases hleft
    next => exact hleft
  case apart => exact h.apart

/-- No two calls share a ping, as long as none takes another one. -/
theorem PingsInv.apart_set (h : PingsInv s) (hcall : s.calls[c]? = some call) (call' : PingCall)
    (hwaiters : call'.waiters = call.waiters) {c₁ c₂ : ℕ} {call₁ call₂ : PingCall}
    (hcall₁ : (s.calls.set c call')[c₁]? = some call₁)
    (hcall₂ : (s.calls.set c call')[c₂]? = some call₂) (hw₁ : w ∈ call₁.waiters)
    (hw₂ : w ∈ call₂.waiters) : c₁ = c₂ := by
  have hback : ∀ (i : ℕ) (new : PingCall), (s.calls.set c call')[i]? = some new →
      ∃ old : PingCall, s.calls[i]? = some old ∧ new.waiters = old.waiters := by
    intro i new hnew
    rcases (GrowingList.getElem?_set_iff hcall).1 hnew with ⟨rfl, rfl⟩ | ⟨-, hnew⟩
    · exact ⟨call, hcall, hwaiters⟩
    · exact ⟨new, hnew, rfl⟩
  obtain ⟨old₁, hold₁, hwaiters₁⟩ := hback c₁ call₁ hcall₁
  obtain ⟨old₂, hold₂, hwaiters₂⟩ := hback c₂ call₂ hcall₂
  exact h.apart c₁ c₂ old₁ old₂ w hold₁ hold₂ (hwaiters₁ ▸ hw₁) (hwaiters₂ ▸ hw₂)

/-- A call gets on to a stage at which its pings stay in the table. -/
theorem PingsInv.setStage (h : PingsInv s) (hcall : s.calls[c]? = some call)
    (hholds : call.stage.Holds) {stage : PingStage} (hholds' : stage.Holds)
    (hsent : stage.Sent → call.remaining = []) :
    PingsInv (s.setCall c { call with stage := stage }) := by
  have hinv := h.calls c call hcall
  have hget : ∀ c' call', (s.setCall c { call with stage := stage }).calls[c']? = some call' ↔
      c' = c ∧ call' = { call with stage := stage } ∨ c' ≠ c ∧ s.calls[c']? = some call' :=
    fun _ _ => GrowingList.getElem?_set_iff hcall
  constructor
  case pending => exact h.pending
  case unset => exact h.unset
  case keys => exact h.keys
  case calls =>
    intro c' call' hcall'
    rcases (hget c' call').1 hcall' with ⟨-, rfl⟩ | ⟨-, hcall'⟩
    · refine ⟨hinv.relays, hsent, hinv.nodup, fun w hw => ?_, fun failed hfailed => ?_⟩
      · obtain ⟨x, hx, hgoal⟩ := hinv.waiter w hw
        exact ⟨x, hx, fun _ => hgoal hholds⟩
      · obtain rfl : stage = .returned failed := hfailed
        exact hholds'.elim
    · exact (h.calls c' call' hcall').mono (Rendezvous.extends_leaveAll [])
        fun _ _ _ x hx hgoal => ⟨x, hx, hgoal⟩
  case owner =>
    intro w x hx
    obtain ⟨c', call', hcall', hw, hheld⟩ := h.owner w x hx
    by_cases hc : c' = c
    · subst hc
      obtain rfl := Option.some.inj (hcall.symm.trans hcall')
      exact ⟨c', _, (hget _ _).2 (.inl ⟨rfl, rfl⟩), hw, fun _ => hholds'⟩
    · exact ⟨c', call', (hget _ _).2 (.inr ⟨hc, hcall'⟩), hw, hheld⟩
  case apart => exact fun c₁ c₂ call₁ call₂ w => h.apart_set hcall { call with stage := stage } rfl

/-- A ping has its place in the table until it comes back or its call clears it. -/
theorem PingsInv.get?_iff (h : PingsInv s) : s.pending.table.get? id = some w ↔
    ∃ x, s.pending.waiters[w]? = some x ∧ x.key = id ∧ x.left = false := by
  rw [h.pending.table_iff]
  constructor
  · rintro ⟨x, hx, hkey, hleft, -⟩
    exact ⟨x, hx, hkey, hleft⟩
  · rintro ⟨x, hx, hkey, hleft⟩
    refine ⟨x, hx, hkey, hleft, fun w' y hlt hy heq => ?_⟩
    exact hlt.ne (h.keys w w' x y hx hy heq.symm)

/-- The pings of a call that have not come back by the end of its wait. -/
theorem PingsInv.judged (h : PingsInv s) (hcall : s.calls[c]? = some call)
    (hstage : call.stage = .waiting) (stage : PingStage) :
    (s.leave c call stage).Judged { call with stage := stage, heard := s.pending.said.length }
      (s.failed call) := by
  have hinv := h.calls c call hcall
  have hget : ∀ w y, (s.leave c call stage).pending.waiters[w]? = some y ↔
      ∃ x : Waiter EventId Unit, s.pending.waiters[w]? = some x ∧
        y = { x with left := x.left || decide (w ∈ call.waiters) } :=
    fun _ _ => Rendezvous.getElem?_leaveAll
  constructor
  case failed =>
    -- leaving the table does not change what a ping has heard
    unfold failed
    congr 1
    refine List.filter_congr fun p hp => ?_
    obtain ⟨x, hx, -⟩ := hinv.waiter p.2 (List.mem_map_of_mem hp)
    simp only [isSet, hx, (hget p.2 _).2 ⟨x, hx, rfl⟩, Option.bind_some]
  case heard => exact (congrArg List.length (Rendezvous.said_leaveAll _)).ge
  case waiter =>
    intro w hw
    obtain ⟨x, hx, hholds⟩ := hinv.waiter w hw
    refine ⟨_, (hget w _).2 ⟨x, hx, rfl⟩, ?_, ?_⟩
    · have hmem : w ∈ call.waiters := hw
      simp [hmem]
    have hsaid : (s.leave c call stage).pending.said = s.pending.said :=
      Rendezvous.said_leaveAll _
    have hfirst : (s.pending.firstSaid x).isSome = true ↔
        x.key ∈ (s.pending.said.drop x.since).map Prod.fst := by
      rw [Rendezvous.firstSaid, Option.isSome_map, List.find?_isSome, List.mem_map]
      simp only [decide_eq_true_eq]
    rw [Echoed, hsaid, List.take_length]
    refine Iff.trans ?_ hfirst
    rcases hholds (by rw [hstage]; trivial) with hleft | hset
    · -- it is still in the table, and heard nothing
      have hcurrent := h.pending.current x.key w x (h.get?_iff.2 ⟨x, hx, rfl, hleft⟩) hx
      rw [hcurrent]
    · obtain ⟨v, hv⟩ := Option.isSome_iff_exists.1 hset
      have hanswered := h.pending.answered w x v hx hv
      simp [hset, hanswered]

/-- A call stops waiting. -/
theorem PingsInv.leave (h : PingsInv s) (hcall : s.calls[c]? = some call)
    (hstage : call.stage = .waiting) {stage : PingStage} (hover : ¬ stage.Holds)
    (hfailed : ∀ failed, stage = .returned failed → failed = s.failed call) :
    PingsInv (s.leave c call stage) := by
  have hinv := h.calls c call hcall
  have hget : ∀ c' call', (s.leave c call stage).calls[c']? = some call' ↔
      c' = c ∧ call' = { call with stage := stage, heard := s.pending.said.length } ∨
        c' ≠ c ∧ s.calls[c']? = some call' :=
    fun _ _ => GrowingList.getElem?_set_iff hcall
  have hwaiter : ∀ w y, (s.leave c call stage).pending.waiters[w]? = some y ↔
      ∃ x : Waiter EventId Unit, s.pending.waiters[w]? = some x ∧
        y = { x with left := x.left || decide (w ∈ call.waiters) } :=
    fun _ _ => Rendezvous.getElem?_leaveAll
  have hext : s.pending.Extends (s.leave c call stage).pending :=
    Rendezvous.extends_leaveAll _
  constructor
  case pending => exact h.pending.leaveAll _
  case unset =>
    intro w y hy hleft
    obtain ⟨x, hx, rfl⟩ := (hwaiter w y).1 hy
    exact h.unset w x hx (Bool.or_eq_false_iff.1 hleft).1
  case keys =>
    intro w w' y y' hy hy' hkey
    obtain ⟨x, hx, rfl⟩ := (hwaiter w y).1 hy
    obtain ⟨x', hx', rfl⟩ := (hwaiter w' y').1 hy'
    exact h.keys w w' x x' hx hx' hkey
  case calls =>
    intro c' call' hcall'
    rcases (hget c' call').1 hcall' with ⟨-, rfl⟩ | ⟨hne, hcall'⟩
    · refine ⟨hinv.relays, fun _ => ?_, hinv.nodup, fun w hw => ?_, fun failed hreturned => ?_⟩
      · exact hinv.sent (by rw [hstage]; trivial)
      · obtain ⟨x, hx, -⟩ := hinv.waiter w hw
        exact ⟨_, (hwaiter w _).2 ⟨x, hx, rfl⟩, fun hholds => absurd hholds hover⟩
      · rw [hfailed failed hreturned]
        exact h.judged hcall hstage stage
    · refine (h.calls c' call' hcall').mono hext fun _ w hw x hx hgoal => ?_
      refine ⟨_, (hwaiter w _).2 ⟨x, hx, rfl⟩, ?_⟩
      -- its pings are not those of the call that leaves
      have hnot : w ∉ call.waiters := fun hw' => hne (h.apart c' c call' call w hcall' hcall hw hw')
      simpa [hnot] using hgoal
  case owner =>
    intro w y hy
    obtain ⟨x, hx, rfl⟩ := (hwaiter w y).1 hy
    obtain ⟨c', call', hcall', hw, hholds⟩ := h.owner w x hx
    by_cases hc : c' = c
    · subst hc
      obtain rfl := Option.some.inj (hcall.symm.trans hcall')
      -- its own pings have all left the table
      refine ⟨c', _, (hget _ _).2 (.inl ⟨rfl, rfl⟩), hw, fun hleft => ?_⟩
      simp [hw] at hleft
    · exact ⟨c', call', (hget _ _).2 (.inr ⟨hc, hcall'⟩), hw,
        fun hleft => hholds (Bool.or_eq_false_iff.1 hleft).1⟩
  case apart =>
    exact fun c₁ c₂ call₁ call₂ w => h.apart_set hcall
      { call with stage := stage, heard := s.pending.said.length } rfl

/-- Every step keeps the invariant. -/
theorem pingsInv_step {a : PingAction} (hinv : PingsInv s) (h : s.step a = some t) :
    PingsInv t := by
  cases a with
  | call relay relays id =>
    obtain ⟨hfresh, heq⟩ := Option.ite_none_right_eq_some.1 h
    obtain rfl := Option.some.inj heq
    exact (hinv.concat (relay :: relays)).ping (GrowingList.getElem?_concat_iff.2 (.inr ⟨rfl, rfl⟩))
      rfl rfl hfresh
  | sendOver c id =>
    obtain ⟨call, hcall, hstep⟩ := Option.bind_eq_some_iff.1 h
    obtain ⟨hstage, hstep⟩ := Option.ite_none_right_eq_some.1 hstep
    split at hstep
    -- that was the last relay: the call goes on to wait for the echoes
    next hremaining =>
      obtain rfl := Option.some.inj hstep
      exact hinv.setStage hcall (by rw [hstage]; trivial) trivial fun _ => hremaining
    next relay relays hremaining =>
      obtain ⟨hfresh, heq⟩ := Option.ite_none_right_eq_some.1 hstep
      obtain rfl := Option.some.inj heq
      exact hinv.ping hcall hstage hremaining hfresh
  | dispatch id =>
    obtain rfl := Option.some.inj h
    exact hinv.deliver id
  | gathered c =>
    obtain ⟨call, hcall, hstep⟩ := Option.bind_eq_some_iff.1 h
    obtain ⟨⟨hstage, -⟩, heq⟩ := Option.ite_none_right_eq_some.1 hstep
    obtain rfl := Option.some.inj heq
    refine hinv.leave hcall hstage id ?_
    rintro failed ⟨⟩
    rfl
  | timedOut c =>
    obtain ⟨call, hcall, hstep⟩ := Option.bind_eq_some_iff.1 h
    obtain ⟨hstage, heq⟩ := Option.ite_none_right_eq_some.1 hstep
    obtain rfl := Option.some.inj heq
    refine hinv.leave hcall hstage id ?_
    rintro failed ⟨⟩
    rfl
  | cancel c =>
    obtain ⟨call, hcall, hstep⟩ := Option.bind_eq_some_iff.1 h
    split at hstep
    -- while it sends, the `finally` is not entered yet: its pings stay in the table
    next hstage =>
      obtain rfl := Option.some.inj hstep
      exact hinv.setStage hcall (by rw [hstage]; trivial) trivial False.elim
    next hstage =>
      obtain rfl := Option.some.inj hstep
      exact hinv.leave hcall hstage id (by rintro failed ⟨⟩)
    next => cases hstep

theorem pingsInv_init : PingsInv init where
  pending := Rendezvous.inv_init
  unset := by rintro w x ⟨⟩
  keys := by rintro w w' x x' ⟨⟩
  calls := by rintro c call ⟨⟩
  owner := by rintro w x ⟨⟩
  apart := by rintro c c' call call' w ⟨⟩

theorem pingsInv (h : Reachable s) : PingsInv s :=
  h.invariant pingsInv_init fun _ _ _ hinv _ hstep => pingsInv_step hinv hstep

/-! ## What the calls judge, and what stays behind -/

/-- A relay that is heard, and one that is not. -/
def sampleRelay (id : ℕ) : Watchdog.Relay := ⟨id, "wss://r.example"⟩

/-- The call over both, when it has returned. -/
def sampleCall : PingCall :=
  ⟨[sampleRelay 0, sampleRelay 1], [], [(sampleRelay 0, 0), (sampleRelay 1, 1)],
    .returned [sampleRelay 1], 1⟩

theorem exists_returned_sample : ∃ s, Reachable s ∧ s.calls = [sampleCall] := by
  have hrun : (Transition.exec step init
      [.call (sampleRelay 0) [sampleRelay 1] "a", .sendOver 0 "b", .dispatch "a", .sendOver 0 "",
        .timedOut 0]).any (fun s => decide (s.calls = [sampleCall])) = true := by decide +kernel
  obtain ⟨s, hs, hcalls⟩ := Transition.exists_reachable_of_exec hrun
  exact ⟨s, hs, of_decide_eq_true hcalls⟩

/-- A call of `ping_listener` that returned pinged each of its relays once, and it drops exactly
those whose own ping was not among the events that came in between its registration and the end of
the wait. -/
theorem pingListener_verdict (h : Reachable s) (hcall : s.calls[c]? = some call)
    (hreturned : call.stage = .returned failed) :
    call.pinged.map Prod.fst = call.relays ∧
      failed = (call.pinged.filter fun p => !s.isSet p.2).map Prod.fst ∧
      ∀ w ∈ call.waiters, ∃ x, s.pending.waiters[w]? = some x ∧
        (s.isSet w = true ↔ s.Echoed call x) := by
  have hinv := (pingsInv h).calls c call hcall
  have hjudged := hinv.returned failed hreturned
  refine ⟨?_, hjudged.failed, fun w hw => ?_⟩
  · have hsent := hinv.sent (by rw [hreturned]; trivial)
    rw [← hinv.relays, hsent, List.append_nil]
  · obtain ⟨x, hx, -, hechoed⟩ := hjudged.waiter w hw
    refine ⟨x, hx, ?_⟩
    rw [isSet, hx, Option.bind_some]
    exact hechoed

/-- What the call of the sample judges. -/
theorem pingListener_verdict_sample :
    ∃ s : Pings, s.calls = [sampleCall] ∧
      [sampleRelay 1] = (sampleCall.pinged.filter fun p => !s.isSet p.2).map Prod.fst ∧
      ∀ w ∈ sampleCall.waiters, ∃ x, s.pending.waiters[w]? = some x ∧
        (s.isSet w = true ↔ s.Echoed sampleCall x) := by
  obtain ⟨s, hs, hcalls⟩ := exists_returned_sample
  have hcall : s.calls[0]? = some sampleCall := by rw [hcalls]; rfl
  exact ⟨s, hcalls, (pingListener_verdict hs hcall rfl).2⟩

/-- The table holds exactly the pings that have not come back, of the calls that send or wait and of
those that were cancelled while they sent. -/
theorem pendingPings_get?_iff (h : Reachable s) :
    s.pending.table.get? id = some w ↔
      ∃ (c : ℕ) (call : PingCall) (x : Waiter EventId Unit), s.calls[c]? = some call ∧
        w ∈ call.waiters ∧ s.pending.waiters[w]? = some x ∧ x.key = id ∧ s.isSet w = false ∧
        (call.stage = .sending ∨ call.stage = .waiting ∨ call.stage = .abandoned) := by
  have hinv := pingsInv h
  rw [hinv.get?_iff]
  constructor
  · rintro ⟨x, hx, hkey, hleft⟩
    obtain ⟨c, call, hcall, hw, hholds⟩ := hinv.owner w x hx
    refine ⟨c, call, x, hcall, hw, hx, hkey, ?_, ?_⟩
    · rw [isSet, hx, Option.bind_some, hinv.unset w x hx hleft]
      rfl
    · have hheld := hholds hleft
      cases hstage : call.stage with
      | sending => exact .inl rfl
      | waiting => exact .inr (.inl rfl)
      | abandoned => exact .inr (.inr rfl)
      | returned failed | cancelled =>
        rw [hstage] at hheld
        exact hheld.elim
  · rintro ⟨c, call, x, hcall, hw, hx, hkey, hunset, hstage⟩
    obtain ⟨x', hx', hgoal⟩ := (hinv.calls c call hcall).waiter w hw
    obtain rfl := Option.some.inj (hx.symm.trans hx')
    have hheld : call.stage.Holds := by
      rcases hstage with hstage | hstage | hstage <;> rw [hstage] <;> trivial
    rw [isSet, hx, Option.bind_some] at hunset
    rcases hgoal hheld with hleft | hset
    · exact ⟨x, hx, hkey, hleft⟩
    · cases hunset.symm.trans hset

/-- A call that is cancelled while it sends leaves its ping in the table. -/
theorem pendingPings_get?_iff_abandoned :
    ∃ (s : Pings) (c : ℕ) (call : PingCall), s.calls[c]? = some call ∧ 0 ∈ call.waiters ∧
      s.isSet 0 = false ∧
      (call.stage = .sending ∨ call.stage = .waiting ∨ call.stage = .abandoned) := by
  have hrun : (Transition.exec step init [.call (sampleRelay 0) [] "a", .cancel 0]).any
      (fun s => decide (s.pending.table.get? "a" = some 0)) = true := by decide +kernel
  obtain ⟨s, hs, hget⟩ := Transition.exists_reachable_of_exec hrun
  obtain ⟨c, call, x, hcall, hw, -, -, hunset, hstage⟩ :=
    (pendingPings_get?_iff hs).1 (of_decide_eq_true hget)
  exact ⟨s, c, call, hcall, hw, hunset, hstage⟩

/-! ## The pass of the watchdog -/

/-- The ping of a relay. -/
def pingOf (s : Pings) (call : PingCall) (relay : Watchdog.Relay) : EventId :=
  match call.pinged.find? fun p => p.1 = relay with
  | some p => ((s.pending.waiters[p.2]?).map Waiter.key).getD ""
  | none => ""

/-- A ping has come back. -/
def echoed (s : Pings) (id : EventId) : Bool :=
  s.pending.waiters.any fun x => x.key = id && x.answer.isSome

/-- The ping of a relay that was pinged, once. -/
theorem pingOf_eq (hnodup : (call.pinged.map Prod.fst).Nodup) {p : Watchdog.Relay × ℕ}
    (hp : p ∈ call.pinged) {x : Waiter EventId Unit} (hx : s.pending.waiters[p.2]? = some x) :
    s.pingOf call p.1 = x.key := by
  have hfind : call.pinged.find? (fun q => q.1 = p.1) = some p := by
    obtain ⟨q, hq⟩ : ∃ q, call.pinged.find? (fun q => q.1 = p.1) = some q := by
      rw [← Option.isSome_iff_exists, List.find?_isSome]
      exact ⟨p, hp, by simp⟩
    have hmem := List.mem_of_find?_eq_some hq
    have hkey : q.1 = p.1 := by simpa using List.find?_some hq
    rw [hq, List.inj_on_of_nodup_map hnodup hmem hp hkey]
  rw [pingOf, hfind]
  simp [hx]

/-- Whether the ping of a waiter has come back. -/
theorem PingsInv.echoed_eq (h : PingsInv s) {x : Waiter EventId Unit}
    (hx : s.pending.waiters[w]? = some x) : s.echoed x.key = s.isSet w := by
  have hset : s.isSet w = x.answer.isSome := by rw [isSet, hx, Option.bind_some]
  rw [hset, Bool.eq_iff_iff, echoed, List.any_eq_true]
  constructor
  · rintro ⟨y, hy, hecho⟩
    obtain ⟨w', hw'⟩ := List.mem_iff_getElem?.1 hy
    obtain ⟨hkey, hanswer⟩ : y.key = x.key ∧ y.answer.isSome = true := by simpa using hecho
    obtain rfl := h.keys w' w y x hw' hx hkey
    obtain rfl := Option.some.inj (hw'.symm.trans hx)
    exact hanswer
  · exact fun hanswer => ⟨x, List.mem_of_getElem? hx, by simp [hanswer]⟩

/-- The pings of the relays of a call are different events. -/
theorem PingsInv.nodup_pingOf (h : PingsInv s) (hcall : s.calls[c]? = some call)
    (hnodup : (call.pinged.map Prod.fst).Nodup) :
    ((call.pinged.map Prod.fst).map (s.pingOf call)).Nodup := by
  refine List.Nodup.map_on ?_ hnodup
  intro r hr r' hr' heq
  obtain ⟨p, hp, rfl⟩ := List.mem_map.1 hr
  obtain ⟨p', hp', rfl⟩ := List.mem_map.1 hr'
  have hinv := h.calls c call hcall
  obtain ⟨x, hx, -⟩ := hinv.waiter p.2 (List.mem_map_of_mem hp)
  obtain ⟨x', hx', -⟩ := hinv.waiter p'.2 (List.mem_map_of_mem hp')
  rw [pingOf_eq hnodup hp hx, pingOf_eq hnodup hp' hx'] at heq
  have hwaiter := h.keys p.2 p'.2 x x' hx hx' heq
  rw [List.inj_on_of_nodup_map hinv.nodup hp hp' hwaiter]

/-- The relays whose pings have not come back. -/
theorem PingsInv.failed_eq (h : PingsInv s) (hcall : s.calls[c]? = some call)
    (hnodup : (call.pinged.map Prod.fst).Nodup) :
    s.failed call =
      (call.pinged.map Prod.fst).filter fun relay => !s.echoed (s.pingOf call relay) := by
  rw [failed, List.filter_map]
  congr 1
  refine List.filter_congr fun p hp => ?_
  obtain ⟨x, hx, -⟩ := (h.calls c call hcall).waiter p.2 (List.mem_map_of_mem hp)
  rw [Function.comp_apply, pingOf_eq hnodup hp hx, h.echoed_eq hx]

/-- The pass of a watchdog over relays with different pings. -/
theorem pingListener_eq {normalizeUrl : String → String} {watchdog : Watchdog}
    {m : Watchdog.Manager} (hm : watchdog.manager = some m) (hconnected : m.connected = true)
    {ping : Watchdog.Relay → EventId} (hnodup : (m.relays.map ping).Nodup)
    (echoed : EventId → Bool) (now : Time) (urls : List String) (outcomes : Watchdog.Outcomes) :
    ∃ server, watchdog.pingListener normalizeUrl ping echoed now urls outcomes =
      if (m.relays.filter fun relay => !echoed (ping relay)) = [] then
        (true, { watchdog with server := server })
      else
        (false, (({ watchdog with server := server } : Watchdog).dropRelays
          (m.relays.filter fun relay => !echoed (ping relay))).ensureListenerRelays normalizeUrl
            urls outcomes) := by
  have hentries : (m.relays.foldl (fun pinged relay => pinged.set (ping relay) relay)
      (∅ : Dict EventId Watchdog.Relay)).entries =
        m.relays.map fun relay => (ping relay, relay) := by
    have hfold : m.relays.foldl (fun pinged relay => pinged.set (ping relay) relay)
        (∅ : Dict EventId Watchdog.Relay) =
          (m.relays.map fun relay => (ping relay, relay)).foldl (fun d e => d.set e.1 e.2) ∅ := by
      rw [List.foldl_map]
    have hfst : ((m.relays.map fun relay => (ping relay, relay)).map Prod.fst).Nodup := by
      rwa [List.map_map]
    rw [hfold, Dict.entries_foldl_set hfst fun e _ => Dict.notMem_empty e.1]
    rfl
  have hfailed : ((m.relays.map fun relay => (ping relay, relay)).filter fun e =>
      !echoed e.1).map Prod.snd = m.relays.filter fun relay => !echoed (ping relay) := by
    rw [List.filter_map, List.map_map]
    exact List.map_id _
  unfold Watchdog.pingListener
  rw [hm]
  simp only [hconnected, Bool.not_true, Bool.false_or, hentries, hfailed, List.isEmpty_iff]
  by_cases hempty : m.relays = []
  · refine ⟨watchdog.server, ?_⟩
    rw [if_pos hempty, if_pos (by rw [hempty]; rfl), ← hm]
  · by_cases hheard : (m.relays.filter fun relay => !echoed (ping relay)) = []
    · apply Exists.intro
      rw [if_neg hempty, if_pos hheard, if_pos hheard]
    · apply Exists.intro
      rw [if_neg hempty, if_neg hheard, if_neg hheard]

/-- A call of `ping_listener` that returned goes on as the pass of the watchdog does that pings the
same relays at once and hears the pings that this call heard. -/
theorem pingListener_refines (h : Reachable s) (hcall : s.calls[c]? = some call)
    (hreturned : call.stage = .returned failed) (hnodup : call.relays.Nodup)
    {normalizeUrl : String → String} {watchdog : Watchdog} {m : Watchdog.Manager}
    (hm : watchdog.manager = some m) (hconnected : m.connected = true)
    (hrelays : m.relays = call.relays) (now : Time) (urls : List String)
    (outcomes : Watchdog.Outcomes) :
    ∃ server, watchdog.pingListener normalizeUrl (s.pingOf call) s.echoed now urls outcomes =
      if failed = [] then (true, { watchdog with server := server })
      else
        (false, (({ watchdog with server := server } : Watchdog).dropRelays
          failed).ensureListenerRelays normalizeUrl urls outcomes) := by
  have hinv := pingsInv h
  have hcallInv := hinv.calls c call hcall
  have hpinged : call.pinged.map Prod.fst = call.relays := by
    have hsent := hcallInv.sent (by rw [hreturned]; trivial)
    rw [← hcallInv.relays, hsent, List.append_nil]
  have hnodup' : (call.pinged.map Prod.fst).Nodup := hpinged ▸ hnodup
  have hfailed : failed = m.relays.filter fun relay => !s.echoed (s.pingOf call relay) := by
    rw [(hcallInv.returned failed hreturned).failed, hinv.failed_eq hcall hnodup', hpinged, hrelays]
  have hdistinct : (m.relays.map (s.pingOf call)).Nodup := by
    rw [hrelays, ← hpinged]
    exact hinv.nodup_pingOf hcall hnodup'
  rw [hfailed]
  exact pingListener_eq hm hconnected hdistinct s.echoed now urls outcomes

/-- The relay of the sample that is not heard is dropped. -/
theorem pingListener_refines_sample :
    ∃ (s : Pings) (server : ClinkServer),
      (Watchdog.start (.sample 150 300) (some ⟨sampleCall.relays, true, ∅, 2⟩)).pingListener
        (fun url => url) (s.pingOf sampleCall) s.echoed 0 [] ⟨fun _ => true, fun _ => true⟩ =
      (false, (({ Watchdog.start (.sample 150 300) (some ⟨sampleCall.relays, true, ∅, 2⟩) with
        server := server } : Watchdog).dropRelays [sampleRelay 1]).ensureListenerRelays
          (fun url => url) [] ⟨fun _ => true, fun _ => true⟩) := by
  obtain ⟨s, hs, hcalls⟩ := exists_returned_sample
  have hcall : s.calls[0]? = some sampleCall := by rw [hcalls]; rfl
  obtain ⟨server, hserver⟩ := @pingListener_refines s 0 sampleCall [sampleRelay 1] hs hcall rfl
    (by decide) (fun url => url)
    (Watchdog.start (.sample 150 300) (some ⟨sampleCall.relays, true, ∅, 2⟩))
    ⟨sampleCall.relays, true, ∅, 2⟩ rfl rfl rfl 0 [] ⟨fun _ => true, fun _ => true⟩
  exact ⟨s, server, hserver⟩

end Pings

end ElectrumClink
